import Mathlib.Data.List.Basic

namespace HermEX.Framework

/-- Its name, its properties, and the components in it. -/
inductive Comp (ν L : Type) where
  | mk (name : ν) (props : List L) (comps : List (Comp ν L))

namespace Comp

variable {ν L M : Type}

def name : Comp ν L → ν
  | mk n _ _ => n

def props : Comp ν L → List L
  | mk _ ps _ => ps

def comps : Comp ν L → List (Comp ν L)
  | mk _ _ cs => cs

variable {cs : List (Comp ν L)} {c : Comp ν L} (f : L → M) {Q : ν → Prop} {P : L → Prop}

theorem eta (c : Comp ν L) : mk c.name c.props c.comps=c := by
  cases c
  rfl

theorem induct {P : Comp ν L → Prop}
    (h : ∀ n ps cs,(∀ c∈cs,P c) → P (mk n ps cs)) : ∀ c,P c
  | mk n ps cs => h n ps cs fun c _ => induct h c

def height : Comp ν L → Nat
  | mk _ _ cs => 1+heights cs
where
  heights : List (Comp ν L) → Nat
    | [] => 0
    | c::cs => max c.height (heights cs)

theorem height_le_heights (h : c∈cs) : c.height≤height.heights cs := by
  induction cs with
  | nil => cases h
  | cons d cs ih =>
    rw [height.heights]
    rcases List.mem_cons.mp h with rfl | h
    · omega
    · have hle := ih h
      omega

theorem heights_le {n : Nat} (h : ∀ c∈cs,c.height≤n) : height.heights cs≤n := by
  induction cs with
  | nil => exact Nat.zero_le n
  | cons d cs ih =>
    rw [height.heights]
    have hd := h d (by simp)
    have hcs := ih fun c hc => h c (by simp [hc])
    omega

def map (f : L → M) : Comp ν L → Comp ν M
  | mk n ps cs => mk n (ps.map f) (maps cs)
where
  maps : List (Comp ν L) → List (Comp ν M)
    | [] => []
    | c::cs => c.map f::maps cs

theorem maps_eq (cs : List (Comp ν L)) : map.maps f cs=cs.map (map f) := by
  induction cs with
  | nil => rfl
  | cons c cs ih => rw [map.maps,ih,List.map_cons]

@[simp] theorem map_mk (n : ν) (ps : List L) (cs : List (Comp ν L)) :
    (mk n ps cs).map f=mk n (ps.map f) (cs.map (map f)) := by
  rw [map,maps_eq]

@[simp] theorem props_map (c : Comp ν L) : (c.map f).props=c.props.map f := by
  cases c
  rfl

@[simp] theorem comps_map (c : Comp ν L) : (c.map f).comps=c.comps.map (map f) := by
  cases c
  rw [map_mk]
  rfl

def All (Q : ν → Prop) (P : L → Prop) : Comp ν L → Prop
  | mk n ps cs => Q n ∧ (∀ l∈ps,P l) ∧ Alls cs
where
  Alls : List (Comp ν L) → Prop
    | [] => True
    | c::cs => c.All Q P ∧ Alls cs

theorem alls_iff : All.Alls Q P cs ↔ ∀ c∈cs,c.All Q P := by
  induction cs with
  | nil => simp [All.Alls]
  | cons c cs ih => simp [All.Alls,ih]

@[simp] theorem all_mk {n : ν} {ps : List L} :
    (mk n ps cs).All Q P ↔ Q n ∧ (∀ l∈ps,P l) ∧ ∀ c∈cs,c.All Q P := by
  rw [All,alls_iff]

instance decidableAll (Q : ν → Prop) (P : L → Prop) [DecidablePred Q] [DecidablePred P] :
    ∀ c : Comp ν L,Decidable (c.All Q P)
  | mk n ps cs => @instDecidableAnd (Q n) ((∀ l∈ps,P l) ∧ All.Alls Q P cs) _
      (@instDecidableAnd (∀ l∈ps,P l) (All.Alls Q P cs) _ (decidableAlls cs))
where
  decidableAlls : ∀ cs : List (Comp ν L),Decidable (All.Alls Q P cs)
    | [] => isTrue trivial
    | c::cs => @instDecidableAnd (c.All Q P) (All.Alls Q P cs) (decidableAll Q P c)
        (decidableAlls cs)

theorem All.mono {Q' : ν → Prop} {P' : L → Prop} (hq : ∀ n,Q n → Q' n) (h : ∀ l,P l → P' l)
    (hc : c.All Q P) : c.All Q' P' := by
  induction c using Comp.induct with
  | h n ps cs ih =>
    obtain ⟨hn,hps,hcs⟩ := all_mk.mp hc
    exact all_mk.mpr ⟨hq n hn,fun l hl => h l (hps l hl),fun c hm => ih c hm (hcs c hm)⟩

theorem All.and {Q' : ν → Prop} {P' : L → Prop} (hc : c.All Q P) (hc' : c.All Q' P') :
    c.All (fun n => Q n ∧ Q' n) fun l => P l ∧ P' l := by
  induction c using Comp.induct with
  | h n ps cs ih =>
    obtain ⟨hn,hps,hcs⟩ := all_mk.mp hc
    obtain ⟨hn',hps',hcs'⟩ := all_mk.mp hc'
    exact all_mk.mpr ⟨⟨hn,hn'⟩,fun l hl => ⟨hps l hl,hps' l hl⟩,
      fun c hm => ih c hm (hcs c hm) (hcs' c hm)⟩

theorem map_eq_map_iff {f g : L → M} :
    c.map f=c.map g ↔ c.All (fun _ => True) fun l => f l=g l := by
  induction c using Comp.induct with
  | h n ps cs ih =>
    rw [map_mk,map_mk,all_mk]
    simp only [mk.injEq,true_and,List.map_inj_left]
    exact and_congr Iff.rfl (forall₂_congr ih)

theorem map_map {N : Type} (g : M → N) (c : Comp ν L) : (c.map f).map g=c.map (g ∘ f) := by
  induction c using Comp.induct with
  | h n ps cs ih =>
    simp only [map_mk,List.map_map,mk.injEq,true_and]
    exact List.map_congr_left fun c hc => ih c hc

def filterProps (p : L → Bool) : Comp ν L → Comp ν L
  | mk n ps cs => mk n (ps.filter p) (all cs)
where
  all : List (Comp ν L) → List (Comp ν L)
    | [] => []
    | c::cs => c.filterProps p::all cs

theorem filterProps_all (p : L → Bool) (cs : List (Comp ν L)) :
    filterProps.all p cs=cs.map (filterProps p) := by
  induction cs with
  | nil => rfl
  | cons c cs ih => rw [filterProps.all,ih,List.map_cons]

@[simp] theorem filterProps_mk (p : L → Bool) (n : ν) (ps : List L) (cs : List (Comp ν L)) :
    (mk n ps cs).filterProps p=mk n (ps.filter p) (cs.map (filterProps p)) := by
  rw [filterProps,filterProps_all]

theorem filterProps_eq_self {p : L → Bool} (h : c.All (fun _ => True) fun l => p l=true) :
    c.filterProps p=c := by
  induction c using Comp.induct with
  | h n ps cs ih =>
    obtain ⟨-,hps,hcs⟩ := all_mk.mp h
    rw [filterProps_mk,List.filter_eq_self.mpr hps]
    congr 1
    exact (List.map_congr_left fun c hc => ih c hc (hcs c hc)).trans (List.map_id cs)

def lead (l : L) (c : Comp ν L) : Comp ν L := mk c.name (l::c.props) c.comps

end Comp

inductive Token (ν L : Type) where
  | opened (name : ν)
  | closed
  | property (l : L)

def Comp.tokens {ν L : Type} : Comp ν L → List (Token ν L)
  | mk n ps cs => .opened n::(ps.map .property++(all cs++[.closed]))
where
  all : List (Comp ν L) → List (Token ν L)
    | [] => []
    | c::cs => c.tokens++all cs

/-- The open components, the first one closed, and how many are open. -/
structure Builder (ν L : Type) where
  stack : List (Comp ν L)
  root : Option (Comp ν L)
  depth : Nat

namespace Builder

variable {ν L : Type} (limit : Nat → Bool)

def start : Builder ν L := ⟨[],none,0⟩

def pop (b : Builder ν L) : Builder ν L :=
  match b.stack with
  | [] => b
  | [c] => {b with stack:=[],root:=b.root.or (some c)}
  | c::d::cs => {b with stack:=.mk d.name d.props (d.comps++[c])::cs}

def step (b : Builder ν L) : Token ν L → Builder ν L
  | .opened n =>
    if limit (b.depth+1) then {b with stack:=.mk n [] []::b.stack,depth:=b.depth+1}
    else {b with depth:=b.depth+1}
  | .closed =>
    let b' := if limit b.depth then b.pop else b
    {b' with depth:=b.depth-1}
  | .property l =>
    match b.stack with
    | [] => b
    | c::cs => if limit b.depth then {b with stack:=.mk c.name (c.props++[l]) c.comps::cs}
        else b

def finish : Nat → Builder ν L → Option (Comp ν L)
  | 0,b => b.root
  | n+1,b => finish n b.pop

def build (ts : List (Token ν L)) : Option (Comp ν L) :=
  let b := ts.foldl (step limit) start
  finish b.stack.length b

variable {limit}

variable {n : Nat} {c : Comp ν L} {t : Token ν L} {root : Option (Comp ν L)} {ts : List (Token ν L)}

theorem run_properties {cs : List (Comp ν L)} {depth : Nat} (h : limit depth=true) (ps : List L) :
    (ps.map Token.property).foldl (step limit) ⟨c::cs,root,depth⟩ =
      ⟨.mk c.name (c.props++ps) c.comps::cs,root,depth⟩ := by
  induction ps generalizing c with
  | nil => simp [Comp.eta]
  | cons l ps ih =>
    rw [List.map_cons,List.foldl_cons]
    simp only [step,h,if_true]
    rw [ih]
    simp [Comp.name,Comp.props,Comp.comps]

theorem run_all {d : Comp ν L} {ds : List (Comp ν L)} {depth : Nat} (cs : List (Comp ν L))
    (h : ∀ c∈cs,∀ d : Comp ν L,c.tokens.foldl (step limit) ⟨d::ds,root,depth⟩ =
      ⟨.mk d.name d.props (d.comps++[c])::ds,root,depth⟩) :
    (Comp.tokens.all cs).foldl (step limit) ⟨d::ds,root,depth⟩ =
      ⟨.mk d.name d.props (d.comps++cs)::ds,root,depth⟩ := by
  induction cs generalizing d with
  | nil => simp [Comp.tokens.all,Comp.eta]
  | cons c cs ih =>
    rw [Comp.tokens.all,List.foldl_append,h c (by simp),ih fun c hc => h c (by simp [hc])]
    simp [Comp.name,Comp.props,Comp.comps]

theorem run_tokens (c : Comp ν L) (stack : List (Comp ν L)) (root : Option (Comp ν L))
    (depth : Nat) (h : ∀ n≤depth+c.height,limit n=true) :
    c.tokens.foldl (step limit) ⟨stack,root,depth⟩ =
      {pop ⟨c::stack,root,depth⟩ with depth:=depth} := by
  induction c using Comp.induct generalizing stack root depth with
  | h n ps cs ih =>
    have hopen : limit (depth+1)=true := h _ (by rw [Comp.height]; omega)
    have hin : ∀ c∈cs,∀ d : Comp ν L,
        c.tokens.foldl (step limit) ⟨d::stack,root,depth+1⟩ =
          ⟨.mk d.name d.props (d.comps++[c])::stack,root,depth+1⟩ := by
      intro c hc d
      have hle := Comp.height_le_heights hc
      rw [ih c hc _ _ _ fun n hn => h n (by rw [Comp.height]; omega)]
      rfl
    rw [Comp.tokens,List.foldl_cons]
    simp only [step,hopen,if_true]
    rw [List.foldl_append,run_properties hopen,List.foldl_append,run_all cs hin]
    simp only [List.foldl_cons,step,hopen]
    cases stack <;> rfl

theorem build_append (h : ∀ t∈ts,∀ m,t≠.opened m) (us : List (Token ν L)) :
    build limit (ts++us)=build limit us := by
  have hstart : ts.foldl (step limit) start=start := by
    induction ts with
    | nil => rfl
    | cons t ts ih =>
      have ht := h t (by simp)
      have hstep : step limit start t=start := by
        cases t with
        | opened m => exact absurd rfl (ht m)
        | closed => by_cases hl : limit 0=true <;> simp [step,start,pop,hl]
        | property l => rfl
      rw [List.foldl_cons,hstep,ih fun t ht => h t (by simp [ht])]
  simp only [build,List.foldl_append,hstart]

theorem build_tokens (c : Comp ν L) (h : ∀ n ≤ c.height,limit n=true) :
    build limit c.tokens=some c := by
  have hrun := run_tokens c [] none 0 fun n hn => h n (by omega)
  simp only [build,start,hrun]
  rfl

def Holds (Q : ν → Prop) (P : L → Prop) (b : Builder ν L) : Prop :=
  (∀ c∈b.stack,c.All Q P) ∧ ∀ c,b.root=some c → c.All Q P

def TokenHolds (Q : ν → Prop) (P : L → Prop) : Token ν L → Prop
  | .opened n => Q n
  | .closed => True
  | .property l => P l

section Holds

variable {Q : ν → Prop} {P : L → Prop} {b : Builder ν L}

theorem Holds.pop (h : b.Holds Q P) : b.pop.Holds Q P := by
  obtain ⟨stack,root,depth⟩ := b
  obtain ⟨hstack,hroot⟩ := h
  rcases stack with _ | ⟨c,_ | ⟨d,cs⟩⟩
  · exact ⟨hstack,hroot⟩
  · refine ⟨by simp [Builder.pop],?_⟩
    intro r hr
    cases root with
    | none =>
      obtain rfl : c=r := by simpa [Builder.pop] using hr
      exact hstack c (by simp)
    | some r' =>
      obtain rfl : r'=r := by simpa [Builder.pop] using hr
      exact hroot r' rfl
  · refine ⟨?_,hroot⟩
    intro x hx
    rcases List.mem_cons.mp hx with rfl | hx
    · have hd := hstack d (by simp)
      rw [← d.eta,Comp.all_mk] at hd
      refine Comp.all_mk.mpr ⟨hd.1,hd.2.1,?_⟩
      intro y hy
      rcases List.mem_append.mp hy with hy | hy
      · exact hd.2.2 y hy
      · exact (List.mem_singleton.mp hy) ▸ hstack c (by simp)
    · exact hstack x (by simp [hx])

theorem Holds.step (h : b.Holds Q P) (ht : TokenHolds Q P t) :
    (b.step limit t).Holds Q P := by
  cases t with
  | opened n =>
    simp only [Builder.step]
    split_ifs
    · refine ⟨?_,h.2⟩
      intro c hc
      rcases List.mem_cons.mp hc with rfl | hc
      · exact Comp.all_mk.mpr ⟨ht,by simp,by simp⟩
      · exact h.1 c hc
    · exact h
  | closed =>
    simp only [Builder.step]
    split_ifs
    · exact h.pop
    · exact h
  | property l =>
    obtain ⟨stack,root,depth⟩ := b
    obtain ⟨hstack,hroot⟩ := h
    cases stack with
    | nil => exact ⟨hstack,hroot⟩
    | cons c cs =>
      simp only [Builder.step]
      split_ifs
      · refine ⟨?_,hroot⟩
        intro x hx
        rcases List.mem_cons.mp hx with rfl | hx
        · have hc := hstack c (by simp)
          rw [← c.eta,Comp.all_mk] at hc
          refine Comp.all_mk.mpr ⟨hc.1,?_,hc.2.2⟩
          intro y hy
          rcases List.mem_append.mp hy with hy | hy
          · exact hc.2.1 y hy
          · exact (List.mem_singleton.mp hy) ▸ ht
        · exact hstack x (by simp [hx])
      · exact ⟨hstack,hroot⟩

theorem Holds.finish (n : Nat) (h : b.Holds Q P) (hc : b.finish n=some c) :
    c.All Q P := by
  induction n generalizing b with
  | zero => exact h.2 c hc
  | succ n ih => exact ih h.pop hc

theorem build_all (h : ∀ t∈ts,TokenHolds Q P t) (hc : build limit ts=some c) : c.All Q P := by
  have hrun : ∀ (ts : List (Token ν L)) (b : Builder ν L),b.Holds Q P →
      (∀ t∈ts,TokenHolds Q P t) → (ts.foldl (Builder.step limit) b).Holds Q P := by
    intro ts
    induction ts with
    | nil => exact fun b hb _ => hb
    | cons t ts ih =>
      intro b hb hts
      exact ih _ (hb.step (hts t (by simp))) fun t ht => hts t (by simp [ht])
  have hstart : (start : Builder ν L).Holds Q P := by simp [Holds,start]
  exact (hrun ts start hstart h).finish _ hc

end Holds

def Fits (n : Nat) : List (Comp ν L) → Prop
  | [] => True
  | c::cs => c.height+cs.length≤n ∧ Fits n cs

/-- Open and done within a bound of `n` levels. -/
structure Within (n : Nat) (b : Builder ν L) : Prop where
  fits : Fits n b.stack
  root : ∀ c,b.root=some c → c.height≤n
  depth : b.stack.length=min b.depth n

theorem Within.pop_fits {b : Builder ν L} (h : Fits n b.stack)
    (hr : ∀ c,b.root=some c → c.height≤n) :
    Fits n b.pop.stack ∧ (∀ c,b.pop.root=some c → c.height≤n) ∧
      b.pop.stack.length=b.stack.length-1 := by
  obtain ⟨stack,root,depth⟩ := b
  rcases stack with _ | ⟨c,_ | ⟨d,cs⟩⟩
  · exact ⟨h,hr,rfl⟩
  · refine ⟨trivial,?_,rfl⟩
    intro r hroot
    cases root with
    | none =>
      obtain rfl : c=r := by simpa [Builder.pop] using hroot
      simpa using h.1
    | some r' =>
      obtain rfl : r'=r := by simpa [Builder.pop] using hroot
      exact hr r' rfl
  · obtain ⟨hc,hd,hcs⟩ := h
    refine ⟨⟨?_,hcs⟩,hr,rfl⟩
    rw [← d.eta,Comp.height] at hd
    rw [List.length_cons] at hc
    have hin : Comp.height.heights (d.comps++[c])≤n-cs.length-1 := by
      apply Comp.heights_le
      intro x hx
      rcases List.mem_append.mp hx with hx | hx
      · have hle := Comp.height_le_heights hx
        omega
      · rw [List.mem_singleton.mp hx]
        omega
    rw [Comp.height]
    omega

theorem Within.step {b : Builder ν L} (h : b.Within n) (t : Token ν L) :
    (b.step (· ≤ n) t).Within n := by
  obtain ⟨hfits,hroot,hdepth⟩ := h
  cases t with
  | opened m =>
    simp only [Builder.step,decide_eq_true_eq]
    split_ifs with hle
    · refine ⟨⟨?_,hfits⟩,hroot,?_⟩
      · simp only [Comp.height,Comp.height.heights]
        omega
      · simp only [List.length_cons]
        omega
    · exact ⟨hfits,hroot,by simp only; omega⟩
  | closed =>
    simp only [Builder.step,decide_eq_true_eq]
    split_ifs with hle
    · obtain ⟨hf,hr,hlen⟩ := Within.pop_fits hfits hroot
      exact ⟨hf,hr,by simp only [hlen]; omega⟩
    · exact ⟨hfits,hroot,by simp only; omega⟩
  | property l =>
    obtain ⟨stack,root,depth⟩ := b
    cases stack with
    | nil => exact ⟨hfits,hroot,hdepth⟩
    | cons c cs =>
      simp only [Builder.step]
      split_ifs
      · refine ⟨⟨?_,hfits.2⟩,hroot,hdepth⟩
        have hc := hfits.1
        rw [← c.eta,Comp.height] at hc
        rwa [Comp.height]
      · exact ⟨hfits,hroot,hdepth⟩

theorem build_height (hc : build (· ≤ n) ts=some c) :
    c.height≤n := by
  have hrun : ∀ (ts : List (Token ν L)) (b : Builder ν L),b.Within n →
      (ts.foldl (Builder.step (· ≤ n)) b).Within n := by
    intro ts
    induction ts with
    | nil => exact fun b hb => hb
    | cons t ts ih => exact fun b hb => ih _ (hb.step t)
  have hstart : (start : Builder ν L).Within n := ⟨trivial,by simp [start],by simp [start]⟩
  have hend := hrun ts start hstart
  have hfinish : ∀ (k : Nat) (b : Builder ν L),Fits n b.stack →
      (∀ c,b.root=some c → c.height≤n) → ∀ c,b.finish k=some c → c.height≤n := by
    intro k
    induction k with
    | zero => exact fun b _ hr c hc => hr c hc
    | succ k ih =>
      intro b hf hr c hc
      obtain ⟨hf',hr',-⟩ := Within.pop_fits hf hr
      exact ih b.pop hf' hr' c hc
  exact hfinish _ _ hend.fits hend.root c hc

section Filter

variable (limit) (p : L → Bool)

def Stays : Token ν L → Bool
  | .property l => p l
  | _ => true

def filterProps (b : Builder ν L) : Builder ν L :=
  ⟨b.stack.map (Comp.filterProps p),b.root.map (Comp.filterProps p),b.depth⟩

theorem pop_filter (b : Builder ν L) : b.pop.filterProps p=(b.filterProps p).pop := by
  obtain ⟨stack,root,depth⟩ := b
  rcases stack with _ | ⟨c,_ | ⟨d,cs⟩⟩
  · rfl
  · cases root <;> rfl
  · obtain ⟨n,ps,ds⟩ := d
    simp [pop,filterProps,Comp.name,Comp.props,Comp.comps]

theorem step_filter (b : Builder ν L) (h : Stays p t=true) :
    (b.step limit t).filterProps p=(b.filterProps p).step limit t := by
  cases t with
  | opened n =>
    cases hlimit : limit (b.depth+1) with
    | true | false => simp [step,filterProps,hlimit]
  | closed =>
    have hpop := pop_filter p b
    simp only [step]
    split_ifs with hlimit hlimit' hlimit'
    · simp only [filterProps] at hpop ⊢
      rw [← hpop]
    · exact absurd hlimit hlimit'
    · exact absurd hlimit' hlimit
    · rfl
  | property l =>
    have hl : p l=true := h
    obtain ⟨_ | ⟨c,cs⟩,root,depth⟩ := b
    · rfl
    · obtain ⟨n,ps,ds⟩ := c
      simp only [step,filterProps,List.map_cons]
      split_ifs <;> simp [Comp.name,Comp.props,Comp.comps,hl]

theorem step_drop (b : Builder ν L) (h : Stays p t=false) :
    (b.step limit t).filterProps p=b.filterProps p := by
  cases t with
  | opened n => cases h
  | closed => cases h
  | property l =>
    have hl : p l=false := h
    obtain ⟨_ | ⟨c,cs⟩,root,depth⟩ := b
    · rfl
    · obtain ⟨n,ps,ds⟩ := c
      simp only [step,filterProps]
      split_ifs <;> simp [Comp.name,Comp.props,Comp.comps,hl]

theorem run_filter (ts : List (Token ν L)) (b : Builder ν L) :
    (ts.foldl (step limit) b).filterProps p =
      (ts.filter (Stays p)).foldl (step limit) (b.filterProps p) := by
  induction ts generalizing b with
  | nil => rfl
  | cons t ts ih =>
    cases h : Stays p t with
    | true =>
      rw [List.filter_cons_of_pos h,List.foldl_cons,List.foldl_cons,ih,step_filter limit p b h]
    | false => rw [List.filter_cons_of_neg (by simp [h]),List.foldl_cons,ih,step_drop limit p b h]

theorem finish_filter (n : Nat) (b : Builder ν L) :
    (b.filterProps p).finish n=(b.finish n).map (Comp.filterProps p) := by
  induction n generalizing b with
  | zero => rfl
  | succ n ih => rw [finish,finish,← pop_filter,ih]

theorem build_filter (ts : List (Token ν L)) :
    build limit (ts.filter (Stays p))=(build limit ts).map (Comp.filterProps p) := by
  have hstart : (start : Builder ν L).filterProps p=start := rfl
  have hrun := run_filter limit p ts start
  rw [hstart] at hrun
  simp only [build]
  rw [← hrun,← finish_filter]
  simp [filterProps]

end Filter

section Lead

variable {l : L} {b b' : Builder ν L}

def Led (l : L) (b b' : Builder ν L) : Prop :=
  b'.depth=b.depth ∧
    ((∃ c,b.root=some c ∧ b'.root=some (c.lead l) ∧ b'.stack=b.stack) ∨
      (b.root=none ∧ b'.root=none ∧ ∃ cs c,b.stack=cs++[c] ∧ b'.stack=cs++[c.lead l]))

theorem Led.pop (h : Led l b b') : Led l b.pop b'.pop := by
  obtain ⟨stack,root,depth⟩ := b
  obtain ⟨stack',root',depth'⟩ := b'
  obtain ⟨rfl,⟨c,rfl,rfl,rfl⟩ | ⟨rfl,rfl,cs,c,rfl,rfl⟩⟩ := h
  · rcases stack' with _ | ⟨d,_ | ⟨e,cs⟩⟩ <;> exact ⟨rfl,.inl ⟨c,rfl,rfl,rfl⟩⟩
  · rcases cs with _ | ⟨d,_ | ⟨e,cs⟩⟩
    · exact ⟨rfl,.inl ⟨c,rfl,rfl,rfl⟩⟩
    · exact ⟨rfl,.inr ⟨rfl,rfl,[],_,rfl,rfl⟩⟩
    · exact ⟨rfl,.inr ⟨rfl,rfl,_::cs,c,rfl,rfl⟩⟩

theorem Led.step (h : Led l b b') (t : Token ν L) :
    Led l (b.step limit t) (b'.step limit t) := by
  have hpop := h.pop
  obtain ⟨stack,root,depth⟩ := b
  obtain ⟨stack',root',depth'⟩ := b'
  cases t with
  | opened n =>
    obtain ⟨rfl,⟨c,rfl,rfl,rfl⟩ | ⟨rfl,rfl,cs,c,rfl,rfl⟩⟩ := h
    · simp only [Builder.step]
      split_ifs <;> exact ⟨rfl,.inl ⟨c,rfl,rfl,rfl⟩⟩
    · simp only [Builder.step]
      split_ifs
      · exact ⟨rfl,.inr ⟨rfl,rfl,_::cs,c,rfl,rfl⟩⟩
      · exact ⟨rfl,.inr ⟨rfl,rfl,cs,c,rfl,rfl⟩⟩
  | closed =>
    have hdepth := h.1
    subst hdepth
    simp only [Builder.step]
    split_ifs
    · exact ⟨rfl,hpop.2⟩
    · exact ⟨rfl,h.2⟩
  | property m =>
    obtain ⟨rfl,⟨c,rfl,rfl,rfl⟩ | ⟨rfl,rfl,cs,c,rfl,rfl⟩⟩ := h
    · cases stack' with
      | nil => exact ⟨rfl,.inl ⟨c,rfl,rfl,rfl⟩⟩
      | cons d ds =>
        simp only [Builder.step]
        split_ifs <;> exact ⟨rfl,.inl ⟨c,rfl,rfl,rfl⟩⟩
    · cases cs with
      | nil =>
        simp only [Builder.step]
        split_ifs
        · exact ⟨rfl,.inr ⟨rfl,rfl,[],_,rfl,rfl⟩⟩
        · exact ⟨rfl,.inr ⟨rfl,rfl,[],c,rfl,rfl⟩⟩
      | cons d ds =>
        simp only [Builder.step]
        split_ifs
        · exact ⟨rfl,.inr ⟨rfl,rfl,_::ds,c,rfl,rfl⟩⟩
        · exact ⟨rfl,.inr ⟨rfl,rfl,d::ds,c,rfl,rfl⟩⟩

theorem Led.length (h : Led l b b') : b'.stack.length=b.stack.length := by
  obtain ⟨-,⟨c,-,-,hs⟩ | ⟨-,-,cs,c,hs,hs'⟩⟩ := h
  · rw [hs]
  · simp [hs,hs']

theorem Led.finish (n : Nat) (h : Led l b b') : b'.finish n=(b.finish n).map (Comp.lead l) := by
  induction n generalizing b b' with
  | zero =>
    obtain ⟨-,⟨c,hr,hr',-⟩ | ⟨hr,hr',-⟩⟩ := h <;> simp [Builder.finish,hr,hr']
  | succ n ih => exact ih h.pop

theorem build_lead (hlimit : limit 1=true) (n : ν) (l : L) (ts : List (Token ν L)) :
    build limit (.opened n :: .property l::ts) =
      (build limit (.opened n::ts)).map (Comp.lead l) := by
  have hrun : ∀ (ts : List (Token ν L)) (b b' : Builder ν L),Led l b b' →
      Led l (ts.foldl (Builder.step limit) b) (ts.foldl (Builder.step limit) b') := by
    intro ts
    induction ts with
    | nil => exact fun b b' h => h
    | cons t ts ih => exact fun b b' h => ih _ _ (h.step t)
  have hopened : Led l (Builder.step limit start (.opened n))
      (Builder.step limit (Builder.step limit start (.opened n)) (.property l)) := by
    simp only [Builder.step,start,hlimit,if_true]
    exact ⟨rfl,.inr ⟨rfl,rfl,[],_,rfl,rfl⟩⟩
  have hled := hrun ts _ _ hopened
  simp only [build,List.foldl_cons]
  rw [hled.length]
  exact hled.finish _

end Lead

end Builder
end HermEX.Framework
