import Mathlib.Data.List.Basic
import Mathlib.Data.List.Nodup
import Mathlib.Data.List.Perm.Subperm
import Mathlib.Logic.Relation

namespace HermEX.Framework

abbrev Links (κ : Type) := List (κ×Option κ)

namespace Links

variable {κ : Type}

/-- Climbing from the node ends at a root. -/
inductive Rooted (ls : Links κ) : κ → Prop
  | root {x : κ} (mem : (x,none)∈ls) : Rooted ls x
  | child {x p : κ} (mem : (x,some p)∈ls) (parent : Rooted ls p) : Rooted ls x

def Forest (ls : Links κ) : Prop := ∀ x p,(x,p)∈ls → Rooted ls x

def Below (ls : Links κ) : κ → κ → Prop := Relation.ReflTransGen fun p x => (x,some p)∈ls

variable {ls ls' : Links κ} {x : κ} {d : Nat} {level : List κ}

theorem Rooted.below_root {r : κ} (hr : ∀ x,(x,none)∈ls → x=r) (h : Rooted ls x) :
    Below ls r x := by
  induction h with
  | root mem => exact hr _ mem ▸ .refl
  | child mem _ ih => exact ih.tail mem

inductive Depth (ls : Links κ) : κ → Nat → Prop
  | root {x : κ} (mem : (x,none)∈ls) : Depth ls x 0
  | child {x p : κ} {d : Nat} (mem : (x,some p)∈ls) (parent : Depth ls p d) : Depth ls x (d+1)

theorem Rooted.depth (h : Rooted ls x) : ∃ d,Depth ls x d := by
  induction h with
  | root mem => exact ⟨0,.root mem⟩
  | child mem _ ih =>
    obtain ⟨d,hd⟩ := ih
    exact ⟨d+1,.child mem hd⟩

def Functional (ls : Links κ) : Prop := (ls.map Prod.fst).Nodup

theorem Functional.parent_eq (h : Functional ls) {p q : Option κ} (hp : (x,p)∈ls) (hq : (x,q)∈ls) :
    p=q :=
  congrArg Prod.snd (List.inj_on_of_nodup_map h hp hq rfl)

theorem Depth.unique (hf : Functional ls) {e : Nat} (hd : Depth ls x d) (he : Depth ls x e) :
    d=e := by
  induction hd generalizing e with
  | root mem =>
    cases he with
    | root _ => rfl
    | child mem' _ => cases hf.parent_eq mem mem'
  | child mem _ ih =>
    cases he with
    | root mem' => cases hf.parent_eq mem mem'
    | child mem' hp =>
      obtain rfl := Option.some.inj (hf.parent_eq mem mem')
      rw [ih hp]

theorem Depth.mem (h : Depth ls x d) : x∈ls.map Prod.fst := by
  cases h with
  | root mem | child mem _ => exact List.mem_map_of_mem mem

theorem Depth.lt_length (hf : Functional ls) (h : Depth ls x d) : d<ls.length := by
  have hchain : ∃ l : List κ,l.length=d+1 ∧ l.Nodup ∧ ∀ y∈l,∃ e,e≤d ∧ Depth ls y e := by
    induction h with
    | @root x mem => exact ⟨[x],rfl,by simp,by simpa using .root mem⟩
    | @child x p d mem hp ih =>
      obtain ⟨l,hlen,hnd,hl⟩ := ih
      have hx := Depth.child mem hp
      have hnot : x∉l := by
        intro hxl
        obtain ⟨e,hle,he⟩ := hl x hxl
        have := hx.unique hf he
        omega
      refine ⟨x::l,by simp [hlen],List.nodup_cons.mpr ⟨hnot,hnd⟩,?_⟩
      intro y hy
      rcases List.mem_cons.mp hy with rfl | hy
      · exact ⟨d+1,Nat.le_refl _,hx⟩
      · obtain ⟨e,hle,he⟩ := hl y hy
        exact ⟨e,by omega,he⟩
  obtain ⟨l,hlen,hnd,hl⟩ := hchain
  have hsub : l⊆ls.map Prod.fst := by
    intro y hy
    obtain ⟨e,-,he⟩ := hl y hy
    exact he.mem
  have hle := (List.Nodup.subperm hnd hsub).length_le
  rw [List.length_map] at hle
  omega

variable [DecidableEq κ]

def children (ls : Links κ) (p : κ) : List κ := (ls.filter fun x => x.2=some p).map Prod.fst

theorem mem_children {p : κ} : x∈children ls p ↔ (x,some p)∈ls := by simp [children]

def descend (ls : Links κ) : Nat → List κ → Option (List κ)
  | _,[] => some []
  | 0,_::_ => none
  | n+1,x::xs => (descend ls n ((x::xs).flatMap (children ls))).map ((x::xs)++·)

theorem descend_isSome (hf : Functional ls) {n k : Nat} (hn : ls.length≤n+k)
    (h : ∀ x∈level,∃ d,k≤d ∧ Depth ls x d) : (descend ls n level).isSome := by
  induction n generalizing k level with
  | zero =>
    cases level with
    | nil => rfl
    | cons x xs =>
      obtain ⟨d,hk,hd⟩ := h x List.mem_cons_self
      have := hd.lt_length hf
      omega
  | succ n ih =>
    cases level with
    | nil => rfl
    | cons x xs =>
      have hnext : ∀ y∈(x::xs).flatMap (children ls),∃ d,k+1≤d ∧ Depth ls y d := by
        intro y hy
        obtain ⟨p,hp,hy⟩ := List.mem_flatMap.mp hy
        obtain ⟨d,hk,hd⟩ := h p hp
        exact ⟨d+1,by omega,.child (mem_children.mp hy) hd⟩
      have hsome := ih (by omega) hnext
      simp only [descend,Option.isSome_map]
      exact hsome

theorem Forest.descend_isSome (h : Forest ls) (hf : Functional ls)
    (hl : ∀ x∈level,x∈ls.map Prod.fst) : (descend ls ls.length level).isSome := by
  apply Links.descend_isSome hf (Nat.le_add_right _ _)
  intro x hx
  obtain ⟨⟨y,p⟩,hmem,rfl⟩ := List.mem_map.mp (hl x hx)
  obtain ⟨d,hd⟩ := (h y p hmem).depth
  exact ⟨d,Nat.zero_le d,hd⟩

theorem descend_endless {S : κ → Prop} (hS : ∀ x,S x → ∃ c,S c ∧ (c,some x)∈ls) (n : Nat)
    (hx : x∈level) (h : S x) : descend ls n level=none := by
  induction n generalizing level x with
  | zero =>
    cases level with
    | nil => cases hx
    | cons y ys => rfl
  | succ n ih =>
    cases level with
    | nil => cases hx
    | cons y ys =>
      obtain ⟨c,hc,hmem⟩ := hS x h
      have hnext : c∈(y::ys).flatMap (children ls) :=
        List.mem_flatMap.mpr ⟨x,hx,mem_children.mpr hmem⟩
      rw [descend,ih hnext hc,Option.map_none]

theorem mem_descend {n : Nat} {res : List κ} (h : descend ls n level=some res) (y : κ) :
    y∈res ↔ ∃ x∈level,Below ls x y := by
  induction n generalizing level res with
  | zero =>
    cases level with
    | nil =>
      cases h
      simp
    | cons x xs => cases h
  | succ n ih =>
    cases level with
    | nil =>
      cases h
      simp
    | cons x xs =>
      obtain ⟨rest,hrest,rfl⟩ := Option.map_eq_some_iff.mp h
      rw [List.mem_append,ih hrest]
      constructor
      · intro hy
        rcases hy with hy | ⟨c,hc,hb⟩
        · exact ⟨y,hy,.refl⟩
        · obtain ⟨p,hp,hc⟩ := List.mem_flatMap.mp hc
          exact ⟨p,hp,.head (mem_children.mp hc) hb⟩
      · intro ⟨p,hp,hb⟩
        rcases Relation.ReflTransGen.cases_head hb with rfl | ⟨c,hc,hb⟩
        · exact .inl hp
        · exact .inr ⟨c,List.mem_flatMap.mpr ⟨p,hp,mem_children.mpr hc⟩,hb⟩

def visits (next : κ → List κ) : Nat → κ → List κ
  | 0,_ => []
  | n+1,x => x::(next x).flatMap (visits next n)

section Visits

variable {next : κ → List κ} (hf : Functional ls) (hnext : ∀ p,(next p).Perm (children ls p))

include hf hnext

theorem count_next {q : κ} (hq : (x,some q)∈ls) (level : List κ) :
    (level.flatMap next).count x=level.count q := by
  induction level with
  | nil => rfl
  | cons p ps ih =>
    rw [List.flatMap_cons,List.count_append,ih,List.count_cons,(hnext p).count_eq,Nat.add_comm]
    have hnodup : (children ls p).Nodup := hf.sublist (List.filter_sublist.map Prod.fst)
    by_cases hp : p=q
    · subst hp
      rw [List.count_eq_one_of_mem hnodup (mem_children.mpr hq),if_pos (beq_self_eq_true p)]
    · have hnone : x∉children ls p := by
        intro hx
        exact hp (Option.some.inj (hf.parent_eq (mem_children.mp hx) hq))
      rw [List.count_eq_zero_of_not_mem hnone,if_neg (by simpa using hp)]

open Classical in
theorem count_level (h : ∀ x,level.count x=if Depth ls x d then 1 else 0) (x : κ) :
    (level.flatMap next).count x=if Depth ls x (d+1) then 1 else 0 := by
  by_cases hq : ∃ q,(x,some q)∈ls
  · obtain ⟨q,hq⟩ := hq
    have hdepth : Depth ls x (d+1) ↔ Depth ls q d := by
      constructor
      · intro hx
        cases hx with
        | child mem parent =>
          obtain rfl := Option.some.inj (hf.parent_eq mem hq)
          exact parent
      · exact .child hq
    rw [count_next hf hnext hq,h]
    simp [hdepth]
  · have hdepth : ¬Depth ls x (d+1) := by
      intro hx
      cases hx with
      | child mem _ => exact hq ⟨_,mem⟩
    rw [if_neg hdepth]
    apply List.count_eq_zero_of_not_mem
    intro hx
    obtain ⟨p,-,hp⟩ := List.mem_flatMap.mp hx
    exact hq ⟨p,mem_children.mp ((hnext p).mem_iff.mp hp)⟩

open Classical in
theorem count_visits (n : Nat) (h : ∀ x,level.count x=if Depth ls x d then 1 else 0) (x : κ) :
    (level.flatMap (visits next n)).count x=
      if ∃ e,d≤e ∧ e<d+n ∧ Depth ls x e then 1 else 0 := by
  induction n generalizing d level with
  | zero =>
    have hnone : ¬∃ e,d≤e ∧ e<d+0 ∧ Depth ls x e := by
      rintro ⟨e,h1,h2,-⟩
      omega
    rw [if_neg hnone]
    apply List.count_eq_zero_of_not_mem
    simp [visits]
  | succ n ih =>
    have hsplit : ∀ level : List κ,(level.flatMap (visits next (n+1))).count x=
        level.count x+((level.flatMap next).flatMap (visits next n)).count x := by
      intro level
      induction level with
      | nil => rfl
      | cons p ps ihp =>
        rw [List.flatMap_cons,List.count_append,ihp,List.flatMap_cons,List.flatMap_append,
          List.count_append,List.count_cons,visits,List.count_cons]
        omega
    rw [hsplit,h,ih (count_level hf hnext h)]
    by_cases hd : Depth ls x d
    · have hlater : ¬∃ e,d+1≤e ∧ e<d+1+n ∧ Depth ls x e := by
        rintro ⟨e,he,-,hx⟩
        have hde := hd.unique hf hx
        omega
      rw [if_pos hd,if_neg hlater,if_pos ⟨d,by omega,by omega,hd⟩]
    · rw [if_neg hd,Nat.zero_add]
      apply if_congr _ rfl rfl
      constructor
      · rintro ⟨e,h1,h2,hx⟩
        exact ⟨e,by omega,by omega,hx⟩
      · rintro ⟨e,h1,h2,hx⟩
        have hne : e≠d := by
          rintro rfl
          exact hd hx
        exact ⟨e,by omega,by omega,hx⟩

open Classical in
theorem count_visits_roots {roots : List κ}
    (hroots : roots.Perm ((ls.filter fun x => x.2=none).map Prod.fst)) (x : κ) :
    (roots.flatMap (visits next ls.length)).count x=if Rooted ls x then 1 else 0 := by
  have hlevel : ∀ x,roots.count x=if Depth ls x 0 then 1 else 0 := by
    intro x
    have hmem : x∈roots ↔ Depth ls x 0 := by
      rw [hroots.mem_iff]
      constructor
      · intro hx
        obtain ⟨⟨y,p⟩,hy,rfl⟩ := List.mem_map.mp hx
        obtain ⟨hy,hp⟩ := List.mem_filter.mp hy
        obtain rfl : p=none := of_decide_eq_true hp
        exact .root hy
      · intro hx
        cases hx with
        | root mem => exact List.mem_map.mpr ⟨_,List.mem_filter.mpr ⟨mem,rfl⟩,rfl⟩
    have hnodup : roots.Nodup := hroots.nodup_iff.mpr (hf.sublist (List.filter_sublist.map Prod.fst))
    split_ifs with hx
    · exact List.count_eq_one_of_mem hnodup (hmem.mpr hx)
    · exact List.count_eq_zero_of_not_mem fun hm => hx (hmem.mp hm)
  rw [count_visits hf hnext ls.length hlevel]
  apply if_congr _ rfl rfl
  constructor
  · rintro ⟨e,-,-,hx⟩
    induction hx with
    | root mem => exact .root mem
    | child mem _ ih => exact .child mem ih
  · intro hx
    obtain ⟨e,he⟩ := hx.depth
    exact ⟨e,e.zero_le,by simpa using he.lt_length hf,he⟩

end Visits
omit [DecidableEq κ] in
theorem Below.mono (h : ∀ x∈ls,x∈ls') {a b : κ} (hb : Below ls a b) : Below ls' a b :=
  Relation.ReflTransGen.mono (fun _ _ hx => h _ hx) a b hb

omit [DecidableEq κ] in
theorem Rooted.mono (h : ∀ x∈ls,x∈ls') (hx : Rooted ls x) : Rooted ls' x := by
  induction hx with
  | root mem => exact .root (h _ mem)
  | child mem _ ih => exact .child (h _ mem) ih

omit [DecidableEq κ] in
theorem Forest.insert (h : Forest ls) {p : Option κ} (hp : ∀ q,p=some q → q∈ls.map Prod.fst)
    (hmem : ∀ y,y∈ls' ↔ y∈ls ∨ y=(x,p)) : Forest ls' := by
  have hmono : ∀ {y},Rooted ls y → Rooted ls' y := Rooted.mono fun y hy => (hmem y).mpr (.inl hy)
  intro y q hy
  rcases (hmem _).mp hy with hy | heq
  · exact hmono (h y q hy)
  · obtain ⟨rfl,rfl⟩ := Prod.mk.inj heq
    cases q with
    | none => exact .root hy
    | some q =>
      obtain ⟨⟨z,r⟩,hz,rfl⟩ := List.mem_map.mp (hp q rfl)
      exact .child hy (hmono (h z r hz))

omit [DecidableEq κ] in
theorem Forest.remove (h : Forest ls) {D : κ → Prop} (hD : ∀ x p,(x,some p)∈ls → D p → D x)
    (hmem : ∀ y,y∈ls' ↔ y∈ls ∧ ¬D y.1) : Forest ls' := by
  have hall : ∀ y,Rooted ls y → ¬D y → Rooted ls' y := by
    intro y hy
    induction hy with
    | root mem =>
      intro hn
      exact .root ((hmem _).mpr ⟨mem,hn⟩)
    | child mem _ ih =>
      intro hn
      exact .child ((hmem _).mpr ⟨mem,hn⟩) (ih fun hd => hn (hD _ _ mem hd))
  intro x p hx
  obtain ⟨hx,hn⟩ := (hmem _).mp hx
  exact hall x (h x p hx) hn

omit [DecidableEq κ] in
theorem Forest.reparent (h : Forest ls) {p : κ} (hp : p∈ls.map Prod.fst) (hno : ¬Below ls x p)
    (hmem : ∀ y,y∈ls' ↔ (y∈ls ∧ y.1≠x) ∨ (y=(x,some p) ∧ x∈ls.map Prod.fst)) : Forest ls' := by
  -- climbing from a node that is not below `x` never meets the changed link
  have hkeep : ∀ y,Rooted ls y → ¬Below ls x y → Rooted ls' y := by
    intro y hy
    induction hy with
    | @root y mem =>
      intro hb
      exact .root ((hmem _).mpr (.inl ⟨mem,fun he => hb (he ▸ .refl)⟩))
    | @child y q mem _ ih =>
      intro hb
      exact .child ((hmem _).mpr (.inl ⟨mem,fun he => hb (he ▸ .refl)⟩))
        (ih fun hq => hb (hq.tail mem))
  obtain ⟨⟨z,r⟩,hz,rfl⟩ := List.mem_map.mp hp
  have hroot := hkeep z (h z r hz) hno
  have hall : ∀ y,Rooted ls y → Rooted ls' y := by
    intro y hy
    induction hy with
    | @root y mem =>
      by_cases he : y=x
      · subst he
        exact .child ((hmem _).mpr (.inr ⟨rfl,List.mem_map_of_mem mem⟩)) hroot
      · exact .root ((hmem _).mpr (.inl ⟨mem,he⟩))
    | @child y q mem _ ih =>
      by_cases he : y=x
      · subst he
        exact .child ((hmem _).mpr (.inr ⟨rfl,List.mem_map_of_mem mem⟩)) hroot
      · exact .child ((hmem _).mpr (.inl ⟨mem,he⟩)) ih
  intro y q hy
  rcases (hmem _).mp hy with ⟨hy,-⟩ | ⟨heq,hx⟩
  · exact hall y (h y q hy)
  · obtain ⟨rfl,-⟩ := Prod.mk.inj heq
    obtain ⟨⟨w,s⟩,hw,rfl⟩ := List.mem_map.mp hx
    exact hall w (h w s hw)

end Links
end HermEX.Framework
