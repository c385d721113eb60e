import HermEX.Framework.Text

namespace HermEX.Framework

section Separators

variable (sep : UInt8)

variable {a : Bytes} (s : Bytes)

theorem split_append (h : sep∉a) (b : Bytes) : split sep (a++sep::b)=a::split sep b := by
  induction a with
  | nil => simp [split]
  | cons x a ih =>
    have hx : x≠sep := fun he => h (by simp [he])
    have ha : sep∉a := fun hm => h (by simp [hm])
    simp [split,hx,ih ha]

theorem split_eq_self (h : sep∉a) : split sep a=[a] := by
  induction a with
  | nil => rfl
  | cons x a ih =>
    have hx : x≠sep := fun he => h (by simp [he])
    have ha : sep∉a := fun hm => h (by simp [hm])
    simp [split,hx,ih ha]

theorem split_ne_nil : split sep s≠[] := by
  cases s with
  | nil => simp [split]
  | cons b s =>
    simp only [split]
    split_ifs
    · simp
    · split <;> simp

theorem not_mem_of_mem_split {s p : Bytes} (h : p∈split sep s) : sep∉p := by
  induction s generalizing p with
  | nil => simp_all [split]
  | cons b s ih =>
    simp only [split] at h
    split_ifs at h with hb
    · rcases List.mem_cons.mp h with rfl | h
      · simp
      · exact ih h
    · cases hs : split sep s with
      | nil => exact absurd hs (split_ne_nil sep s)
      | cons q qs =>
        rw [hs] at h ih
        rcases List.mem_cons.mp h with rfl | h
        · have hq : sep∉q := ih (List.mem_cons_self)
          simp [hq,Ne.symm hb]
        · exact ih (List.mem_cons_of_mem _ h)

theorem mem_of_mem_split {s p : Bytes} {b : UInt8} (h : p∈split sep s) (hb : b∈p) :
    b∈s := by
  induction s generalizing p with
  | nil => simp_all [split]
  | cons x s ih =>
    simp only [split] at h
    split_ifs at h
    · rcases List.mem_cons.mp h with rfl | h
      · cases hb
      · exact List.mem_cons_of_mem _ (ih h hb)
    · cases hs : split sep s with
      | nil => exact absurd hs (split_ne_nil sep s)
      | cons q qs =>
        rw [hs] at h ih
        rcases List.mem_cons.mp h with rfl | h
        · rcases List.mem_cons.mp hb with rfl | hb
          · exact List.mem_cons_self
          · exact List.mem_cons_of_mem _ (ih List.mem_cons_self hb)
        · exact List.mem_cons_of_mem _ (ih (List.mem_cons_of_mem _ h) hb)

theorem split_headD_append : ∃ t,s=(split sep s).headD []++t := by
  induction s with
  | nil => exact ⟨[],rfl⟩
  | cons b s ih =>
    simp only [split]
    split_ifs
    · exact ⟨b::s,rfl⟩
    · cases hs : split sep s with
      | nil => exact absurd hs (split_ne_nil sep s)
      | cons q qs =>
        rw [hs] at ih
        obtain ⟨t,ht⟩ := ih
        exact ⟨t,by simpa using ht⟩

theorem headD_split_append (h : sep∉a) (s : Bytes) :
    (split sep (a++s)).headD []=a++(split sep s).headD [] := by
  induction a with
  | nil => rfl
  | cons x a ih =>
    have hx : x≠sep := fun he => h (by simp [he])
    have ha := ih fun hm => h (by simp [hm])
    cases hs : split sep (a++s) with
    | nil => exact absurd hs (split_ne_nil sep _)
    | cons q qs =>
      rw [hs,List.headD_cons] at ha
      simp [split,hx,hs,ha]

theorem split_flatMap (ha : sep∉a) (parts : List Bytes) (h : ∀ p∈parts,sep∉p) :
    split sep (a++parts.flatMap fun p => sep::p)=a::parts := by
  induction parts generalizing a with
  | nil => simpa using split_eq_self sep ha
  | cons p parts ih =>
    have hp : sep∉p := h p (by simp)
    have hps : ∀ q∈parts,sep∉q := fun q hq => h q (by simp [hq])
    rw [List.flatMap_cons,List.cons_append,split_append sep ha,ih hp hps]

theorem cut_append (h : sep∉a) (b : Bytes) : cut sep (a++sep::b)=some (a,b) := by
  induction a with
  | nil => simp [cut]
  | cons x a ih =>
    have hx : x≠sep := fun he => h (by simp [he])
    have ha : sep∉a := fun hm => h (by simp [hm])
    simp [cut,hx,ih ha]

theorem cut_eq_some {s b : Bytes} (h : cut sep s=some (a,b)) : s=a++sep::b ∧ sep∉a := by
  induction s generalizing a with
  | nil => simp [cut] at h
  | cons x s ih =>
    simp only [cut] at h
    split_ifs at h with hx
    · obtain ⟨rfl,rfl⟩ := h
      simp [hx]
    · obtain ⟨⟨a',b'⟩,hcut,heq⟩ := Option.map_eq_some_iff.mp h
      obtain ⟨rfl,rfl⟩ := heq
      obtain ⟨hs,hmem⟩ := ih hcut
      simp [hs,hmem,Ne.symm hx]

end Separators

def joined (sep : UInt8) : List Bytes → Bytes
  | [] => []
  | [x] => x
  | x::y::xs => x++sep::joined sep (y::xs)

theorem split_joined {sep : UInt8} {xs : List Bytes} (hne : xs≠[]) (h : ∀ x∈xs,sep∉x) :
    split sep (joined sep xs)=xs := by
  induction xs with
  | nil => exact absurd rfl hne
  | cons x xs ih =>
    have hx := h x (by simp)
    cases xs with
    | nil => exact split_eq_self _ hx
    | cons y ys => rw [joined,split_append _ hx,ih (by simp) fun z hz => h z (by simp [hz])]

def replaceCRLF : Bytes → Bytes
  | [] => []
  | [b] => [b]
  | b::c::bs => if b=0x0D ∧ c=0x0A then 0x0A::replaceCRLF bs else b::replaceCRLF (c::bs)

def physicalLines (raw : Bytes) : List Bytes := split 0x0A (replaceCRLF raw)

def joinCRLF : List Bytes → Bytes
  | [] => []
  | [l] => l
  | l::m::ls => l++0x0D::0x0A::joinCRLF (m::ls)

def terminated (ls : List Bytes) : Bytes := ls.flatMap fun l => l++[0x0D,0x0A]

variable {l : Bytes} {b : UInt8} {ls : List Bytes}

theorem replaceCRLF_eq_self (h : (0x0A : UInt8)∉l) : replaceCRLF l=l := by
  induction l with
  | nil => rfl
  | cons b l ih =>
    cases l with
    | nil => rfl
    | cons c l =>
      have hc : c≠0x0A := fun he => h (by simp [he])
      have hl : (0x0A : UInt8)∉c::l := fun hm => h (List.mem_cons_of_mem _ hm)
      simp [replaceCRLF,hc,ih hl]

theorem replaceCRLF_append (h : (0x0A : UInt8)∉l) (rest : Bytes) :
    replaceCRLF (l++0x0D::0x0A::rest)=l++0x0A::replaceCRLF rest := by
  induction l with
  | nil => simp [replaceCRLF]
  | cons b l ih =>
    have hl : (0x0A : UInt8)∉l := fun hm => h (List.mem_cons_of_mem _ hm)
    cases l with
    | nil => simp [replaceCRLF]
    | cons c l =>
      have hc : c≠0x0A := fun he => h (by simp [he])
      have ih' := ih hl
      simp only [List.cons_append] at ih' ⊢
      simp [replaceCRLF,hc,ih']

theorem physicalLines_joinCRLF (hne : ls≠[]) (h : ∀ l∈ls,(0x0A : UInt8)∉l) :
    physicalLines (joinCRLF ls)=ls := by
  induction ls with
  | nil => exact absurd rfl hne
  | cons l ls ih =>
    have hl : (0x0A : UInt8)∉l := h l (by simp)
    cases ls with
    | nil =>
      rw [joinCRLF,physicalLines,replaceCRLF_eq_self hl]
      exact split_eq_self _ hl
    | cons m ls =>
      have hrest := ih (by simp) fun x hx => h x (List.mem_cons_of_mem _ hx)
      rw [joinCRLF,physicalLines,replaceCRLF_append hl,split_append _ hl]
      exact congrArg (l :: ·) hrest

theorem terminated_eq (ls : List Bytes) : terminated ls=joinCRLF (ls++[[]]) := by
  induction ls with
  | nil => rfl
  | cons l ls ih =>
    cases ls with
    | nil => simp [terminated,joinCRLF]
    | cons m ls =>
      have hcons : terminated (l::m::ls)=l++0x0D::0x0A::terminated (m::ls) := by simp [terminated]
      rw [hcons,ih]
      rfl

theorem physicalLines_terminated (h : ∀ l∈ls,(0x0A : UInt8)∉l) :
    physicalLines (terminated ls)=ls++[[]] := by
  rw [terminated_eq]
  apply physicalLines_joinCRLF (by simp)
  intro l hl
  rcases List.mem_append.mp hl with hl | hl
  · exact h l hl
  · simp_all

theorem not_mem_physicalLine {raw : Bytes} (h : l∈physicalLines raw) : (0x0A : UInt8)∉l :=
  not_mem_of_mem_split _ h

def continues (p : Bytes) : Bool := p.head?=some 0x20 || p.head?=some 0x09

def unfoldFrom (line : Bytes) : List Bytes → List Bytes
  | [] => [line]
  | p::ps => if continues p then unfoldFrom (line++p.tail) ps else line::unfoldFrom p ps

def unfoldLines : List Bytes → List Bytes
  | [] => []
  | p::ps => unfoldFrom p ps

attribute [local simp] unfoldFrom

theorem unfoldFrom_continued (line : Bytes) (chunks ps : List Bytes) :
    unfoldFrom line (chunks.map (0x20 :: ·)++ps)=unfoldFrom (line++chunks.flatten) ps := by
  induction chunks generalizing line with
  | nil => simp
  | cons c cs ih => simp [continues,ih]

theorem unfoldFrom_eq (ps : List Bytes) :
    ∃ x xs,∀ line,unfoldFrom line ps=(line++x)::xs := by
  induction ps with
  | nil => exact ⟨[],[],fun line => by simp⟩
  | cons p ps ih =>
    obtain ⟨x,xs,h⟩ := ih
    cases hp : continues p with
    | true => exact ⟨p.tail++x,xs,fun line => by simp [hp,h]⟩
    | false => exact ⟨[],unfoldFrom p ps,fun line => by simp [hp]⟩

theorem unfoldFrom_append {p : Bytes} (h : continues p=false) (line : Bytes) (xs ps : List Bytes) :
    unfoldFrom line (xs++p::ps)=unfoldFrom line xs++unfoldFrom p ps := by
  induction xs generalizing line with
  | nil => simp [h]
  | cons x xs ih =>
    simp only [List.cons_append,unfoldFrom]
    split_ifs <;> simp [ih]

theorem unfoldLines_append {p : Bytes} (h : continues p=false) (xs ps : List Bytes) :
    unfoldLines (xs++p::ps)=unfoldLines xs++unfoldLines (p::ps) := by
  cases xs with
  | nil => rfl
  | cons x xs => exact unfoldFrom_append h x xs ps

theorem not_mem_unfoldFrom {line : Bytes} {ps : List Bytes} (hline : b∉line)
    (hps : ∀ p∈ps,b∉p) (h : l∈unfoldFrom line ps) : b∉l := by
  induction ps generalizing line with
  | nil =>
    rw [unfoldFrom,List.mem_singleton] at h
    exact h ▸ hline
  | cons p ps ih =>
    have hp : b∉p := hps p (by simp)
    have hrest : ∀ q∈ps,b∉q := fun q hq => hps q (by simp [hq])
    simp only [unfoldFrom] at h
    split_ifs at h
    · apply ih _ hrest h
      intro hb
      rcases List.mem_append.mp hb with hb | hb
      · exact hline hb
      · exact hp (List.mem_of_mem_tail hb)
    · rcases List.mem_cons.mp h with rfl | h
      · exact hline
      · exact ih hp hrest h

theorem not_mem_unfoldLines {raw : Bytes} (h : l∈unfoldLines (physicalLines raw)) :
    (0x0A : UInt8)∉l := by
  cases hp : physicalLines raw with
  | nil => simp [hp,unfoldLines] at h
  | cons p ps =>
    rw [hp,unfoldLines] at h
    have hmem : ∀ q∈p::ps,(0x0A : UInt8)∉q := by
      intro q hq
      rw [← hp] at hq
      exact not_mem_physicalLine hq
    exact not_mem_unfoldFrom (hmem p (by simp)) (fun q hq => hmem q (by simp [hq])) h

section Fold

variable (limit : Nat)

def chunksFrom : Nat → Bytes → List Bytes
  | 0,s => [s]
  | k+1,s => if limit < s.length then s.take limit::chunksFrom k (s.drop limit) else [s]

def foldLine (s : Bytes) : List Bytes :=
  match chunksFrom limit s.length s with
  | [] => []
  | c::cs => c::cs.map (0x20 :: ·)

theorem chunksFrom_flatten (k : Nat) (s : Bytes) : (chunksFrom limit k s).flatten=s := by
  induction k generalizing s with
  | zero => simp [chunksFrom]
  | succ k ih =>
    simp only [chunksFrom]
    split_ifs
    · simp [ih]
    · simp

theorem chunksFrom_eq_cons (k : Nat) (s : Bytes) :
    ∃ c cs,chunksFrom limit k s=c::cs ∧ (0<limit → c.head?=s.head?) := by
  cases k with
  | zero => exact ⟨s,[],rfl,fun _ => rfl⟩
  | succ k =>
    simp only [chunksFrom]
    split_ifs
    · refine ⟨_,_,rfl,fun hl => ?_⟩
      cases s with
      | nil => simp
      | cons b s =>
        obtain ⟨n,rfl⟩ : ∃ n,limit=n+1 := ⟨limit-1,by omega⟩
        simp
    · exact ⟨s,[],rfl,fun _ => rfl⟩

theorem unfoldFrom_foldLine (line s : Bytes) (hs : continues s=false) (hl : 0<limit)
    (ps : List Bytes) :
    unfoldFrom line (foldLine limit s++ps)=line::unfoldFrom s ps := by
  obtain ⟨c,cs,hc,hhead⟩ := chunksFrom_eq_cons limit s.length s
  have hflat := chunksFrom_flatten limit s.length s
  have hfirst : continues c=false := by simpa [continues,hhead hl] using hs
  rw [hc,List.flatten_cons] at hflat
  simp only [foldLine,hc,List.cons_append,unfoldFrom,hfirst,Bool.false_eq_true,if_false]
  rw [unfoldFrom_continued,hflat]

theorem unfoldFrom_folded (line : Bytes) (ls ps : List Bytes)
    (h : ∀ l∈ls,continues l=false) (hl : 0<limit) (hps : ∃ q qs,ps=q::qs ∧ continues q=false) :
    unfoldFrom line (ls.flatMap (foldLine limit)++ps)=line::ls++unfoldLines ps := by
  induction ls generalizing line with
  | nil =>
    obtain ⟨q,qs,rfl,hq⟩ := hps
    simp [unfoldLines,hq]
  | cons l ls ih =>
    have hhead : continues l=false := h l (by simp)
    have hrest : ∀ x∈ls,continues x=false := fun x hx => h x (by simp [hx])
    rw [List.flatMap_cons,List.append_assoc,unfoldFrom_foldLine limit _ _ hhead hl,ih _ hrest]
    rfl

theorem not_mem_foldLine {b : UInt8} {s p : Bytes} (hs : b∉s) (hb : b≠0x20)
    (hp : p∈foldLine limit s) : b∉p := by
  obtain ⟨c,cs,hc,-⟩ := chunksFrom_eq_cons limit s.length s
  have hflat := chunksFrom_flatten limit s.length s
  rw [hc] at hflat
  have hchunk : ∀ x∈c::cs,b∉x := by
    intro x hx hbx
    apply hs
    rw [← hflat]
    exact List.mem_flatten.mpr ⟨x,hx,hbx⟩
  simp only [foldLine,hc] at hp
  rcases List.mem_cons.mp hp with rfl | hp
  · exact hchunk _ (by simp)
  · obtain ⟨x,hx,rfl⟩ := List.mem_map.mp hp
    have hbx := hchunk x (by simp [hx])
    simp [hb,hbx]

theorem unfoldLines_folded (h : ∀ l∈ls,continues l=false) (hlf : ∀ l∈ls,(0x0A : UInt8)∉l)
    (hl : 0<limit) :
    unfoldLines (physicalLines (terminated (ls.flatMap (foldLine limit))))=ls++[[]] := by
  have hphysical : ∀ p∈ls.flatMap (foldLine limit),(0x0A : UInt8)∉p := by
    intro p hp
    obtain ⟨l,hl,hp⟩ := List.mem_flatMap.mp hp
    exact not_mem_foldLine limit (hlf l hl) (by decide) hp
  rw [physicalLines_terminated hphysical]
  cases ls with
  | nil => rfl
  | cons l ls =>
    have hhead : continues l=false := h l (by simp)
    have hfirst := unfoldFrom_foldLine limit [] l hhead hl (ls.flatMap (foldLine limit)++[[]])
    have hrest : ∀ x∈ls,continues x=false := fun x hx => h x (by simp [hx])
    rw [unfoldFrom_folded limit l ls _ hrest hl ⟨[],[],rfl,rfl⟩] at hfirst
    obtain ⟨c,cs,hc,hhead'⟩ := chunksFrom_eq_cons limit l.length l
    have hstart : continues c=false := by simpa [continues,hhead' hl] using hhead
    simp only [foldLine,hc,List.cons_append,unfoldFrom,hstart] at hfirst
    simp only [List.flatMap_cons,foldLine,hc]
    simpa [unfoldLines] using hfirst

end Fold

section Quoted

variable (sep : UInt8)

def cutUnquoted : Bool → Bytes → Option (Bytes×Bytes)
  | _,[] => none
  | quoted,b::bs =>
    if b=0x22 then (cutUnquoted (!quoted) bs).map fun p => (b::p.1,p.2)
    else if b=sep ∧ quoted=false then some ([],bs)
    else (cutUnquoted quoted bs).map fun p => (b::p.1,p.2)

def quotedAfter : Bool → Bytes → Option Bool
  | quoted,[] => some quoted
  | quoted,b::bs =>
    if b=0x22 then quotedAfter (!quoted) bs
    else if b=sep ∧ quoted=false then none
    else quotedAfter quoted bs

variable (quoted : Bool) {s : Bytes}

theorem quotedAfter_append (s t : Bytes) :
    quotedAfter sep quoted (s++t)=(quotedAfter sep quoted s).bind fun q => quotedAfter sep q t := by
  induction s generalizing quoted with
  | nil => rfl
  | cons b s ih =>
    simp only [List.cons_append,quotedAfter]
    split_ifs
    · exact ih _
    · rfl
    · exact ih _

theorem cutUnquoted_append (s t : Bytes) {q : Bool} (h : quotedAfter sep quoted s=some q) :
    cutUnquoted sep quoted (s++t)=(cutUnquoted sep q t).map fun p => (s++p.1,p.2) := by
  induction s generalizing quoted with
  | nil =>
    cases h
    simp
  | cons b s ih =>
    simp only [List.cons_append,cutUnquoted,quotedAfter] at h ⊢
    split_ifs at h ⊢ with hb hs
    all_goals
      rw [ih _ h]
      simp [Function.comp_def]

theorem cutUnquoted_eq_none {quoted : Bool} :
    cutUnquoted sep quoted s=none ↔ ∃ q,quotedAfter sep quoted s=some q := by
  induction s generalizing quoted with
  | nil => simp [cutUnquoted,quotedAfter]
  | cons b s ih =>
    simp only [cutUnquoted,quotedAfter]
    split_ifs
    · simp [ih]
    · simp
    · simp [ih]

theorem cutUnquoted_eq_some {quoted : Bool} {a b : Bytes}
    (h : cutUnquoted sep quoted s=some (a,b)) :
    s=a++sep::b ∧ quotedAfter sep quoted a=some false := by
  induction s generalizing quoted a with
  | nil => simp [cutUnquoted] at h
  | cons x s ih =>
    simp only [cutUnquoted] at h
    split_ifs at h with hx hs
    · obtain ⟨⟨a',b'⟩,hcut,heq⟩ := Option.map_eq_some_iff.mp h
      obtain ⟨rfl,rfl⟩ := heq
      obtain ⟨hs,hq⟩ := ih hcut
      simp [hs,quotedAfter,hx,hq]
    · obtain ⟨rfl,rfl⟩ := h
      simp [hs.1,hs.2,quotedAfter]
    · obtain ⟨⟨a',b'⟩,hcut,heq⟩ := Option.map_eq_some_iff.mp h
      obtain ⟨rfl,rfl⟩ := heq
      obtain ⟨hs',hq⟩ := ih hcut
      simp [hs',quotedAfter,hx,hs,hq]

theorem cutUnquoted_append_some {quoted : Bool} {a b : Bytes}
    (h : cutUnquoted sep quoted s=some (a,b)) (t : Bytes) :
    cutUnquoted sep quoted (s++t)=some (a,b++t) := by
  obtain ⟨rfl,hq⟩ := cutUnquoted_eq_some sep h
  rw [List.append_assoc,cutUnquoted_append sep quoted a _ hq]
  by_cases hs : sep=0x22
  · subst hs
    rw [cutUnquoted_append _ _ _ _ hq] at h
    obtain ⟨x,hx,heq⟩ := Option.map_eq_some_iff.mp h
    simp only [Prod.mk.injEq] at heq
    obtain ⟨y,-,rfl⟩ := Option.map_eq_some_iff.mp hx
    exact absurd heq.1 (by simp)
  · simp [cutUnquoted,hs]

theorem quotedAfter_filter (s : Bytes) :
    quotedAfter sep quoted (s.filter fun b => b=0x22 || b=sep) = quotedAfter sep quoted s := by
  induction s generalizing quoted with
  | nil => rfl
  | cons b s ih =>
    by_cases hq : b=0x22
    · simp [quotedAfter,hq,ih]
    · by_cases hs : b=sep
      · subst hs
        simp [quotedAfter,ih]
      · simp [quotedAfter,hq,hs,ih]

theorem quotedAfter_of_not_mem (hq : (0x22 : UInt8)∉s) (hs : sep∉s) :
    quotedAfter sep quoted s=some quoted := by
  rw [← quotedAfter_filter]
  have hnil : (s.filter fun b => b=0x22 || b=sep)=[] := by
    rw [List.filter_eq_nil_iff]
    intro b hb
    have hq' : b≠0x22 := fun he => hq (he ▸ hb)
    have hs' : b≠sep := fun he => hs (he ▸ hb)
    simp [hq',hs']
  rw [hnil]
  rfl

end Quoted

def trimQuotes (s : Bytes) : Bytes := (s.dropWhile (· = 0x22)).rdropWhile (· = 0x22)

theorem trimQuotes_spec (s : Bytes) :
    ∃ a b,s=a++(trimQuotes s++b) ∧ (∀ c∈a,c=0x22) ∧ ∀ c∈b,c=0x22 := by
  refine ⟨s.takeWhile (· = 0x22),(s.dropWhile (· = 0x22)).rtakeWhile (· = 0x22),?_,?_,?_⟩
  · rw [trimQuotes,List.rdropWhile_append_rtakeWhile,List.takeWhile_append_dropWhile]
  · intro c hc
    simpa using List.mem_takeWhile_imp hc
  · intro c hc
    simpa using List.mem_rtakeWhile_imp hc

theorem trimQuotes_eq_self {s : Bytes} (h : (0x22 : UInt8)∉s) : trimQuotes s=s := by
  have hdrop : s.dropWhile (· = 0x22)=s := by
    cases s with
    | nil => rfl
    | cons b s =>
      have hb : b≠0x22 := fun he => h (by simp [he])
      simp [hb]
  rw [trimQuotes,hdrop,List.rdropWhile_eq_self_iff]
  intro hne hlast
  rw [decide_eq_true_eq] at hlast
  exact h (hlast ▸ List.getLast_mem hne)

theorem mem_trimQuotes {s : Bytes} (hb : b∈trimQuotes s) : b∈s := by
  obtain ⟨a,t,hs,-,-⟩ := trimQuotes_spec s
  rw [hs]
  simp [hb]

theorem count_trimQuotes (hb : b≠0x22) (s : Bytes) : (trimQuotes s).count b=s.count b := by
  obtain ⟨a,t,hs,ha,ht⟩ := trimQuotes_spec s
  have hnot : ∀ u : Bytes,(∀ c∈u,c=0x22) → u.count b=0 := by
    intro u hu
    apply List.count_eq_zero_of_not_mem
    exact fun hmem => hb (hu b hmem)
  conv_rhs => rw [hs]
  rw [List.count_append,List.count_append,hnot a ha,hnot t ht]
  omega

end HermEX.Framework
