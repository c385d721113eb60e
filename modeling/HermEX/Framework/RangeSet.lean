import Mathlib.Data.List.Sort

namespace HermEX.Framework

structure RangeNode where
  lo : Nat
  hi : Nat
deriving DecidableEq

structure RangeSet where
  nodes : List RangeNode
deriving DecidableEq

namespace RangeSet

def empty : RangeSet := ⟨[]⟩

def isEmpty (rs : RangeSet) : Bool := rs.nodes.isEmpty

def contains (rs : RangeSet) (v : Nat) : Bool := rs.nodes.any fun nd => nd.lo≤v && v≤nd.hi

def coalesceFrom : RangeNode → List RangeNode → List RangeNode
  | last,[] => [last]
  | last,nd::rest =>
    if nd.lo≤last.hi+1 then coalesceFrom ⟨last.lo,max last.hi nd.hi⟩ rest
    else last::coalesceFrom nd rest

def coalesce : List RangeNode → List RangeNode
  | [] => []
  | nd::rest => coalesceFrom nd rest

def sortByLo (nodes : List RangeNode) : List RangeNode := nodes.insertionSort fun a b => a.lo≤b.lo

def insert (rs : RangeSet) (lo hi : Nat) : RangeSet := ⟨coalesce (sortByLo (rs.nodes++[⟨lo,hi⟩]))⟩

def appendRaw (rs : RangeSet) (lo hi : Nat) : RangeSet := ⟨rs.nodes++[⟨lo,hi⟩]⟩

def eraseNode (v : Nat) (nd : RangeNode) : List RangeNode :=
  if v<nd.lo ∨ nd.hi<v then [nd]
  else (if nd.lo<v then [⟨nd.lo,v-1⟩] else [])++if v<nd.hi then [⟨v+1,nd.hi⟩] else []

def erase (rs : RangeSet) (v : Nat) : RangeSet := ⟨rs.nodes.flatMap (eraseNode v)⟩

def covers (nodes : List RangeNode) (v : Nat) : Prop := ∃ nd∈nodes,nd.lo≤v ∧ v≤nd.hi

variable (last : RangeNode) {rs : RangeSet} {bound : Nat}

theorem covers_cons (nd : RangeNode) (rest : List RangeNode) (v : Nat) :
    covers (nd::rest) v ↔ (nd.lo≤v ∧ v≤nd.hi) ∨ covers rest v := by
  simp [covers]

theorem contains_iff (rs : RangeSet) (v : Nat) : rs.contains v=true ↔ covers rs.nodes v := by
  simp [contains,covers]

theorem covers_coalesceFrom (rest : List RangeNode) (h : (last::rest).Pairwise fun a b => a.lo≤b.lo)
    (v : Nat) : covers (coalesceFrom last rest) v ↔ covers (last::rest) v := by
  induction rest generalizing last with
  | nil => rfl
  | cons nd rest ih =>
    have hl : ∀ b∈nd::rest,last.lo≤b.lo := (List.pairwise_cons.mp h).1
    have hr := (List.pairwise_cons.mp h).2
    have hnd := hl nd (by simp)
    rw [coalesceFrom]
    split_ifs with hm
    · have hs : (⟨last.lo,max last.hi nd.hi⟩::rest : List RangeNode).Pairwise
          fun a b => a.lo≤b.lo := by
        rw [List.pairwise_cons]
        exact ⟨fun b hb => hl b (by simp [hb]),(List.pairwise_cons.mp hr).2⟩
      rw [ih _ hs,covers_cons,covers_cons,covers_cons]
      simp only
      constructor
      · rintro (⟨h1,h2⟩ | h1)
        · rcases Nat.lt_or_ge last.hi v with hv | hv
          · exact .inr (.inl (by omega))
          · exact .inl (by omega)
        · exact .inr (.inr h1)
      · rintro (⟨h1,h2⟩ | ⟨h1,h2⟩ | h1)
        · exact .inl (by omega)
        · exact .inl (by omega)
        · exact .inr h1
    · rw [covers_cons,ih nd hr,covers_cons last]

theorem sortByLo_pairwise (nodes : List RangeNode) :
    (sortByLo nodes).Pairwise fun a b => a.lo≤b.lo := by
  exact List.pairwise_insertionSort _ _

theorem covers_sortByLo (nodes : List RangeNode) (v : Nat) :
    covers (sortByLo nodes) v ↔ covers nodes v := by
  simp [covers,sortByLo]

theorem contains_insert (rs : RangeSet) (lo hi v : Nat) :
    (rs.insert lo hi).contains v=true ↔ rs.contains v=true ∨ (lo≤v ∧ v≤hi) := by
  have hs := sortByLo_pairwise (rs.nodes++[⟨lo,hi⟩])
  have hc : covers (rs.insert lo hi).nodes v ↔ covers (sortByLo (rs.nodes++[⟨lo,hi⟩])) v := by
    rw [insert]
    cases h : sortByLo (rs.nodes++[⟨lo,hi⟩]) with
    | nil => rfl
    | cons nd rest => exact covers_coalesceFrom nd rest (h ▸ hs) v
  rw [contains_iff,contains_iff,hc,covers_sortByLo]
  simp [covers]

/-- In order, none inverted, no two touching. -/
structure Canonical (nodes : List RangeNode) : Prop where
  valid : ∀ nd∈nodes,nd.lo≤nd.hi
  apart : nodes.Pairwise fun a b => a.hi+1<b.lo

theorem canonical_nil : Canonical [] := ⟨by simp,.nil⟩

theorem coalesceFrom_lo (rest : List RangeNode) (h : (last::rest).Pairwise fun a b => a.lo≤b.lo) :
    ∀ nd∈coalesceFrom last rest,last.lo≤nd.lo := by
  induction rest generalizing last with
  | nil => simp [coalesceFrom]
  | cons x rest ih =>
    obtain ⟨hl,hr⟩ := List.pairwise_cons.mp h
    rw [coalesceFrom]
    split_ifs with hm
    · apply ih
      rw [List.pairwise_cons]
      exact ⟨fun b hb => hl b (by simp [hb]),(List.pairwise_cons.mp hr).2⟩
    · intro nd hnd
      rcases List.mem_cons.mp hnd with rfl | hnd
      · exact Nat.le_refl _
      · exact (hl x (by simp)).trans (ih x hr nd hnd)

theorem canonical_coalesceFrom (rest : List RangeNode)
    (h : (last::rest).Pairwise fun a b => a.lo≤b.lo) (hv : ∀ nd∈last::rest,nd.lo≤nd.hi) :
    Canonical (coalesceFrom last rest) := by
  induction rest generalizing last with
  | nil => exact ⟨by simpa [coalesceFrom] using hv,by simp [coalesceFrom]⟩
  | cons x rest ih =>
    obtain ⟨hl,hr⟩ := List.pairwise_cons.mp h
    rw [coalesceFrom]
    split_ifs with hm
    · apply ih
      · rw [List.pairwise_cons]
        exact ⟨fun b hb => hl b (by simp [hb]),(List.pairwise_cons.mp hr).2⟩
      · intro nd hnd
        rcases List.mem_cons.mp hnd with rfl | hnd
        · exact (hv last (by simp)).trans (Nat.le_max_left _ _)
        · exact hv nd (by simp [hnd])
    · have hrest := ih x hr fun nd hnd => hv nd (List.mem_cons_of_mem last hnd)
      have hlo := coalesceFrom_lo x rest hr
      refine ⟨?_,List.pairwise_cons.mpr ⟨?_,hrest.apart⟩⟩
      · intro nd hnd
        rcases List.mem_cons.mp hnd with rfl | hnd
        · exact hv nd (by simp)
        · exact hrest.valid nd hnd
      · intro nd hnd
        have hx := hlo nd hnd
        omega

section Unique

variable {x y : RangeNode} {xs ys : List RangeNode} {v : Nat}

theorem Canonical.lo_le (h : Canonical (x::xs)) (hv : covers (x::xs) v) : x.lo≤v := by
  obtain ⟨nd,hnd,hlo,-⟩ := hv
  rcases List.mem_cons.mp hnd with rfl | hnd
  · exact hlo
  · have hx := h.valid x (by simp)
    have hapart := (List.pairwise_cons.mp h.apart).1 nd hnd
    omega

theorem Canonical.hi_le (hy : Canonical (y::ys)) (hlo : x.lo=y.lo)
    (h : ∀ v,covers (x::xs) v → covers (y::ys) v) : x.hi≤y.hi := by
  by_contra hlt
  have hyv := hy.valid y (by simp)
  obtain ⟨nd,hnd,hnl,hnh⟩ := h (y.hi+1) ⟨x,by simp,by omega,by omega⟩
  rcases List.mem_cons.mp hnd with rfl | hnd
  · omega
  · have hapart := (List.pairwise_cons.mp hy.apart).1 nd hnd
    omega

theorem Canonical.covers_tail (h : Canonical (x::xs)) :
    covers xs v ↔ covers (x::xs) v ∧ x.hi<v := by
  constructor
  · rintro ⟨nd,hnd,hlo,hhi⟩
    have hapart := (List.pairwise_cons.mp h.apart).1 nd hnd
    exact ⟨⟨nd,by simp [hnd],hlo,hhi⟩,by omega⟩
  · rintro ⟨⟨nd,hnd,hlo,hhi⟩,hlt⟩
    rcases List.mem_cons.mp hnd with rfl | hnd
    · omega
    · exact ⟨nd,hnd,hlo,hhi⟩

theorem Canonical.ext (hx : Canonical xs) (hy : Canonical ys)
    (h : ∀ v,covers xs v ↔ covers ys v) : xs=ys := by
  have hnil : ∀ {z zs},Canonical (z::zs) → ∃ v,covers (z::zs) v :=
    fun hz => ⟨_,_,List.mem_cons_self,Nat.le_refl _,hz.valid _ List.mem_cons_self⟩
  have hno : ∀ v,¬covers [] v := by simp [covers]
  induction xs generalizing ys with
  | nil =>
    cases ys with
    | nil => rfl
    | cons y ys =>
      obtain ⟨v,hv⟩ := hnil hy
      exact absurd ((h v).mpr hv) (hno v)
  | cons x xs ih =>
    cases ys with
    | nil =>
      obtain ⟨v,hv⟩ := hnil hx
      exact absurd ((h v).mp hv) (hno v)
    | cons y ys =>
      have hxv := hx.valid x (by simp)
      have hyv := hy.valid y (by simp)
      have hlo : x.lo=y.lo := Nat.le_antisymm
        (hx.lo_le ((h y.lo).mpr ⟨y,by simp,Nat.le_refl _,hyv⟩))
        (hy.lo_le ((h x.lo).mp ⟨x,by simp,Nat.le_refl _,hxv⟩))
      have hhi : x.hi=y.hi := Nat.le_antisymm (hy.hi_le hlo fun v => (h v).mp)
        (hx.hi_le hlo.symm fun v => (h v).mpr)
      have htail : xs=ys := by
        apply ih ⟨fun nd hnd => hx.valid nd (by simp [hnd]),(List.pairwise_cons.mp hx.apart).2⟩
          ⟨fun nd hnd => hy.valid nd (by simp [hnd]),(List.pairwise_cons.mp hy.apart).2⟩
        intro v
        rw [hx.covers_tail,hy.covers_tail,h v,hhi]
      cases x
      cases y
      simp_all

theorem coalesce_perm (hp : xs.Perm ys) (hx : xs.Pairwise fun a b => a.lo≤b.lo)
    (hy : ys.Pairwise fun a b => a.lo≤b.lo) (hv : ∀ nd∈xs,nd.lo≤nd.hi) :
    coalesce xs=coalesce ys := by
  have hv' : ∀ nd∈ys,nd.lo≤nd.hi := fun nd hnd => hv nd (hp.mem_iff.mpr hnd)
  have hcanon : ∀ {zs : List RangeNode},(zs.Pairwise fun a b => a.lo≤b.lo) →
      (∀ nd∈zs,nd.lo≤nd.hi) →
      Canonical (coalesce zs) ∧ ∀ v,covers (coalesce zs) v ↔ covers zs v := by
    intro zs hs hz
    cases zs with
    | nil => exact ⟨canonical_nil,fun _ => .rfl⟩
    | cons z zs => exact ⟨canonical_coalesceFrom z zs hs hz,covers_coalesceFrom z zs hs⟩
  apply (hcanon hx hv).1.ext (hcanon hy hv').1
  intro v
  rw [(hcanon hx hv).2,(hcanon hy hv').2]
  simp only [covers,hp.mem_iff]

end Unique

theorem canonical_insert (h : Canonical rs.nodes) {lo hi : Nat} (hle : lo≤hi) :
    Canonical (rs.insert lo hi).nodes := by
  have hs := sortByLo_pairwise (rs.nodes++[⟨lo,hi⟩])
  have hv : ∀ nd∈sortByLo (rs.nodes++[⟨lo,hi⟩]),nd.lo≤nd.hi := by
    intro nd hnd
    rw [sortByLo,List.mem_insertionSort] at hnd
    rcases List.mem_append.mp hnd with hnd | hnd
    · exact h.valid nd hnd
    · rw [List.mem_singleton.mp hnd]
      exact hle
  rw [insert]
  cases hc : sortByLo (rs.nodes++[⟨lo,hi⟩]) with
  | nil => exact canonical_nil
  | cons nd rest => exact canonical_coalesceFrom nd rest (hc ▸ hs) (hc ▸ hv)

theorem mem_eraseNode {v : Nat} {nd x : RangeNode} (hx : x∈eraseNode v nd)
    (hv : nd.lo≤nd.hi) : nd.lo≤x.lo ∧ x.lo≤x.hi ∧ x.hi≤nd.hi := by
  unfold eraseNode at hx
  split_ifs at hx <;> simp at hx <;> grind

theorem canonical_eraseNode (v : Nat) {nd : RangeNode} (hv : nd.lo≤nd.hi) :
    Canonical (eraseNode v nd) := by
  refine ⟨fun x hx => (mem_eraseNode hx hv).2.1,?_⟩
  unfold eraseNode
  split_ifs <;> simp
  omega

theorem canonical_erase (h : Canonical rs.nodes) (v : Nat) : Canonical (rs.erase v).nodes := by
  constructor
  · intro x hx
    obtain ⟨nd,hnd,hx⟩ := List.mem_flatMap.mp hx
    exact (canonical_eraseNode v (h.valid nd hnd)).valid x hx
  · apply List.pairwise_flatMap.mpr
    refine ⟨fun nd hnd => (canonical_eraseNode v (h.valid nd hnd)).apart,?_⟩
    apply h.apart.imp_of_mem
    intro a b ha hb hab x hx y hy
    have hxa := mem_eraseNode hx (h.valid a ha)
    have hyb := mem_eraseNode hy (h.valid b hb)
    omega

theorem coalesceFrom_hi (rest : List RangeNode) (h : ∀ nd∈last::rest,nd.hi<bound) :
    ∀ nd∈coalesceFrom last rest,nd.hi<bound := by
  induction rest generalizing last with
  | nil => simpa [coalesceFrom] using h
  | cons x rest ih =>
    simp only [List.mem_cons,forall_eq_or_imp] at h
    rw [coalesceFrom]
    split_ifs with hm
    · apply ih
      simp only [List.mem_cons,forall_eq_or_imp]
      exact ⟨Nat.max_lt.mpr ⟨h.1,h.2.1⟩,h.2.2⟩
    · simp only [List.mem_cons,forall_eq_or_imp]
      exact ⟨h.1,ih x (by simpa using h.2)⟩

theorem insert_hi (h : ∀ nd∈rs.nodes,nd.hi<bound) {lo hi : Nat} (hhi : hi<bound) :
    ∀ nd∈(rs.insert lo hi).nodes,nd.hi<bound := by
  have hall : ∀ nd∈sortByLo (rs.nodes++[⟨lo,hi⟩]),nd.hi<bound := by
    intro nd hnd
    rw [sortByLo,List.mem_insertionSort] at hnd
    rcases List.mem_append.mp hnd with hnd | hnd
    · exact h nd hnd
    · rw [List.mem_singleton.mp hnd]
      exact hhi
  rw [insert]
  cases hc : sortByLo (rs.nodes++[⟨lo,hi⟩]) with
  | nil => simp [coalesce]
  | cons nd rest => exact coalesceFrom_hi nd rest (hc ▸ hall)

theorem erase_hi (hc : Canonical rs.nodes) (h : ∀ nd∈rs.nodes,nd.hi<bound) (v : Nat) :
    ∀ nd∈(rs.erase v).nodes,nd.hi<bound := by
  intro x hx
  obtain ⟨nd,hnd,hx⟩ := List.mem_flatMap.mp hx
  exact (mem_eraseNode hx (hc.valid nd hnd)).2.2.trans_lt (h nd hnd)

end RangeSet
end HermEX.Framework
