import HermEX.Framework.Bytes

namespace HermEX.Framework

def index (sub s : Bytes) : Option Nat :=
  (List.range (s.length+1)).find? fun i => sub.isPrefixOf (s.drop i)

variable {sub s : Bytes}

theorem index_eq_some {i : Nat} :
    index sub s=some i ↔ i ≤ s.length ∧ sub <+: s.drop i ∧ ∀ j < i,¬sub <+: s.drop j := by
  rw [index,List.find?_range_eq_some]
  simp only [List.mem_range,List.isPrefixOf_iff_prefix,Bool.not_eq_true',← Bool.not_eq_true]
  constructor
  · rintro ⟨hpre,hi,hfirst⟩
    exact ⟨by omega,hpre,hfirst⟩
  · rintro ⟨hi,hpre,hfirst⟩
    exact ⟨hpre,by omega,hfirst⟩

theorem index_eq_none : index sub s=none ↔ ∀ j,¬sub <+: s.drop j := by
  rw [index,List.find?_range_eq_none]
  simp only [Bool.not_eq_true',← Bool.not_eq_true,List.isPrefixOf_iff_prefix]
  constructor
  · intro h j hj
    by_cases hle : j ≤ s.length
    · exact h j (by omega) hj
    · rw [List.drop_eq_nil_of_le (by omega)] at hj
      exact h s.length (by omega) (by simpa using hj)
  · intro h j _
    exact h j

theorem prefix_at {p k : Nat} (h : sub <+: s.drop p) (hk : k<sub.length) :
    s[p+k]?=sub[k]? := by
  obtain ⟨t,ht⟩ := h
  rw [← List.getElem?_drop,← ht,List.getElem?_append_left hk]

def hits (test : Nat → Bool) (n i : Nat) : List Nat := (List.range' i (n-i)).filter test

variable {test : Nat → Bool} {n i : Nat}

theorem mem_hits {q : Nat} : q∈hits test n i ↔ (i≤q ∧ q<n) ∧ test q=true := by
  rw [hits,List.mem_filter,List.mem_range'_1]
  constructor
  all_goals
    rintro ⟨hq,ht⟩
    exact ⟨by omega,ht⟩

theorem hits_step (ht : test i=false) : hits test n i=hits test n (i+1) := by
  by_cases hi : i<n
  · rw [hits,show n-i=n-(i+1)+1 by omega,List.range'_succ,
      List.filter_cons_of_neg (by simp [ht]),hits]
  · simp [hits,show n-i=0 by omega,show n-(i+1)=0 by omega]

theorem hits_skip {j : Nat} (hij : i≤j) (h : ∀ q,i≤q → q<j → test q=false) :
    hits test n i=hits test n j := by
  induction j,hij using Nat.le_induction with
  | base => rfl
  | succ j hij ih => rw [ih fun q hi hj => h q hi (by omega),hits_step (h j hij (by omega))]

theorem hits_cons (hi : i<n) (ht : test i=true) : hits test n i=i::hits test n (i+1) := by
  rw [hits,show n-i=n-(i+1)+1 by omega,List.range'_succ,List.filter_cons_of_pos ht,hits]

end HermEX.Framework
