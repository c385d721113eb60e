import Mathlib.Data.List.Sort

namespace HermEX.Framework

section Shrinking

variable {α : Type}

def dropPositions (keep : α → Bool) : List α → Nat → List Nat
  | [],_ => []
  | x::xs,i => if keep x then dropPositions keep xs (i+1) else (i+1)::dropPositions keep xs i

def removeAt (xs : List α) (k : Nat) : List α := xs.eraseIdx (k-1)

@[simp] theorem removeAt_append (before : List α) (x : α) (after : List α) :
    removeAt (before++x::after) (before.length+1)=before++after := by
  simp [removeAt,List.eraseIdx_append_of_length_le]

theorem removeAt_dropPositions (keep : α → Bool) (before xs : List α) :
    (dropPositions keep xs before.length).foldl removeAt (before++xs)=before++xs.filter keep := by
  induction xs generalizing before with
  | nil => rfl
  | cons x xs ih =>
    rw [dropPositions,List.filter_cons]
    split_ifs with hx
    · have h := ih (before++[x])
      simpa using h
    · rw [List.foldl_cons,removeAt_append]
      exact ih before

end Shrinking

section Sorted

variable {xs ys : List Nat}

theorem sorted_split (h : xs.Pairwise (·<·)) (n : Nat) :
    xs.filter (·<n)++xs.filter (n≤·)=xs := by
  induction xs with
  | nil => rfl
  | cons x xs ih =>
    obtain ⟨hx,hxs⟩ := List.pairwise_cons.mp h
    have htail := ih hxs
    by_cases hn : x<n
    · simp [hn,htail]
    · have hnone : xs.filter (·<n)=[] := by
        rw [List.filter_eq_nil_iff]
        intro y hy
        have := hx y hy
        simp only [decide_eq_true_eq]
        omega
      rw [hnone,List.nil_append] at htail
      simp [List.filter_cons,hn,hnone,htail]

theorem sorted_shared (hx : xs.Pairwise (·<·)) (hy : ys.Pairwise (·<·)) {n : Nat}
    (hlt : ∀ y∈ys,y<n) (hmem : ∀ x∈xs,x<n → x∈ys) :
    ys.filter (·∈xs)++xs.filter (n≤·)=xs := by
  have hshared : ys.filter (·∈xs)=xs.filter (·<n) := by
    have hsy := hy.filter (fun y => decide (y∈xs))
    have hsx := hx.filter (fun x => decide (x<n))
    apply List.Pairwise.eq_of_mem_iff hsy hsx
    intro a
    simp only [List.mem_filter,decide_eq_true_eq]
    constructor
    · intro ⟨ha,hax⟩
      exact ⟨hax,hlt a ha⟩
    · intro ⟨ha,han⟩
      exact ⟨hmem a ha han,ha⟩
  rw [hshared]
  exact sorted_split hx n

end Sorted
end HermEX.Framework
