import Mathlib.Data.List.Basic

namespace HermEX.Framework

section Walk

variable {σ τ α β : Type}

def offer (add : σ → α → σ×Bool) : σ → List α → σ×Bool
  | s,[] => (s,true)
  | s,x::xs => match add s x with
    | (s',true) => offer add s' xs
    | (s',false) => (s',false)

def walk (add : σ → α → σ×Bool) (period : Nat → List α) (past : Nat → Bool) :
    Nat → Nat → σ → σ
  | 0,_,s => s
  | n+1,i,s => match offer add s (period i) with
    | (s',true) => if past i then s' else walk add period past n (i+1) s'
    | (s',false) => s'

def walkTo (add : σ → α → σ×Bool) (period : Nat → List α) (past : Nat → Bool) :
    Nat → Nat → σ → Option σ
  | 0,_,s => some s
  | n+1,i,s => match offer add s (period i) with
    | (s',true) => if past i then none else walkTo add period past n (i+1) s'
    | (_,false) => none

def periods (period : Nat → List α) (i n : Nat) : List α := (List.range' i n).flatMap period

theorem periods_succ (period : Nat → List α) (i n : Nat) :
    periods period i (n+1)=period i++periods period (i+1) n := by
  simp [periods,List.range'_succ]

theorem mem_periods {period : Nat → List α} {i n : Nat} {x : α} :
    x∈periods period i n ↔ ∃ j,i≤j ∧ j < i+n ∧ x∈period j := by
  simp [periods,and_assoc]

variable {add : σ → α → σ×Bool}

theorem offer_append (s : σ) (xs ys : List α) :
    offer add s (xs++ys) =
      if (offer add s xs).2 then offer add (offer add s xs).1 ys else offer add s xs := by
  induction xs generalizing s with
  | nil => simp [offer]
  | cons x xs ih =>
    cases h : add s x with
    | mk s' more =>
      cases more with
      | true =>
        simp only [List.cons_append,offer,h]
        exact ih s'
      | false => simp [offer,h]

section Map

variable {add' : τ → α → τ×Bool} {f : τ → σ}

theorem offer_map (h : ∀ s x,add (f s) x=(f (add' s x).1,(add' s x).2)) (s : τ) (xs : List α) :
    offer add (f s) xs=(f (offer add' s xs).1,(offer add' s xs).2) := by
  induction xs generalizing s with
  | nil => rfl
  | cons x xs ih =>
    simp only [offer,h]
    cases ha : add' s x with
    | mk s' more =>
      cases more with
      | true => exact ih s'
      | false => rfl

theorem walk_map (h : ∀ s x,add (f s) x=(f (add' s x).1,(add' s x).2)) {period : Nat → List α}
    {past : Nat → Bool} (n i : Nat) (s : τ) :
    walk add period past n i (f s)=f (walk add' period past n i s) := by
  induction n generalizing i s with
  | zero => rfl
  | succ n ih =>
    simp only [walk,offer_map h]
    cases ho : offer add' s (period i) with
    | mk s' more =>
      cases more with
      | true =>
        dsimp only
        split_ifs
        · rfl
        · exact ih (i+1) s'
      | false => rfl

end Map

variable {period period' : Nat → List α} {past past' : Nat → Bool}

theorem walk_congr (n i : Nat) (s : σ)
    (h : ∀ k<n,(walkTo add period past k i s).isSome=true →
      period' (i+k)=period (i+k) ∧ past' (i+k)=past (i+k)) :
    walk add period' past' n i s=walk add period past n i s := by
  induction n generalizing i s with
  | zero => rfl
  | succ n ih =>
    obtain ⟨hperiod,hpast⟩ := h 0 (by omega) rfl
    rw [Nat.add_zero] at hperiod hpast
    simp only [walk,hperiod,hpast]
    cases ho : offer add s (period i) with
    | mk s' more =>
      cases more with
      | false => rfl
      | true =>
        dsimp only
        split_ifs with hp
        · rfl
        apply ih
        intro k hk hto
        have hnext := h (k+1) (by omega) (by simpa [walkTo,ho,hp] using hto)
        rwa [show i+(k+1)=i+1+k by omega] at hnext

theorem walkTo_mono (h : ∀ i,past' i=true → past i=true) (n i : Nat) {s : σ}
    (hto : (walkTo add period past n i s).isSome=true) :
    (walkTo add period past' n i s).isSome=true := by
  induction n generalizing i s with
  | zero => rfl
  | succ n ih =>
    simp only [walkTo] at hto ⊢
    cases ho : offer add s (period i) with
    | mk s' more =>
      cases more with
      | false => simp [ho] at hto
      | true =>
        simp only [ho] at hto ⊢
        split_ifs at hto with hp
        · simp at hto
        rw [if_neg fun hp' => hp (h i hp')]
        exact ih (i+1) hto

variable {v : σ → β}

theorem offer_hidden {xs : List α} (h : ∀ s,∀ x∈xs,v (add s x).1=v s) (s : σ) :
    v (offer add s xs).1=v s := by
  induction xs generalizing s with
  | nil => rfl
  | cons x xs ih =>
    have hx := h s x (by simp)
    have hxs : ∀ s,∀ y∈xs,v (add s y).1=v s := fun s y hy => h s y (List.mem_cons_of_mem x hy)
    cases ha : add s x with
    | mk s' more =>
      rw [ha] at hx
      cases more with
      | true => simpa [offer,ha,hx] using ih hxs s'
      | false => simpa [offer,ha] using hx

theorem walk_view (h : ∀ i j,past i=true → i<j → ∀ s,∀ x∈period j,v (add s x).1=v s) (n i : Nat)
    (s : σ) : v (walk add period past n i s)=v (offer add s (periods period i n)).1 := by
  induction n generalizing i s with
  | zero => simp [walk,periods,offer]
  | succ n ih =>
    rw [periods_succ,offer_append]
    cases ho : offer add s (period i) with
    | mk s' more =>
      cases more with
      | false => simp [walk,ho]
      | true =>
        simp only [walk,ho]
        split_ifs with hp
        · refine (offer_hidden ?_ s').symm
          intro s x hx
          obtain ⟨j,hij,-,hj⟩ := mem_periods.mp hx
          exact h i j hp hij s x hj
        · exact ih (i+1) s'

end Walk
end HermEX.Framework
