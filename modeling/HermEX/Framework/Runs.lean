import Mathlib.Logic.Basic

namespace HermEX.Framework

theorem bind_eq_ok {ε α β : Type} {x : Except ε α} {f : α → Except ε β} {b : β}
    (h : (x >>= f)=.ok b) : ∃ a,x=.ok a ∧ f a=.ok b := by
  cases x with
  | error e => cases h
  | ok a => exact ⟨a,rfl,h⟩

theorem map_eq_ok {ε α β : Type} {x : Except ε α} {f : α → β} {b : β}
    (h : x.map f=.ok b) : ∃ a,x=.ok a ∧ f a=b := by
  cases x with
  | error e => cases h
  | ok a => exact ⟨a,rfl,Except.ok.inj h⟩

section Runs

variable {σ α : Type}

def runSteps (step : σ → α → σ) (s : σ) (xs : List α) : σ := xs.foldl step s

variable {step : σ → α → σ} {I : σ → Prop} {s : σ} {C : σ → α → Prop} {xs : List α}

@[simp] theorem runSteps_nil (step : σ → α → σ) (s : σ) : runSteps step s []=s := rfl

@[simp] theorem runSteps_cons (step : σ → α → σ) (s : σ) (x : α) (xs : List α) :
    runSteps step s (x::xs)=runSteps step (step s x) xs := rfl

theorem runSteps_append (step : σ → α → σ) (s : σ) (xs ys : List α) :
    runSteps step s (xs++ys)=runSteps step (runSteps step s xs) ys :=
  List.foldl_append

theorem runSteps_invariant (hstep : ∀ s x,I s → I (step s x)) (hs : I s) (xs : List α) :
    I (runSteps step s xs) := by
  induction xs generalizing s with
  | nil => exact hs
  | cons x xs ih => exact ih (hstep s x hs)

/-- Every step meets the condition where it is taken. -/
def Meets (step : σ → α → σ) (C : σ → α → Prop) : σ → List α → Prop
  | _,[] => True
  | s,x::xs => C s x ∧ Meets step C (step s x) xs

instance decidableMeets (step : σ → α → σ) (C : σ → α → Prop) [∀ s x,Decidable (C s x)] :
    ∀ s xs,Decidable (Meets step C s xs)
  | _,[] => isTrue trivial
  | s,x::xs => @instDecidableAnd _ _ _ (decidableMeets step C (step s x) xs)

theorem meets_append {ys : List α} :
    Meets step C s (xs++ys) ↔ Meets step C s xs ∧ Meets step C (runSteps step s xs) ys := by
  induction xs generalizing s with
  | nil => simp [Meets]
  | cons x xs ih => simp [Meets,ih,and_assoc]

theorem Meets.mono {D : σ → α → Prop} (hCD : ∀ s x,C s x → D s x) (h : Meets step C s xs) :
    Meets step D s xs := by
  induction xs generalizing s with
  | nil => trivial
  | cons x xs ih => exact ⟨hCD s x h.1,ih h.2⟩

theorem Meets.invariant (hstep : ∀ s x,I s → C s x → I (step s x)) (h : Meets step C s xs)
    (hs : I s) : I (runSteps step s xs) := by
  induction xs generalizing s with
  | nil => exact hs
  | cons x xs ih => exact ih h.2 (hstep s x hs h.1)

theorem meets_next_iff (hstep : ∀ s x,I s → (I (step s x) ↔ C s x)) (hs : I s) :
    Meets step (fun s x => I (step s x)) s xs ↔ Meets step C s xs := by
  induction xs generalizing s with
  | nil => rfl
  | cons x xs ih =>
    have hx := hstep s x hs
    constructor
    · intro h
      exact ⟨hx.mp h.1,(ih h.1).mp h.2⟩
    · intro h
      have hnext := hx.mpr h.1
      exact ⟨hnext,(ih hnext).mpr h.2⟩

theorem Meets.relation {R : σ → σ → Prop} (refl : ∀ s,R s s)
    (trans : ∀ {a b c},R a b → R b c → R a c) (hinv : ∀ s x,I s → C s x → I (step s x))
    (hstep : ∀ s x,I s → C s x → R s (step s x)) (h : Meets step C s xs) (hs : I s) :
    R s (runSteps step s xs) := by
  induction xs generalizing s with
  | nil => exact refl s
  | cons x xs ih =>
    have hx := hstep s x hs h.1
    have hxs := ih h.2 (hinv s x hs h.1)
    exact trans hx hxs

end Runs
end HermEX.Framework
