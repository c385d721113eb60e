import Mathlib.Logic.Basic

namespace HermEX.Framework

/-- Done, failed without effect or after it, or the process dies. -/
inductive Fate where
  | done
  | fails
  | late
  | crash
deriving DecidableEq

def Fate.acts (f : Fate) : Bool := f=.done || f=.late

inductive Stop (ε : Type) where
  | failed (e : ε)
  | crashed

def Faulty (ε σ α : Type) : Type := σ → Except (Stop ε) α×σ

namespace Faulty

variable {ε ε' σ τ α β : Type}

def run (x : Faulty ε σ α) (s : σ) : Except (Stop ε) α×σ := x s

instance : Monad (Faulty ε σ) where
  pure a := fun s => (.ok a,s)
  bind x f := fun s =>
    match x s with
    | (.ok a,s') => f a s'
    | (.error e,s') => (.error e,s')

def fail (e : ε) : Faulty ε σ α := fun s => (.error (.failed e),s)

def refuse (b : Bool) (e : ε) : Faulty ε σ Unit := if b then fail e else pure ()

def get : Faulty ε σ σ := fun s => (.ok s,s)

def step (f : Fate) (e : ε) (g : σ → σ) : Faulty ε σ Unit := fun s =>
  match f with
  | .done => (.ok (),g s)
  | .fails => (.error (.failed e),s)
  | .late => (.error (.failed e),g s)
  | .crash => (.error .crashed,s)

def attempt (x : Faulty ε σ α) : Faulty ε' σ (Except ε α) := fun s =>
  match x s with
  | (.ok a,s') => (.ok (.ok a),s')
  | (.error (.failed e),s') => (.ok (.error e),s')
  | (.error .crashed,s') => (.error .crashed,s')

def zoom (view : σ → τ) (put : τ → σ → σ) (x : Faulty ε τ α) : Faulty ε σ α := fun s =>
  ((x (view s)).1,put (x (view s)).2 s)

def Triple (P : σ → Prop) (x : Faulty ε σ α) (Q : α → σ → Prop) (E : ε → σ → Prop)
    (C : σ → Prop) : Prop :=
  ∀ s,P s →
    match x s with
    | (.ok a,s') => Q a s'
    | (.error (.failed e),s') => E e s'
    | (.error .crashed,s') => C s'

variable {P : σ → Prop} {Q : α → σ → Prop} {E : ε → σ → Prop} {C : σ → Prop}

variable {e : ε} {x : Faulty ε σ α}

theorem Triple.pure {a : α} (h : ∀ s,P s → Q a s) : Triple P (pure a) Q E C := h

theorem Triple.fail (h : ∀ s,P s → E e s) : Triple P (fail e) Q E C := h

theorem Triple.refuse {Q : Unit → σ → Prop} {b : Bool} (hpass : b=false → ∀ s,P s → Q () s)
    (hfail : b=true → ∀ s,P s → E e s) : Triple P (refuse b e) Q E C := by
  cases b with
  | false => exact Triple.pure (hpass rfl)
  | true => exact Triple.fail (hfail rfl)

theorem Triple.get {Q : σ → σ → Prop} (h : ∀ s,P s → Q s s) : Triple P get Q E C := h

theorem Triple.step {Q : Unit → σ → Prop} {f : Fate} {g : σ → σ}
    (hdone : f=.done → ∀ s,P s → Q () (g s)) (hfail : f=.fails → ∀ s,P s → E e s)
    (hlate : f=.late → ∀ s,P s → E e (g s)) (hcrash : f=.crash → ∀ s,P s → C s) :
    Triple P (step f e g) Q E C := by
  intro s hs
  cases f with
  | done => exact hdone rfl s hs
  | fails => exact hfail rfl s hs
  | late => exact hlate rfl s hs
  | crash => exact hcrash rfl s hs

theorem Triple.bind {R : β → σ → Prop} {f : α → Faulty ε σ β} (hx : Triple P x Q E C)
    (hf : ∀ a,Triple (Q a) (f a) R E C) : Triple P (x >>= f) R E C := by
  intro s hs
  have h := hx s hs
  simp only [Bind.bind]
  generalize x s=r at h ⊢
  obtain ⟨res,s'⟩ := r
  cases res with
  | ok a => exact hf a s' h
  | error e => cases e <;> exact h

theorem Triple.read {R : β → σ → Prop} {f : Fate} {k : Unit → Faulty ε σ β}
    (herr : ∀ s,P s → E e s) (hcrash : ∀ s,P s → C s)
    (hk : f=.done → Triple P (k ()) R E C) : Triple P (Faulty.step f e id >>= k) R E C := by
  refine Triple.bind (Q := fun _ s => f=.done ∧ P s) (Triple.step ?_ ?_ ?_ ?_) ?_
  · exact fun hf s hs => ⟨hf,hs⟩
  · exact fun _ => herr
  · exact fun _ => herr
  · exact fun _ => hcrash
  · exact fun _ s hs => hk hs.1 s hs.2

theorem Triple.attempt {E' : ε' → σ → Prop} {R : Except ε α → σ → Prop}
    (hx : Triple P x (fun a => R (.ok a)) (fun e => R (.error e)) C) :
    Triple P (attempt x) R E' C := by
  intro s hs
  have h := hx s hs
  simp only [Faulty.attempt]
  generalize x s=r at h ⊢
  obtain ⟨res,s'⟩ := r
  cases res with
  | ok a => exact h
  | error e => cases e <;> exact h

theorem Triple.zoom {view : σ → τ} {put : τ → σ → σ} {x : Faulty ε τ α}
    (h : ∀ s,P s → Triple (· = view s) x (fun a t => Q a (put t s)) (fun e t => E e (put t s))
      (fun t => C (put t s))) :
    Triple P (zoom view put x) Q E C := by
  intro s hs
  have h := h s hs (view s) rfl
  simp only [Faulty.zoom]
  generalize x (view s)=r at h ⊢
  obtain ⟨res,t⟩ := r
  cases res with
  | ok a => exact h
  | error e => cases e <;> exact h

theorem Triple.conseq {P' : σ → Prop} {Q' : α → σ → Prop} {E' : ε → σ → Prop} {C' : σ → Prop}
    (h : Triple P' x Q' E' C') (hP : ∀ s,P s → P' s) (hQ : ∀ a s,Q' a s → Q a s)
    (hE : ∀ e s,E' e s → E e s) (hC : ∀ s,C' s → C s) : Triple P x Q E C := by
  intro s hs
  have h := h s (hP s hs)
  generalize x s=r at h ⊢
  obtain ⟨res,s'⟩ := r
  cases res with
  | ok a => exact hQ a s' h
  | error e =>
    cases e with
    | failed e => exact hE e s' h
    | crashed => exact hC s' h

theorem Triple.of_state (h : ∀ s,P s → Triple (· = s) x Q E C) :
    Triple P x Q E C := fun s hs => h s hs s rfl

end Faulty
end HermEX.Framework
