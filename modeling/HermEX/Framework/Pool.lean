import HermEX.Framework.Runs
import Mathlib.Data.List.Basic

namespace HermEX.Framework

/-- Operations in progress over a shared state. -/
structure Pool (σ τ : Type) where
  shared : σ
  tasks : List τ

/-- An operation starts or goes on, all are lost, or the state changes. -/
inductive Move (ω ε : Type) where
  | start (op : ω)
  | run (i : Nat)
  | crash
  | outside (e : ε)

namespace Pool

variable {σ τ ω ε : Type}

def resume (tasks : List τ) (i : Nat) : Option τ → List τ
  | none => tasks.eraseIdx i
  | some t => tasks.set i t

theorem mem_resume {tasks : List τ} {i : Nat} {next : Option τ} {u : τ}
    (h : u∈resume tasks i next) : u∈tasks ∨ next=some u := by
  cases next with
  | none => exact .inl (List.mem_of_mem_eraseIdx h)
  | some t => exact (List.mem_or_eq_of_mem_set h).imp_right fun he => by rw [he]

def step (enter : ω → τ) (exec : τ → σ → Option τ×σ) (outside : ε → σ → σ) (p : Pool σ τ) :
    Move ω ε → Pool σ τ
  | .start op => {p with tasks:=p.tasks++[enter op]}
  | .run i =>
    match p.tasks[i]? with
    | none => p
    | some t => ⟨(exec t p.shared).2,resume p.tasks i (exec t p.shared).1⟩
  | .crash => {p with tasks:=[]}
  | .outside e => {p with shared:=outside e p.shared}

def alone (exec : τ → σ → Option τ×σ) : Nat → τ → σ → σ
  | 0,_,s => s
  | n+1,t,s =>
    match exec t s with
    | (none,s) => s
    | (some t,s) => alone exec n t s

/-- An invariant of the shared state, and one of each task. -/
structure Holds (I : σ → Prop) (J : σ → τ → Prop) (p : Pool σ τ) : Prop where
  shared : I p.shared
  tasks : ∀ t∈p.tasks,J p.shared t

section Preserves

variable {enter : ω → τ} {exec : τ → σ → Option τ×σ} {outside : ε → σ → σ}
  {C : Pool σ τ → Move ω ε → Prop} {I : σ → Prop} {J : σ → τ → Prop}

variable (enter exec outside C I J) in
/-- A task that moves has its invariant and disturbs no other. -/
structure Preserves : Prop where
  start : ∀ p op,Holds I J p → C p (.start op) → J p.shared (enter op)
  shared : ∀ p i t,p.tasks[i]?=some t → Holds I J p → C p (.run i) → I (exec t p.shared).2
  next : ∀ p i t t',p.tasks[i]?=some t → Holds I J p → C p (.run i) →
    (exec t p.shared).1=some t' → J (exec t p.shared).2 t'
  others : ∀ p i t u,p.tasks[i]?=some t → Holds I J p → C p (.run i) → u∈p.tasks →
    J (exec t p.shared).2 u
  outside : ∀ p e,Holds I J p → C p (.outside e) → Holds I J ⟨outside e p.shared,p.tasks⟩

theorem Preserves.step (h : Preserves enter exec outside C I J) (p : Pool σ τ) (m : Move ω ε)
    (hp : Holds I J p) (hc : C p m) : Holds I J (p.step enter exec outside m) := by
  cases m with
  | start op =>
    refine ⟨hp.shared,fun u hu => ?_⟩
    rcases List.mem_append.mp hu with hu | hu
    · exact hp.tasks u hu
    · rw [List.mem_singleton.mp hu]
      exact h.start p op hp hc
  | run i =>
    cases ht : p.tasks[i]? with
    | none =>
      simp only [Pool.step,ht]
      exact hp
    | some t =>
      simp only [Pool.step,ht]
      refine ⟨h.shared p i t ht hp hc,fun u hu => ?_⟩
      rcases mem_resume hu with hu | hu
      · exact h.others p i t u ht hp hc hu
      · exact h.next p i t u ht hp hc hu
  | crash => exact ⟨hp.shared,fun u hu => absurd hu List.not_mem_nil⟩
  | outside e => exact h.outside p e hp hc

theorem Preserves.run (h : Preserves enter exec outside C I J) {p : Pool σ τ} (hp : Holds I J p)
    {moves : List (Move ω ε)} (hm : Meets (Pool.step enter exec outside) C p moves) :
    Holds I J (runSteps (Pool.step enter exec outside) p moves) :=
  hm.invariant h.step hp

end Preserves
end Pool
end HermEX.Framework
