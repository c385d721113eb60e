import HermEX.Framework.Runs

namespace HermEX.Framework

/-- What is read of a shared state, written to it, and done by others. -/
structure Setting where
  State : Type
  Query : Type
  Row : Type
  Write : Type
  Call : Type
  Answer : Type
  Other : Type
  rows : Query → State → List Row
  write : Write → State → State
  answer : Call → Answer → State → State
  other : Other → State → State

/-- A program; each effect is one step. -/
inductive Script (S : Setting) where
  | done
  | read (q : S.Query) (k : List S.Row → Script S)
  | write (op : S.Write) (k : Script S)
  | call (c : S.Call) (k : S.Answer → Script S)

/-- It goes on behind an effect, or is cut off before or behind it. -/
inductive Cut where
  | goes
  | before
  | behind
deriving DecidableEq

def Script.act {S : Setting} : Script S → S.Answer → S.State → S.State×Script S
  | .done,_,s => (s,.done)
  | .read q k,_,s => (s,k (S.rows q s))
  | .write op k,_,s => (S.write op s,k)
  | .call c k,a,s => (S.answer c a s,k a)

/-- The state and the rest of the program, if any. -/
structure Running (S : Setting) where
  state : S.State
  rest : Script S

inductive Turn (S : Setting) (π : Type) where
  | start (i : π)
  | go (cut : Cut) (a : S.Answer)
  | other (x : S.Other)

namespace Running

variable {S : Setting} {π : Type}

def begin (prog : π → Script S) (r : Running S) (i : π) : Running S :=
  match r.rest with
  | .done => {r with rest:=prog i}
  | _ => r

def step (prog : π → Script S) (r : Running S) : Turn S π → Running S
  | .start i => r.begin prog i
  | .go .goes a => ⟨(r.rest.act a r.state).1,(r.rest.act a r.state).2⟩
  | .go .before _ => {r with rest:=.done}
  | .go .behind a => ⟨(r.rest.act a r.state).1,.done⟩
  | .other x => {r with state:=S.other x r.state}

end Running

/-- The invariant, which programs start, and when effects and others may move. -/
structure Contract (S : Setting) (π : Type) where
  inv : S.State → Prop
  starts : π → Prop
  guard : Script S → S.Answer → S.State → Prop
  rely : Script S → S.Other → S.State → Prop

namespace Contract

variable {S : Setting} {π : Type} (K : Contract S π)

def Allows (r : Running S) : Turn S π → Prop
  | .start i => K.starts i
  | .go cut a => cut=.before ∨ K.guard r.rest a r.state
  | .other x => K.rely r.rest x r.state

def Stable (P : S.State → Prop) (p : Script S) : Prop := ∀ s x,P s → K.rely p x s → P (S.other x s)

/-- From the assertion, the invariant holds wherever it is cut off. -/
inductive Valid : (S.State → Prop) → Script S → Prop where
  | done {P} (keeps : ∀ s,P s → K.inv s) : Valid P .done
  | read {P q k} {Q : List S.Row → S.State → Prop} (keeps : ∀ s,P s → K.inv s)
      (stable : K.Stable P (.read q k)) (effect : ∀ s,P s → Q (S.rows q s) s)
      (rest : ∀ xs,Valid (Q xs) (k xs)) : Valid P (.read q k)
  | write {P op k} {Q : S.State → Prop} (keeps : ∀ s,P s → K.inv s)
      (stable : K.Stable P (.write op k))
      (effect : ∀ s a,P s → K.guard (.write op k) a s → Q (S.write op s))
      (rest : Valid Q k) : Valid P (.write op k)
  | call {P c k} {Q : S.Answer → S.State → Prop} (keeps : ∀ s,P s → K.inv s)
      (stable : K.Stable P (.call c k))
      (effect : ∀ s a,P s → K.guard (.call c k) a s → Q a (S.answer c a s))
      (rest : ∀ a,Valid (Q a) (k a)) : Valid P (.call c k)

  | weaken {P P' p} (h : ∀ s,P s → P' s) (valid : Valid P' p) : Valid P p

variable {K}

variable {P : S.State → Prop} {p : Script S} {s : S.State}

theorem Valid.keeps (h : K.Valid P p) (hs : P s) : K.inv s := by
  induction h with
  | done keeps | read keeps stable effect rest ih => exact keeps s hs
  | write keeps stable effect rest ih | call keeps stable effect rest ih => exact keeps s hs
  | weaken h valid ih => exact ih (h s hs)

theorem Valid.vacuous (p : Script S) : K.Valid (fun _ => False) p := by
  induction p with
  | done => exact .done fun _ h => h.elim
  | read q k ih => exact .read (fun _ h => h.elim) (fun _ _ h _ => h) (fun _ h => h) fun xs => ih xs
  | write op k ih => exact .write (fun _ h => h.elim) (fun _ _ h _ => h) (fun _ _ h _ => h) ih
  | call c k ih =>
    exact .call (fun _ h => h.elim) (fun _ _ h _ => h) (fun _ _ h _ => h) fun a => ih a

theorem Valid.given {φ : Prop} (h : φ → K.Valid P p) : K.Valid (fun s => φ ∧ P s) p := by
  by_cases hφ : φ
  · exact .weaken (fun _ hs => hs.2) (h hφ)
  · exact .weaken (fun _ hs => hφ hs.1) (.vacuous p)

def Good (K : Contract S π) (r : Running S) : Prop := ∃ P,P r.state ∧ K.Valid P r.rest

theorem Good.idle (h : K.inv s) : K.Good ⟨s,.done⟩ := ⟨K.inv,h,.done fun _ h => h⟩

theorem Good.inv {r : Running S} (h : K.Good r) : K.inv r.state := by
  obtain ⟨P,hP,hvalid⟩ := h
  exact hvalid.keeps hP

theorem Valid.act (h : K.Valid P p) (hs : P s) {a : S.Answer} (hguard : K.guard p a s) :
    K.Good ⟨(p.act a s).1,(p.act a s).2⟩ := by
  induction h with
  | done keeps => exact .idle (keeps s hs)
  | read keeps stable effect rest ih => exact ⟨_,effect s hs,rest _⟩
  | write keeps stable effect rest ih => exact ⟨_,effect s a hs hguard,rest⟩
  | call keeps stable effect rest ih => exact ⟨_,effect s a hs hguard,rest a⟩
  | weaken h valid ih => exact ih (h s hs) hguard

theorem Valid.interfere (hidle : K.Stable K.inv .done) (h : K.Valid P p) (hs : P s) {x : S.Other}
    (hrely : K.rely p x s) : K.Good ⟨S.other x s,p⟩ := by
  induction h with
  | done keeps => exact .idle (hidle s x (keeps s hs) hrely)
  | read keeps stable effect rest ih => exact ⟨_,stable s x hs hrely,.read keeps stable effect rest⟩
  | write keeps stable effect rest ih =>
    exact ⟨_,stable s x hs hrely,.write keeps stable effect rest⟩
  | call keeps stable effect rest ih => exact ⟨_,stable s x hs hrely,.call keeps stable effect rest⟩
  | weaken h valid ih => exact ih (h s hs) hrely

theorem Good.step {prog : π → Script S} (hidle : K.Stable K.inv .done)
    (hprog : ∀ i,K.starts i → K.Valid K.inv (prog i)) {r : Running S} (h : K.Good r)
    {m : Turn S π} (hm : K.Allows r m) : K.Good (r.step prog m) := by
  cases m with
  | start i =>
    obtain ⟨s,p⟩ := r
    cases p with
    | done => exact ⟨K.inv,h.inv,hprog i hm⟩
    | read q k | write op k | call c k => exact h
  | other x =>
    obtain ⟨P,hP,hvalid⟩ := h
    exact hvalid.interfere hidle hP hm
  | go cut a =>
    cases cut with
    | before => exact .idle h.inv
    | goes =>
      obtain ⟨P,hP,hvalid⟩ := h
      have hne : Cut.goes ≠ .before := by decide
      exact hvalid.act hP (hm.resolve_left hne)
    | behind =>
      obtain ⟨P,hP,hvalid⟩ := h
      have hne : Cut.behind ≠ .before := by decide
      exact .idle (hvalid.act hP (hm.resolve_left hne)).inv

theorem run_inv {prog : π → Script S} (hidle : K.Stable K.inv .done)
    (hprog : ∀ i,K.starts i → K.Valid K.inv (prog i)) (hs : K.inv s) {ms : List (Turn S π)}
    (h : Meets (Running.step prog) K.Allows ⟨s,.done⟩ ms) :
    K.inv (runSteps (Running.step prog) ⟨s,.done⟩ ms).state := by
  have hgood : K.Good (runSteps (Running.step prog) ⟨s,.done⟩ ms) :=
    h.invariant (fun r m hr hm => hr.step hidle hprog hm) (.idle hs)
  exact hgood.inv

end Contract
end HermEX.Framework
