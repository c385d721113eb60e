import HermEX.Framework.Runs
import Mathlib.Logic.Function.Basic
import Mathlib.Tactic.SplitIfs

namespace HermEX.Framework

/-- A value in parts; an owner at work has a copy of the whole. -/
structure Shared (ι β : Type) where
  stored : ι → β
  copies : ι → Option (ι → β)

inductive Access (ι ρ : Type) where
  | load (i : ι)
  | drop (i : ι)
  | save (i : ι) (r : ρ)

def Access.owner {ι ρ : Type} : Access ι ρ → ι
  | load i => i
  | drop i => i
  | save i _ => i

namespace Shared

variable {ι β ρ : Type} [DecidableEq ι] (act : ρ → β → Option β)

def start (stored : ι → β) : Shared ι β := ⟨stored,fun _ => none⟩

def write (s : Shared ι β) (i : ι) (c : ι → β) (r : ρ) : ι → β :=
  (act r (c i)).elim s.stored (Function.update c i)

def step (s : Shared ι β) : Access ι ρ → Shared ι β
  | .load i =>
    if (s.copies i).isSome then s
    else {s with copies:=Function.update s.copies i (some s.stored)}
  | .drop i => {s with copies:=Function.update s.copies i none}
  | .save i r =>
    { stored:=(s.copies i).elim s.stored fun c => s.write act i c r
      copies:=Function.update s.copies i none }

def Current (s : Shared ι β) : Access ι ρ → Prop
  | .save i r => ∀ c,s.copies i=some c → act r (c i)≠none → ∀ j,j≠i → c j=s.stored j
  | _ => True

/-- Each owner's part, stored and copied, is its own run's. -/
structure Apart (s : Shared ι β) (t : ι → Shared ι β) : Prop where
  stored : ∀ i,s.stored i=(t i).stored i
  copies : ∀ i,(s.copies i).map (fun c => c i)=((t i).copies i).map fun c => c i

def follow (t : ι → Shared ι β) (x : Access ι ρ) (i : ι) : Shared ι β :=
  if x.owner=i then (t i).step act x else t i

variable {act} {s : Shared ι β} {t : ι → Shared ι β}

omit [DecidableEq ι] in
theorem Apart.start (stored : ι → β) : Apart (start stored) fun _ => start stored :=
  ⟨fun _ => rfl,fun _ => rfl⟩

theorem stored_of_ne (s : Shared ι β) {x : Access ι ρ} (hx : ∀ r,x ≠ .save x.owner r) :
    (s.step act x).stored=s.stored := by
  cases x with
  | load i =>
    rw [step]
    split_ifs <;> rfl
  | drop i => rfl
  | save i r => exact absurd rfl (hx r)

theorem copies_of_ne (s : Shared ι β) {x : Access ι ρ} {i : ι} (h : x.owner≠i) :
    (s.step act x).copies i=s.copies i := by
  cases x with
  | load j =>
    rw [step]
    split_ifs
    · rfl
    · exact Function.update_of_ne (Ne.symm h) _ _
  | drop j | save j r => exact Function.update_of_ne (Ne.symm h) _ _

theorem Apart.copies_follow (h : Apart s t) (x : Access ι ρ) (i : ι) :
    ((s.step act x).copies i).map (fun c => c i) =
      ((follow act t x i).copies i).map fun c => c i := by
  by_cases hi : x.owner=i
  · rw [follow,if_pos hi]
    cases x with
    | load j =>
      obtain rfl : j=i := hi
      have hopen : (s.copies j).isSome=((t j).copies j).isSome := by
        simpa using congrArg Option.isSome (h.copies j)
      simp only [step,hopen]
      split_ifs
      · exact h.copies j
      · simp [h.stored j]
    | drop j | save j r =>
      obtain rfl : j=i := hi
      simp [step]
  · rw [follow,if_neg hi,copies_of_ne s hi]
    exact h.copies i

theorem Apart.save_own (h : Apart s t) (i : ι) (r : ρ) :
    (s.step act (.save i r)).stored i=((t i).step act (.save i r)).stored i := by
  have hcopies := h.copies i
  simp only [step]
  cases hs : s.copies i with
  | none =>
    rw [hs] at hcopies
    rw [Option.map_eq_none_iff.mp hcopies.symm]
    exact h.stored i
  | some c =>
    rw [hs] at hcopies
    obtain ⟨c',hc',hpart⟩ := Option.map_eq_some_iff.mp hcopies.symm
    rw [hc']
    simp only [Option.elim,write,hpart]
    cases act r (c i) with
    | none => exact h.stored i
    | some b => simp

theorem Apart.stored_iff (h : Apart s t) (x : Access ι ρ) :
    (∀ i,(s.step act x).stored i=(follow act t x i).stored i) ↔ s.Current act x := by
  have hquiet : (∀ r,x ≠ .save x.owner r) →
      ∀ i,(s.step act x).stored i=(follow act t x i).stored i := by
    intro hx i
    rw [stored_of_ne s hx,follow]
    split_ifs
    · rw [stored_of_ne (t i) hx]
      exact h.stored i
    · exact h.stored i
  cases x with
  | load j | drop j => exact iff_of_true (hquiet (by simp)) trivial
  | save j r =>
    have hother : ∀ i,i≠j → follow act t (.save j r) i=t i := fun i hi => if_neg (Ne.symm hi)
    have hown : follow act t (.save j r) j=(t j).step act (.save j r) := if_pos rfl
    constructor
    · intro hall c hc hact i hi
      have hstored := hall i
      rw [hother i hi,← h.stored i] at hstored
      obtain ⟨b,hb⟩ := Option.ne_none_iff_exists'.mp hact
      simpa [step,hc,write,hb,hi] using hstored
    · intro hcurrent i
      by_cases hi : i=j
      · subst hi
        rw [hown]
        exact h.save_own i r
      · rw [hother i hi,← h.stored i]
        cases hc : s.copies j with
        | none => simp [step,hc]
        | some c =>
          cases hb : act r (c j) with
          | none => simp [step,hc,write,hb]
          | some b =>
            have hsame := hcurrent c hc (by simp [hb]) i hi
            simp [step,hc,write,hb,hi,hsame]

theorem apart_iff (h : Apart s t) (xs : List (Access ι ρ)) :
    (∀ ys,ys <+: xs → ∀ i,(runSteps (step act) s ys).stored i =
        (runSteps (step act) (t i) (ys.filter fun x => x.owner=i)).stored i) ↔
      Meets (step act) (Current act) s xs := by
  induction xs generalizing s t with
  | nil =>
    simp only [List.prefix_nil,forall_eq,Meets,iff_true]
    exact h.stored
  | cons x xs ih =>
    have hrun : ∀ ys i,runSteps (step act) (t i) ((x::ys).filter fun x => x.owner=i) =
        runSteps (step act) (follow act t x i) (ys.filter fun x => x.owner=i) := by
      intro ys i
      by_cases hi : x.owner=i <;> simp [hi,follow]
    constructor
    · intro hall
      have hfirst : ∀ i,(s.step act x).stored i=(follow act t x i).stored i := by
        intro i
        have hone := hall [x] (by simp) i
        rw [hrun] at hone
        exact hone
      refine ⟨(h.stored_iff x).mp hfirst,(ih ⟨hfirst,h.copies_follow x⟩).mp ?_⟩
      intro ys hys i
      have hmore := hall (x::ys) (by simpa using hys) i
      rw [hrun] at hmore
      exact hmore
    · intro hmeets ys hys i
      cases ys with
      | nil => exact h.stored i
      | cons y ys =>
        obtain ⟨rfl,htail⟩ := List.cons_prefix_cons.mp hys
        have hfirst := (h.stored_iff y).mpr hmeets.1
        have hrest := (ih ⟨hfirst,h.copies_follow y⟩).mpr hmeets.2 ys htail i
        rw [hrun]
        exact hrest

end Shared
end HermEX.Framework
