import Mathlib.Tactic.SplitIfs

namespace HermEX.RulesEval

inductive TestKind where
  | content
  | property
  | bitmask
  | size
  | exist
deriving DecidableEq

/-- `unsupported` is every other code. -/
inductive RestrictionType where
  | and
  | or
  | not
  | test (kind : TestKind)
  | comment
  | null
  | unsupported (code : UInt8)
deriving DecidableEq

/-- By the Go type of its value, which need not be its type's. -/
inductive Restriction (τ : Type) where
  | list (type : RestrictionType) (kids : List (Restriction τ))
  | single (type : RestrictionType) (inner : Restriction τ)
  | comment (type : RestrictionType) (res : Option (Restriction τ))
  | test (type : RestrictionType) (kind : TestKind) (value : τ)
  | other (type : RestrictionType)

abbrev Assignment := List Bool → RestrictionType → Bool

def Assignment.head (u : Assignment) : Assignment := fun p => u (false::p)
def Assignment.tail (u : Assignment) : Assignment := fun p => u (true::p)

def Assignment.unusable (u : Assignment) (t : RestrictionType) : Bool := t=.null || u [] t

section Eval

variable {τ : Type} (test : TestKind → τ → Bool)

mutual
def evalWith (u : Assignment) : Restriction τ → Bool
  | .list t kids =>
    if t=.and then evalAll u kids else if t=.or then evalAny u kids else u.unusable t
  | .single t inner => if t=.not then !evalWith u inner else u.unusable t
  | .comment t res => if t=.comment then evalRes u res else u.unusable t
  | .test t kind value => if t=.test kind then test kind value else u.unusable t
  | .other t => u.unusable t

def evalAll (u : Assignment) : List (Restriction τ) → Bool
  | [] => true
  | r::rs => evalWith u.head r && evalAll u.tail rs

def evalAny (u : Assignment) : List (Restriction τ) → Bool
  | [] => false
  | r::rs => evalWith u.head r || evalAny u.tail rs

def evalRes (u : Assignment) : Option (Restriction τ) → Bool
  | none => true
  | some r => evalWith u r
end

def evalRestriction (r : Restriction τ) : Bool := evalWith test (fun _ t => t=.and) r

def both : Option Bool → Option Bool → Option Bool
  | some true,d => d
  | some false,_ => some false
  | none,some false => some false
  | none,_ => none

def flip (d : Option Bool) : Option Bool := d.map (!·)

def unusable (t : RestrictionType) : Option Bool := if t=.null then some true else none

mutual
def decided : Restriction τ → Option Bool
  | .list t kids =>
    if t=.and then decidedAll kids else if t=.or then flip (decidedNone kids) else unusable t
  | .single t inner => if t=.not then flip (decided inner) else unusable t
  | .comment t res => if t=.comment then decidedRes res else unusable t
  | .test t kind value => if t=.test kind then some (test kind value) else unusable t
  | .other t => unusable t

def decidedAll : List (Restriction τ) → Option Bool
  | [] => some true
  | r::rs => both (decided r) (decidedAll rs)

def decidedNone : List (Restriction τ) → Option Bool
  | [] => some true
  | r::rs => both (flip (decided r)) (decidedNone rs)

def decidedRes : Option (Restriction τ) → Option Bool
  | none => some true
  | some r => decided r
end

end Eval

def Settles (d : Option Bool) (f : Assignment → Bool) : Prop :=
  match d with
  | some b => ∀ u,f u=b
  | none => ∀ b,∃ u,f u=b

variable {τ : Type} {test : TestKind → τ → Bool} {d e : Option Bool} {f g : Assignment → Bool}

theorem Settles.flip (h : Settles d f) : Settles (flip d) fun u => !f u := by
  cases d with
  | some b => exact fun u => congrArg (!·) (h u)
  | none =>
    intro b
    obtain ⟨u,hu⟩ := h !b
    exact ⟨u,by simp [hu]⟩

theorem glue (x y : Assignment) : ∃ u : Assignment,u.head=x ∧ u.tail=y :=
  ⟨fun p => (p.headD false).rec (x p.tail) (y p.tail),rfl,rfl⟩

theorem Settles.both (hf : Settles d f) (hg : Settles e g) :
    Settles (both d e) fun u => f u.head && g u.tail := by
  have hmix (b c : Bool) (hb : ∃ u,f u=b) (hc : ∃ u,g u=c) : ∃ u : Assignment,
      (f u.head && g u.tail)=(b && c) := by
    obtain ⟨x,hx⟩ := hb
    obtain ⟨y,hy⟩ := hc
    obtain ⟨u,rfl,rfl⟩ := glue x y
    exact ⟨u,by rw [hx,hy]⟩
  cases d with
  | some b =>
    have hb : ∃ u,f u=b := ⟨fun _ _ => true,hf _⟩
    cases b with
    | false => exact fun u => by simp [hf u.head]
    | true =>
      cases e with
      | some c => exact fun u => by simp [hf u.head,hg u.tail]
      | none => exact fun c => by simpa using hmix true c hb (hg c)
  | none =>
    cases e with
    | none => exact fun b => by simpa using hmix b true (hf b) (hg true)
    | some c =>
      have hc : ∃ u,g u=c := ⟨fun _ _ => true,hg _⟩
      cases c with
      | false => exact fun u => by simp [hg u.tail]
      | true => exact fun b => by simpa using hmix b true (hf b) hc

theorem settles_unusable (t : RestrictionType) : Settles (unusable t) (·.unusable t) := by
  unfold unusable Assignment.unusable
  split_ifs with ht
  · exact fun u => by simp [ht]
  · exact fun b => ⟨fun _ _ => b,by simp [ht]⟩

theorem Settles.congr (h : Settles d f) (he : ∀ u,g u=f u) : Settles d g := by
  obtain rfl : g=f := funext he
  exact h

theorem decided_settles (test : TestKind → τ → Bool) (r : Restriction τ) :
    Settles (decided test r) (evalWith test · r) := by
  refine @Restriction.rec τ (fun r => Settles (decided test r) (evalWith test · r))
    (fun rs => Settles (decidedAll test rs) (evalAll test · rs) ∧
      Settles (decidedNone test rs) fun u => !evalAny test u rs)
    (fun o => Settles (decidedRes test o) (evalRes test · o)) ?_ ?_ ?_ ?_ ?_ ?_ ?_ ?_ ?_ r
  · rintro t kids ⟨hall,hnone⟩
    simp only [decided,evalWith]
    split_ifs
    · exact hall
    · exact hnone.flip.congr fun u => by simp
    · exact settles_unusable t
  · intro t inner ih
    simp only [decided,evalWith]
    split_ifs
    · exact ih.flip
    · exact settles_unusable t
  · intro t res ih
    simp only [decided,evalWith]
    split_ifs
    · exact ih
    · exact settles_unusable t
  · intro t kind value
    simp only [decided,evalWith]
    split_ifs
    · exact fun u => rfl
    · exact settles_unusable t
  · intro t
    simpa only [decided,evalWith] using settles_unusable t
  · exact ⟨fun u => rfl,fun u => rfl⟩
  · rintro r rs ih ⟨hall,hnone⟩
    refine ⟨ih.both hall,(ih.flip.both hnone).congr fun u => ?_⟩
    simp [evalAny]
  · exact fun u => rfl
  · exact fun r ih => ih

/-- A match is certain just when it does not rest on unsupported nodes. -/
theorem match_certain_iff (test : TestKind → τ → Bool) (r : Restriction τ) :
    (evalRestriction test r=true → ∀ u,evalWith test u r=true) ↔
      ¬(evalRestriction test r=true ∧ decided test r=none) := by
  have h := decided_settles test r
  constructor
  · rintro hcertain ⟨hmatch,hopen⟩
    rw [hopen] at h
    obtain ⟨u,hu⟩ := h false
    cases (hcertain hmatch u).symm.trans hu
  · intro hrests hmatch u
    cases hd : decided test r with
    | none => exact absurd ⟨hmatch,hd⟩ hrests
    | some b =>
      rw [hd] at h
      exact (h u).trans ((h _).symm.trans hmatch)

/-- A Not over a sub-object matches, and an And without its list. -/
theorem unsupported_matches :
    let test : TestKind → Unit → Bool := fun _ _ => false
    ∀ r∈[Restriction.single .not (.other (.unsupported 9)),.other .and],
      evalRestriction test r=true ∧ ¬∀ u,evalWith test u r=true := by
  refine List.forall_mem_cons.mpr ⟨⟨rfl,fun h => ?_⟩,List.forall_mem_singleton.mpr ⟨rfl,fun h => ?_⟩⟩
  · cases h fun _ _ => true
  · cases h fun _ _ => false

end HermEX.RulesEval
