import HermEX.Framework.RangeSet
import HermEX.Mapi.Types

namespace HermEX.Ics

open Framework Mapi

/-- How a set is keyed, and if it is in serialized form. -/
inductive Form where
  | idPacked
  | idLoose
  | guidPacked
  | guidLoose
deriving DecidableEq

def Form.packed : Form → Bool
  | .idPacked | .guidPacked => true
  | .idLoose | .guidLoose => false

/-- One replica's ranges; the GUID is set in the packed form only. -/
structure ReplNode where
  replid : UInt16
  replguid : GUID
  ranges : RangeSet
deriving DecidableEq

structure IDSet where
  form : Form
  repls : List ReplNode
deriving DecidableEq

namespace IDSet

def new (form : Form) : IDSet := ⟨form,[]⟩

def isEmpty (s : IDSet) : Bool := s.repls.all fun n => n.ranges.isEmpty

def insertRange (replid : UInt16) (lo hi : Nat) : List ReplNode → List ReplNode
  | [] => [⟨replid,.zero,RangeSet.empty.insert lo hi⟩]
  | n::ns => if n.replid=replid then {n with ranges:=n.ranges.insert lo hi}::ns
      else n::insertRange replid lo hi ns

def appendRange (s : IDSet) (replid : UInt16) (lo hi : Nat) : Option IDSet :=
  if s.form.packed ∨ hi<lo then none else some {s with repls:=insertRange replid lo hi s.repls}

def append (s : IDSet) (e : EID) : Option IDSet := s.appendRange e.replID e.gcValue e.gcValue

def contains (s : IDSet) (e : EID) : Bool :=
  if s.form=.guidPacked then false
  else match s.repls.find? fun n => n.replid=e.replID with
    | some n => n.ranges.contains e.gcValue
    | none => false

def forEachRange (s : IDSet) : List (UInt16×Nat×Nat) :=
  s.repls.flatMap fun n => n.ranges.nodes.map fun r => (n.replid,r.lo,r.hi)

/-- At most one block, of replica `r`, with the members of `P`. -/
structure Single (s : IDSet) (r : UInt16) (P : Nat → Prop) : Prop where
  loose : s.form=.guidLoose
  repl : ∀ n∈s.repls,n.replid=r
  one : s.repls.length≤1
  mem : ∀ v,(∃ n∈s.repls,n.ranges.contains v=true) ↔ P v

variable {s : IDSet} {r : UInt16} {P : Nat → Prop}

theorem single_new (r : UInt16) : (new .guidLoose).Single r fun _ => False :=
  ⟨rfl,by simp [new],by simp [new],by simp [new]⟩

theorem Single.contains_iff (h : s.Single r P) (v : Nat) :
    s.contains (makeEIDEx r v)=true ↔ P v := by
  rw [← h.mem]
  have hl : s.form≠.guidPacked := by rw [h.loose]; decide
  unfold contains
  rw [if_neg hl]
  cases hs : s.repls with
  | nil => simp
  | cons n ns =>
    have hn : ns=[] := by
      have := h.one
      rw [hs] at this
      exact List.length_eq_zero_iff.mp (by simp only [List.length_cons] at this; omega)
    have hr : n.replid=r := h.repl n (by simp [hs])
    simp [hn,hr,makeEIDEx]

theorem Single.appendRange (h : s.Single r P) {lo hi : Nat} (hlo : lo≤hi) :
    ∃ s',s.appendRange r lo hi=some s' ∧ s'.Single r fun v => P v ∨ (lo≤v ∧ v≤hi) := by
  have hl : ¬(s.form.packed=true ∨ hi<lo) := by
    rw [h.loose]
    simp [Form.packed,hlo]
  refine ⟨_,if_neg hl,h.loose,?_,?_,?_⟩
  · intro n hn
    cases hs : s.repls with
    | nil => simp_all [insertRange]
    | cons m ms =>
      have hm : m.replid=r := h.repl m (by simp [hs])
      have hr := h.repl
      rw [hs] at hr
      simp only [hs,insertRange,hm,if_true,List.mem_cons] at hn
      rcases hn with rfl | hn
      · rfl
      · exact hr n (by simp [hn])
  · have := h.one
    cases hs : s.repls with
    | nil => simp [insertRange]
    | cons m ms =>
      have hm : m.replid=r := h.repl m (by simp [hs])
      simp only [hs] at this
      simp only [insertRange,hm,if_true]
      omega
  · intro v
    rw [← h.mem v]
    cases hs : s.repls with
    | nil =>
      have he : RangeSet.empty.contains v=false := rfl
      simp [insertRange,RangeSet.contains_insert,he]
    | cons m ms =>
      have hm : m.replid=r := h.repl m (by simp [hs])
      have hn : ms=[] := by
        have := h.one
        rw [hs] at this
        exact List.length_eq_zero_iff.mp (by simp only [List.length_cons] at this; omega)
      simp [insertRange,hm,hn,RangeSet.contains_insert]

theorem Single.mem_forEachRange (h : s.Single r P) (v : Nat) :
    (∃ x∈s.forEachRange,v∈List.range' x.2.1 (x.2.2+1-x.2.1)) ↔ P v := by
  rw [← h.mem]
  simp only [forEachRange,List.mem_flatMap,List.mem_map,RangeSet.contains_iff]
  constructor
  · rintro ⟨x,⟨n,hn,nd,hnd,rfl⟩,hv⟩
    simp only [List.mem_range'_1] at hv
    exact ⟨n,hn,nd,hnd,by omega,by omega⟩
  · rintro ⟨n,hn,nd,hnd,hlo,hhi⟩
    refine ⟨_,⟨n,hn,nd,hnd,rfl⟩,?_⟩
    simp only [List.mem_range'_1]
    omega

theorem Single.replid_forEachRange (h : s.Single r P) {x : UInt16×Nat×Nat}
    (hx : x∈s.forEachRange) : x.1=r := by
  simp only [forEachRange,List.mem_flatMap,List.mem_map] at hx
  obtain ⟨n,hn,nd,-,rfl⟩ := hx
  exact h.repl n hn

end IDSet
end HermEX.Ics
