import HermEX.Framework.Snapshots
import HermEX.Framework.Bytes
import HermEX.Framework.Runs

namespace HermEX.Rpchttp

open Framework

structure Fragment where
  callID : UInt32
  contextID : UInt16
  opnum : UInt16
  first : Bool
  last : Bool
  stub : Bytes

abbrev Reasm := Snapshot UInt32 Bytes

def maxReassembledStub : Nat := 32*2^20

def maxPendingCalls : Nat := 16

inductive Outcome where
  | complete (stub : Bytes)
  | fault
  | awaiting

def joined (m : Reasm) (f : Fragment) : Bytes :=
  if f.first then f.stub else (m.value f.callID).getD []++f.stub

def reassembleStub (m : Reasm) (f : Fragment) : Reasm×Outcome :=
  if f.first ∧ f.last then (m,.complete f.stub)
  else if f.first ∧ m.rows.length ≥ maxPendingCalls then (m,.fault)
  else if (joined m f).length > maxReassembledStub then (m.remove f.callID,.fault)
  else if f.last then (m.remove f.callID,.complete (joined m f))
  else (m.set f.callID (joined m f),.awaiting)

/-- With the fragments processed; `contexts` are bound interfaces. -/
structure RequestSession where
  contexts : UInt16 → Bool
  reasm : Reasm
  history : List (Fragment×Outcome)

namespace RequestSession

def start (contexts : UInt16 → Bool) : RequestSession := ⟨contexts,.empty,[]⟩

def step (s : RequestSession) (f : Fragment) : RequestSession :=
  let r := reassembleStub s.reasm f
  {s with reasm:=r.1,history:=s.history++[(f,r.2)]}

def handleRequest (s : RequestSession) (f : Fragment) : Option (UInt16×Bytes) :=
  match (reassembleStub s.reasm f).2 with
  | .complete stub => if s.contexts f.contextID then some (f.opnum,stub) else none
  | _ => none

def ofCall (s : RequestSession) (callID : UInt32) : List (Fragment×Outcome) :=
  s.history.filter fun e => e.1.callID=callID

/-- Consecutive fragments of a call from a FIRST on, all awaiting. -/
structure Run (zs : List (Fragment×Outcome)) (held : Bytes) : Prop where
  head : ∃ f zs',zs=(f,.awaiting)::zs' ∧ f.first=true ∧ f.last=false ∧
    ∀ e∈zs',e.1.first=false ∧ e.1.last=false ∧ e.2=.awaiting
  held : held=zs.flatMap fun e => e.1.stub

def Exact (s : RequestSession) (callID : UInt32) (stub : Bytes) : Prop :=
  ∃ zs last,zs++[(last,.complete stub)] <:+ s.ofCall callID ∧ last.last=true ∧
    ((zs=[] ∧ last.first=true ∧ stub=last.stub) ∨
      (last.first=false ∧ ∃ held,Run zs held ∧ stub=held++last.stub))

/-- A bounded number of partial calls of bounded size. -/
structure Bounded (m : Reasm) : Prop where
  calls : m.rows.length ≤ maxPendingCalls
  stub : ∀ callID held,m.value callID=some held → held.length ≤ maxReassembledStub

def Ordered (s : RequestSession) (f : Fragment) : Prop :=
  (f.first=false → s.reasm.value f.callID≠none) ∧
    (f.first=true → f.last=true ∨ s.reasm.rows.length ≥ maxPendingCalls →
      s.reasm.value f.callID=none)

/-- Each partial call is a run of its latest fragments. -/
structure Inv (s : RequestSession) : Prop where
  runs : ∀ callID held,s.reasm.value callID=some held → ∃ zs,zs <:+ s.ofCall callID ∧ Run zs held
  bounded : Bounded s.reasm

variable {s : RequestSession} {f : Fragment}

theorem Run.single (h : f.first=true) (hl : f.last=false) : Run [(f,.awaiting)] f.stub :=
  ⟨⟨f,[],rfl,h,hl,by simp⟩,by simp⟩

theorem Run.snoc {zs : List (Fragment×Outcome)} {held : Bytes} (h : Run zs held)
    (hf : f.first=false) (hl : f.last=false) :
    Run (zs++[(f,.awaiting)]) (held++f.stub) := by
  obtain ⟨g,zs',rfl,hg,hgl,hrest⟩ := h.head
  refine ⟨⟨g,zs'++[(f,.awaiting)],rfl,hg,hgl,fun e he => ?_⟩,?_⟩
  · rcases List.mem_append.mp he with he | he
    · exact hrest e he
    · obtain rfl := List.mem_singleton.mp he
      exact ⟨hf,hl,rfl⟩
  · rw [List.flatMap_append,← h.held]
    simp

theorem ofCall_step (s : RequestSession) (f : Fragment) :
    (s.step f).ofCall f.callID=s.ofCall f.callID++[(f,(reassembleStub s.reasm f).2)] := by
  simp [ofCall,step]

theorem ofCall_step_of_ne (s : RequestSession) {callID : UInt32} (h : f.callID≠callID) :
    (s.step f).ofCall callID=s.ofCall callID := by
  simp [ofCall,step,h]

theorem reassembleStub_cases (s : RequestSession) (f : Fragment) :
    (f.first=true ∧ f.last=true ∧ reassembleStub s.reasm f=(s.reasm,.complete f.stub)) ∨
    (f.first=true ∧ f.last=false ∧ s.reasm.rows.length ≥ maxPendingCalls ∧
      reassembleStub s.reasm f=(s.reasm,.fault)) ∨
    (reassembleStub s.reasm f=(s.reasm.remove f.callID,.fault)) ∨
    (f.first=false ∧ f.last=true ∧
      reassembleStub s.reasm f=(s.reasm.remove f.callID,.complete (joined s.reasm f))) ∨
    (f.last=false ∧ (f.first=true → s.reasm.rows.length < maxPendingCalls) ∧
      (joined s.reasm f).length ≤ maxReassembledStub ∧
      reassembleStub s.reasm f=(s.reasm.set f.callID (joined s.reasm f),.awaiting)) := by
  rw [reassembleStub]
  by_cases hwhole : f.first=true ∧ f.last=true
  · exact .inl ⟨hwhole.1,hwhole.2,if_pos hwhole⟩
  · rw [if_neg hwhole]
    by_cases hmany : f.first=true ∧ s.reasm.rows.length ≥ maxPendingCalls
    · refine .inr (.inl ⟨hmany.1,?_,hmany.2,if_pos hmany⟩)
      simpa [hmany.1] using hwhole
    · rw [if_neg hmany]
      by_cases hlong : (joined s.reasm f).length > maxReassembledStub
      · exact .inr (.inr (.inl (if_pos hlong)))
      · rw [if_neg hlong]
        by_cases hlast : f.last=true
        · refine .inr (.inr (.inr (.inl ⟨?_,hlast,if_pos hlast⟩)))
          simpa [hlast] using hwhole
        · refine .inr (.inr (.inr (.inr ⟨by simpa using hlast,fun hf => ?_,by omega,if_neg hlast⟩)))
          have hroom : ¬s.reasm.rows.length ≥ maxPendingCalls := fun hn => hmany ⟨hf,hn⟩
          omega

theorem Inv.joined (h : s.Inv) (ho : s.Ordered f) (hf : f.first=false) :
    ∃ zs held,zs <:+ s.ofCall f.callID ∧ Run zs held ∧ joined s.reasm f=held++f.stub := by
  obtain ⟨held,hheld⟩ := Option.ne_none_iff_exists'.mp (ho.1 hf)
  obtain ⟨zs,hzs,hrun⟩ := h.runs f.callID held hheld
  exact ⟨zs,held,hzs,hrun,by simp [Rpchttp.joined,hf,hheld]⟩

theorem Bounded.remove {m : Reasm} (h : Bounded m) (callID : UInt32) :
    Bounded (m.remove callID) := by
  refine ⟨Nat.le_trans (Snapshot.length_remove _ _) h.calls,fun c held hheld => ?_⟩
  rw [Snapshot.value_remove] at hheld
  split_ifs at hheld
  exact h.stub c held hheld

theorem Bounded.set {m : Reasm} (h : Bounded m) {callID : UInt32} {stub : Bytes}
    (hroom : m.value callID=none → m.rows.length < maxPendingCalls)
    (hlong : stub.length ≤ maxReassembledStub) : Bounded (m.set callID stub) := by
  constructor
  · rw [Snapshot.length_set]
    by_cases hvalue : m.value callID=none
    · exact Nat.lt_of_le_of_lt (Snapshot.length_remove _ _) (hroom hvalue)
    · exact Nat.lt_of_lt_of_le (Snapshot.length_remove_lt hvalue) h.calls
  · intro c held hheld
    rw [Snapshot.value_set] at hheld
    split_ifs at hheld
    · cases hheld
      exact hlong
    · exact h.stub c held hheld

theorem Inv.others (h : s.Inv) (hbounded : Bounded (s.step f).reasm)
    (hother : ∀ callID,callID≠f.callID → (s.step f).reasm.value callID=s.reasm.value callID)
    (hown : ∀ held,(s.step f).reasm.value f.callID=some held →
      ∃ zs,zs <:+ (s.step f).ofCall f.callID ∧ Run zs held) : (s.step f).Inv := by
  refine ⟨fun callID held hheld => ?_,hbounded⟩
  by_cases hc : callID=f.callID
  · subst hc
    exact hown held hheld
  · rw [hother callID hc] at hheld
    rw [ofCall_step_of_ne s fun he => hc he.symm]
    exact h.runs callID held hheld

theorem Inv.step (h : s.Inv) (ho : s.Ordered f) : (s.step f).Inv := by
  have hreasm : (s.step f).reasm=(reassembleStub s.reasm f).1 := rfl
  have hsame : (reassembleStub s.reasm f).1=s.reasm → s.reasm.value f.callID=none →
      (s.step f).Inv := by
    intro hkept hfree
    rw [hkept] at hreasm
    refine h.others (hreasm ▸ h.bounded) (fun _ _ => by rw [hreasm]) fun held hheld => ?_
    rw [hreasm,hfree] at hheld
    cases hheld
  have hremove : (reassembleStub s.reasm f).1=s.reasm.remove f.callID → (s.step f).Inv := by
    intro hremoved
    rw [hremoved] at hreasm
    refine h.others (hreasm ▸ h.bounded.remove _) (fun c hc => ?_) fun held hheld => ?_
    · rw [hreasm,Snapshot.value_remove,if_neg hc]
    · rw [hreasm,Snapshot.value_remove,if_pos rfl] at hheld
      cases hheld
  rcases reassembleStub_cases s f with ⟨hf,hl,hr⟩ | ⟨hf,-,hmany,hr⟩ | hr | ⟨-,-,hr⟩ | ⟨hl,hroom,hlong,hr⟩
  · exact hsame (by rw [hr]) (ho.2 hf (.inl hl))
  · exact hsame (by rw [hr]) (ho.2 hf (.inr hmany))
  · exact hremove (by rw [hr])
  · exact hremove (by rw [hr])
  · rw [hr] at hreasm
    refine h.others ?_ (fun c hc => ?_) fun held hheld => ?_
    · rw [hreasm]
      refine h.bounded.set (fun hfree => ?_) hlong
      cases hf : f.first with
      | false => exact absurd hfree (ho.1 hf)
      | true => exact hroom hf
    · rw [hreasm,Snapshot.value_set,if_neg hc]
    · rw [hreasm,Snapshot.value_set,if_pos rfl] at hheld
      cases hheld
      rw [ofCall_step,hr]
      cases hf : f.first with
      | false =>
        obtain ⟨zs,held,⟨ys,hys⟩,hrun,hjoined⟩ := h.joined ho hf
        refine ⟨zs++[(f,.awaiting)],⟨ys,?_⟩,hjoined ▸ hrun.snoc hf hl⟩
        rw [← hys,List.append_assoc]
      | true =>
        have hjoined : Rpchttp.joined s.reasm f=f.stub := by simp [Rpchttp.joined,hf]
        exact ⟨[(f,.awaiting)],List.suffix_append _ _,hjoined ▸ Run.single hf hl⟩

theorem Inv.exact (h : s.Inv) (ho : s.Ordered f) {stub : Bytes}
    (hstub : (reassembleStub s.reasm f).2=.complete stub) : (s.step f).Exact f.callID stub := by
  have hcall := ofCall_step s f
  rw [hstub] at hcall
  rcases reassembleStub_cases s f with ⟨hf,hl,hr⟩ | ⟨-,-,-,hr⟩ | hr | ⟨hf,hl,hr⟩ | ⟨-,-,-,hr⟩
  · rw [hr] at hstub
    cases hstub
    exact ⟨[],f,hcall ▸ List.suffix_append _ _,hl,.inl ⟨rfl,hf,rfl⟩⟩
  · rw [hr] at hstub
    cases hstub
  · rw [hr] at hstub
    cases hstub
  · rw [hr] at hstub
    cases hstub
    obtain ⟨zs,held,⟨ys,hys⟩,hrun,hjoined⟩ := h.joined ho hf
    refine ⟨zs,f,?_,hl,.inr ⟨hf,held,hrun,hjoined⟩⟩
    rw [hcall,← hys,List.append_assoc]
    exact List.suffix_append _ _
  · rw [hr] at hstub
    cases hstub

theorem Inv.start (contexts : UInt16 → Bool) : (start contexts).Inv := by
  refine ⟨fun _ _ h => ?_,Nat.zero_le _,fun _ _ h => ?_⟩
  · cases h
  · cases h

theorem complete_of_handleRequest {call : UInt16×Bytes} (h : s.handleRequest f=some call) :
    (reassembleStub s.reasm f).2=.complete call.2 := by
  rw [handleRequest] at h
  cases hr : (reassembleStub s.reasm f).2 with
  | complete stub =>
    simp only [hr] at h
    split_ifs at h
    cases h
    rfl
  | fault | awaiting =>
    simp only [hr] at h
    cases h

end RequestSession

/-- In ordered runs handlers get a call from FIRST to LAST, and what is held is bounded. -/
theorem reassembly_exact (contexts : UInt16 → Bool) (xs : List Fragment) (f : Fragment)
    (h : Meets RequestSession.step RequestSession.Ordered (.start contexts) (xs ++ [f])) :
    (∀ call,(runSteps RequestSession.step (.start contexts) xs).handleRequest f = some call →
        (runSteps RequestSession.step (.start contexts) (xs ++ [f])).Exact f.callID call.2) ∧
      RequestSession.Bounded (runSteps RequestSession.step (.start contexts) (xs ++ [f])).reasm := by
  obtain ⟨hrun,hlast,-⟩ := meets_append.mp h
  have hinv := hrun.invariant (fun _ _ hs ho => hs.step ho) (RequestSession.Inv.start contexts)
  rw [runSteps_append]
  refine ⟨fun call hcall => ?_,(hinv.step hlast).bounded⟩
  exact hinv.exact hlast (RequestSession.complete_of_handleRequest hcall)

theorem reassembly_exact_interleaved :
    let a : Fragment := ⟨1,0,3,true,false,[0x41]⟩
    let b : Fragment := ⟨2,0,3,true,true,[0x58]⟩
    let c : Fragment := ⟨1,0,3,false,true,[0x42]⟩
    (runSteps RequestSession.step (.start fun _ => true) [a,b]).handleRequest c =
        some (3,[0x41,0x42]) ∧
      (runSteps RequestSession.step (.start fun _ => true) [a,b,c]).Exact 1 [0x41,0x42] := by
  intro a b c
  have hordered : Meets RequestSession.step RequestSession.Ordered (.start fun _ => true)
      ([a,b]++[c]) := by
    refine ⟨⟨?_,?_⟩,⟨?_,?_⟩,⟨?_,?_⟩,trivial⟩ <;> decide
  have hcall : (runSteps RequestSession.step (.start fun _ => true) [a,b]).handleRequest c =
      some (3,[0x41,0x42]) := by decide
  exact ⟨hcall,(reassembly_exact (fun _ => true) [a,b] c hordered).1 _ hcall⟩

/-- A fragment of a call that never began reaches the handler. -/
theorem orphan_dispatched :
    let f : Fragment := ⟨1,0,3,false,true,[0x58]⟩
    (RequestSession.start fun _ => true).handleRequest f = some (3,[0x58]) ∧
      ((RequestSession.start fun _ => true).step f).history.all (fun e => !e.1.first) = true := by
  decide

end HermEX.Rpchttp
