import HermEX.Mapihttp.Sessions
import HermEX.Rop.Notify

namespace HermEX.Mapihttp

open Framework Mapi Rpchttp Rop

/-- The objects behind the handles, and the waiting events. -/
structure NotifySession (σ : Type) where
  graph : σ
  pending : List QueuedNotify

/-- The ROPs behind the handles; `enqueueChanges` are the polled events. -/
structure ObjectGraph (σ : Type) where
  newSession : (mailbox user : String) → Rpchttp.Locale → σ
  decodeExecute : Bytes → Option (Bytes×List UInt32)
  runRops : σ → Bytes → List UInt32 → (Bytes×List UInt32)×σ
  enqueueChanges : σ → List QueuedNotify×σ
  get : σ → UInt32 → Bool

theorem infix_encodeExecute (rops : Bytes) (handles : List UInt32) :
    rops <:+: encodeExecute rops handles := by
  exact List.IsInfix.trans ⟨_,_,rfl⟩ (List.suffix_append _ _).isInfix

namespace ObjectGraph

variable {σ : Type} (G : ObjectGraph σ)

/-- The state after the batch, and the events offered to the drain. -/
structure Batch (σ : Type) where
  out : Bytes
  handles : List UInt32
  graph : σ
  offered : List QueuedNotify

def batch (s : NotifySession σ) (rops : Bytes) (handles : List UInt32) : Batch σ :=
  let ran := G.runRops s.graph rops handles
  let found := G.enqueueChanges ran.2
  ⟨ran.1.1,ran.1.2,found.2,s.pending++found.1⟩

def dispatch (s : NotifySession σ) (rops : Bytes) (handles : List UInt32) :
    (Bytes×List UInt32)×NotifySession σ :=
  let b := G.batch s rops handles
  let (out,pending) := drainNotifications (G.get b.graph) b.out b.offered
  ((out,b.handles),⟨b.graph,pending⟩)

def pollForChange (s : NotifySession σ) : Bool×NotifySession σ :=
  let (events,graph) := G.enqueueChanges s.graph
  let pending := s.pending++events
  (!pending.isEmpty,⟨graph,pending⟩)

def ropLayer : RopLayer (NotifySession σ) where
  newSession mailbox user locale := ⟨G.newSession mailbox user locale,[]⟩
  decodeExecute := G.decodeExecute
  dispatch := G.dispatch
  encodeExecute := encodeExecute
  pollForChange := G.pollForChange

def carried (ropBuf : Bytes) : Option (Bytes×List UInt32) :=
  if ropBuf=[] then none else G.decodeExecute ropBuf

end ObjectGraph

/-- How a request came in; an RPC caller bounds the answer. -/
inductive Transport where
  | mapihttp
  | rpchttp (cbOut : UInt32)

def Transport.fits : Transport → Nat → Bool
  | .mapihttp,size => size ≤ maxROPBuffer
  | .rpchttp cbOut,size => size ≤ maxROPBuffer && size+8 ≤ cbOut.toNat

/-- The session before and after, what was asked, and the buffer returned. -/
structure Execute (σ : Type) where
  before : NotifySession σ
  after : NotifySession σ
  rops : Bytes
  handles : List UInt32
  returned : Bytes

section Calls

variable {σ : Type} (G : ObjectGraph σ)

/-- The calls that reach the ROPs of a session. -/
inductive Executes : Transport → Execute σ → Prop
  | emsExecute {s s' : SessionStore (NotifySession σ)} {c : HttpCaller} {sid seq newSeq : String}
      {body rops ropBuffer : Bytes} {handles : List UInt32} {code : UInt32} {touched : List Touch}
      {ctx ctx' : SessionContext (NotifySession σ)}
      (hcall : emsExecute G.ropLayer s c (some sid) (some seq) body newSeq =
        (.executed newSeq code ropBuffer,s',touched))
      (hreq : (executeBody body).bind G.carried=some (rops,handles))
      (hbefore : s.m.get sid=some ctx) (hafter : s'.m.get sid=some ctx') :
      Executes .mapihttp ⟨ctx.ropSess,ctx'.ropSess,rops,handles,ropBuffer⟩
  | rpcExt2 {e e' : EMSMDB (NotifySession σ)} {c : Caller} {stub rops pout : Bytes}
      {r : RpcExt2In} {handles : List UInt32} {result : UInt32} {touched : List Touch}
      {s s' : EmsmdbSession (NotifySession σ)}
      (hcall : e.rpcExt2 G.ropLayer c stub=(.executed r.cxh pout result,e',touched))
      (hstub : pullRpcExt2 stub=.ok r) (hreq : G.carried r.pin=some (rops,handles))
      (hbefore : e.sessions.get r.cxh.guid=some s)
      (hafter : e'.sessions.get r.cxh.guid=some s') :
      Executes (.rpchttp r.cbOut) ⟨s.rop,s'.rop,rops,handles,pout⟩

namespace Execute

def batch (x : Execute σ) : ObjectGraph.Batch σ := G.batch x.before x.rops x.handles

/-- Events left released, without a wire form, or in the buffer returned. -/
def NoneDropped (x : Execute σ) : Prop :=
  ∃ gone,(x.batch G).offered=gone++x.after.pending ∧ ∀ qn∈gone,
    G.get x.after.graph qn.handle=false ∨ qn.notify=none ∨ ∃ b,qn.notify=some b ∧ b <:+: x.returned

/-- The response with its events is returned, or has none. -/
def Roomy (t : Transport) (x : Execute σ) : Prop :=
  let b := x.batch G
  let sizes := wireSizes (G.get b.graph) b.offered
  taken b.out.length sizes=[] ∨ t.fits (answerSize b.out.length sizes b.handles.length)=true

end Execute

variable {G}

variable {rops : Bytes} {s₁ s : SessionStore (NotifySession σ)} {newSeq sid seq : String}
  {ctx : SessionContext (NotifySession σ)} {handles : List UInt32} {touched : List Touch}

theorem carried_eq_some {ropBuf : Bytes} (h : G.carried ropBuf=some (rops,handles)) :
    ropBuf≠[] ∧ G.decodeExecute ropBuf=some (rops,handles) := by
  rw [ObjectGraph.carried] at h
  by_cases hnil : ropBuf=[]
  · rw [if_pos hnil] at h
    cases h
  · rw [if_neg hnil] at h
    exact ⟨hnil,h⟩

theorem emsExecute_runs {c : HttpCaller} {body answer : Bytes} {outHandles : List UInt32}
    {after : NotifySession σ} (hexec : s.execute sid seq c.user newSeq c.now=.ok (ctx,s₁))
    (hreq : (executeBody body).bind G.carried=some (rops,handles))
    (hrun : G.dispatch ctx.ropSess rops handles=((answer,outHandles),after)) :
    emsExecute G.ropLayer s c (some sid) (some seq) body newSeq =
      (if ropBufferSize answer outHandles > maxROPBuffer then .executed newSeq ecResponseTooBig []
        else .executed newSeq 0 (encodeExecute answer outHandles),
        s₁.update ctx.sid (fun c => {c with ropSess:=after}) fun _ => rfl,
        [⟨.runs,ctx.user⟩]) := by
  obtain ⟨ropBuf,hbody,hcar⟩ := Option.bind_eq_some_iff.mp hreq
  obtain ⟨hnil,hdec⟩ := carried_eq_some hcar
  have hlayer : G.ropLayer.decodeExecute ropBuf=some (rops,handles) := hdec
  have hdisp : G.ropLayer.dispatch ctx.ropSess rops handles=((answer,outHandles),after) := hrun
  simp only [emsExecute,hexec,hbody,if_neg hnil,hlayer,hdisp]
  rfl

theorem execute_checked {user : String} {now : Nat}
    (h : s.execute sid seq user newSeq now=.ok (ctx,s₁)) :
    s.m.get sid=some ctx ∧
    s₁=s.update sid (fun c => {c with sequence:=newSeq,lastSeen:=now}) fun _ => rfl := by
  rw [SessionStore.execute] at h
  cases hget : s.m.get sid with
  | none => simp [hget] at h
  | some c =>
    simp only [hget] at h
    split_ifs at h
    obtain ⟨rfl,rfl⟩ := Prod.mk.inj (Except.ok.inj h)
    exact ⟨rfl,rfl⟩

theorem get_update {f : SessionContext (NotifySession σ) → SessionContext (NotifySession σ)}
    {hf : ∀ c,(f c).sid=c.sid} (h : s.m.get sid=some ctx) :
    (s.update sid f hf).m.get sid=some (f ctx) := by
  have hsid : ctx.sid=sid := (Table.get_eq_some.mp h).2
  rw [SessionStore.update,Table.get_updateWhere,h]
  simp [hsid]

def Execute.Ran (G : ObjectGraph σ) (t : Transport) (x : Execute σ) : Prop :=
  ∃ answer handles,G.dispatch x.before x.rops x.handles=((answer,handles),x.after) ∧
    x.returned=if t.fits (ropBufferSize answer handles) then encodeExecute answer handles else []

theorem emsExecute_ran {s' : SessionStore (NotifySession σ)} {c : HttpCaller}
    {body ropBuffer : Bytes} {code : UInt32} {ctx' : SessionContext (NotifySession σ)}
    (hcall : emsExecute G.ropLayer s c (some sid) (some seq) body newSeq =
      (.executed newSeq code ropBuffer,s',touched))
    (hreq : (executeBody body).bind G.carried=some (rops,handles)) (hbefore : s.m.get sid=some ctx)
    (hafter : s'.m.get sid=some ctx') :
    Execute.Ran G .mapihttp ⟨ctx.ropSess,ctx'.ropSess,rops,handles,ropBuffer⟩ := by
  obtain ⟨⟨⟨answer,outHandles⟩,after⟩,hrun⟩ : ∃ d,G.dispatch ctx.ropSess rops handles=d := ⟨_,rfl⟩
  cases hexec : s.execute sid seq c.user newSeq c.now with
  | error code => simp [emsExecute,hexec] at hcall
  | ok found =>
    obtain ⟨ctx₀,s₁⟩ := found
    obtain ⟨hget,hs₁⟩ := execute_checked hexec
    obtain rfl : ctx=ctx₀ := Option.some.inj (hbefore.symm.trans hget)
    rw [emsExecute_runs hexec hreq hrun] at hcall
    obtain ⟨hreply,hrest⟩ := Prod.mk.inj hcall
    have hsid : ctx.sid=sid := (Table.get_eq_some.mp hget).2
    have hget₁ : s₁.m.get sid=some {ctx with sequence:=newSeq,lastSeen:=c.now} := by
      rw [hs₁]
      exact get_update hget
    have hget₂ : (s₁.update sid (fun c => {c with ropSess:=after}) fun _ => rfl).m.get sid =
        some {ctx with sequence:=newSeq,lastSeen:=c.now,ropSess:=after} := get_update hget₁
    rw [← (Prod.mk.inj hrest).1,hsid,hget₂] at hafter
    have hrop : after=ctx'.ropSess :=
      congrArg SessionContext.ropSess (Option.some.inj hafter)
    refine ⟨answer,outHandles,by rw [hrun,hrop],?_⟩
    by_cases hbig : ropBufferSize answer outHandles > maxROPBuffer
    · rw [if_pos hbig] at hreply
      rw [if_neg (by simpa [Transport.fits] using hbig)]
      exact (HttpReply.executed.inj hreply).2.2.symm
    · rw [if_neg hbig] at hreply
      rw [if_pos (by simpa [Transport.fits] using hbig)]
      exact (HttpReply.executed.inj hreply).2.2.symm

theorem rpcExt2_ran {e e' : EMSMDB (NotifySession σ)} {c : Caller} {stub pout : Bytes}
    {r : RpcExt2In} {result : UInt32} {s s' : EmsmdbSession (NotifySession σ)}
    (hcall : e.rpcExt2 G.ropLayer c stub=(.executed r.cxh pout result,e',touched))
    (hstub : pullRpcExt2 stub=.ok r) (hreq : G.carried r.pin=some (rops,handles))
    (hbefore : e.sessions.get r.cxh.guid=some s) (hafter : e'.sessions.get r.cxh.guid=some s') :
    Execute.Ran G (.rpchttp r.cbOut) ⟨s.rop,s'.rop,rops,handles,pout⟩ := by
  obtain ⟨⟨⟨answer,outHandles⟩,after⟩,hrun⟩ : ∃ d,G.dispatch s.rop rops handles=d := ⟨_,rfl⟩
  obtain ⟨hnil,hdec⟩ := carried_eq_some hreq
  have hlayer : G.ropLayer.decodeExecute r.pin=some (rops,handles) := hdec
  have hdisp : G.ropLayer.dispatch s.rop rops handles=((answer,outHandles),after) := hrun
  have hguid : s.guid=r.cxh.guid := (Table.get_eq_some.mp hbefore).2
  simp only [EMSMDB.rpcExt2,hstub,EMSMDB.lookup,hbefore,if_neg hnil,hlayer,hdisp] at hcall
  obtain ⟨hreply,hrest⟩ := Prod.mk.inj hcall
  have hleft := (Prod.mk.inj hrest).1
  have hrop : after=s'.rop := by
    rw [← hleft,EMSMDB.updateSession,EMSMDB.updateSession,Table.get_updateWhere,
      Table.get_updateWhere,hbefore] at hafter
    simp only [hguid,Option.map_some,decide_true,if_true] at hafter
    exact congrArg EmsmdbSession.rop (Option.some.inj hafter)
  refine ⟨answer,outHandles,by rw [hrun,hrop],?_⟩
  by_cases hbig : ropBufferSize answer outHandles > maxROPBuffer ∨
      ropBufferSize answer outHandles+8 > r.cbOut.toNat
  · rw [if_pos hbig] at hreply
    have hfits : ¬Transport.fits (.rpchttp r.cbOut) (ropBufferSize answer outHandles)=true := by
      simp only [Transport.fits,Bool.and_eq_true,decide_eq_true_eq]
      omega
    rw [if_neg hfits]
    exact (Reply.executed.inj hreply).2.1.symm
  · rw [if_neg hbig] at hreply
    have hfits : Transport.fits (.rpchttp r.cbOut) (ropBufferSize answer outHandles)=true := by
      simp only [Transport.fits,Bool.and_eq_true,decide_eq_true_eq]
      omega
    rw [if_pos hfits]
    exact (Reply.executed.inj hreply).2.1.symm

theorem Executes.ran {t : Transport} {x : Execute σ} (h : Executes G t x) : x.Ran G t := by
  cases h with
  | emsExecute hcall hreq hbefore hafter => exact emsExecute_ran hcall hreq hbefore hafter
  | rpcExt2 hcall hstub hreq hbefore hafter => exact rpcExt2_ran hcall hstub hreq hbefore hafter

end Calls

def emptyBatch : ObjectGraph Unit where
  newSession _ _ _ := ()
  decodeExecute := decodeExecute fun _ _ => none
  runRops g rops handles := ((rops,handles),g)
  enqueueChanges g := ([],g)
  get _ _ := true

def oneSession (pending : List QueuedNotify) : SessionContext (NotifySession Unit) :=
  ⟨"sid","first","first","seq",⟨(),pending⟩,0,0⟩

def executeRequest : Bytes := put32 0++put32 14++encodeExecute [] [1]++put32 0

theorem emptyBatch_executes (pending : List QueuedNotify) :
    ∃ x,Executes emptyBatch .mapihttp x ∧ x.before=⟨(),pending⟩ ∧ x.rops=[] ∧ x.handles=[1] := by
  let s : SessionStore (NotifySession Unit) := ⟨.single (oneSession pending),0⟩
  have hget : s.m.get "sid" = some (oneSession pending) :=
    Table.get_eq_some.mpr ⟨List.mem_singleton_self _,rfl⟩
  have hexec : s.execute "sid" "seq" "first" "next" 0=.ok (oneSession pending,
      s.update "sid" (fun c => {c with sequence:="next",lastSeen:=0}) fun _ => rfl) := by
    rw [SessionStore.execute,hget]
    simp [SessionStore.tooOld,s,oneSession]
  have hreq : (executeBody executeRequest).bind emptyBatch.carried=some ([],[1]) := by decide
  obtain ⟨⟨⟨answer,handles⟩,after⟩,hrun⟩ : ∃ d,emptyBatch.dispatch ⟨(),pending⟩ [] [1]=d := ⟨_,rfl⟩
  have hcall := emsExecute_runs (c := ⟨"first","first",0⟩) hexec hreq hrun
  by_cases hbig : ropBufferSize answer handles > maxROPBuffer
  · rw [if_pos hbig] at hcall
    exact ⟨_,.emsExecute hcall hreq hget (get_update (get_update hget)),rfl,rfl,rfl⟩
  · rw [if_neg hbig] at hcall
    exact ⟨_,.emsExecute hcall hreq hget (get_update (get_update hget)),rfl,rfl,rfl⟩

def messageCreated (id : Nat) : QueuedNotify :=
  ⟨1,0,{flags:=fnevObjectCreated ||| nfByMessage,messageID:=UInt64.ofNat id}⟩

def burst (n : Nat) : List QueuedNotify := (List.range n).map messageCreated

theorem wire_messageCreated (id : Nat) :
    ∃ b,(messageCreated id).wire (fun _ => true)=some b ∧ b.length=26 := by
  have hflag : ∀ mask,(messageCreated id).n.has mask =
      decide ((fnevObjectCreated ||| nfByMessage) &&& mask≠0) := fun _ => rfl
  have hflags : (messageCreated id).n.flags=fnevObjectCreated ||| nfByMessage := rfl
  have htags : (messageCreated id).n.proptags=[] := rfl
  simp +decide [QueuedNotify.wire,QueuedNotify.notify,pushNotify,hflag,hflags,htags,presentIf,
    present,pushObjectIDs,pushMoveCopyIDs,pushCounts,pushPropTags]

theorem wireSizes_burst (n : Nat) :
    wireSizes (fun _ => true) (burst n)=List.replicate n 26 := by
  induction n with
  | zero => rfl
  | succ n ih =>
    obtain ⟨b,hb,hlength⟩ := wire_messageCreated n
    rw [burst,List.range_succ,List.map_append,Drained.wireSizes_append,List.replicate_succ']
    refine congrArg₂ _ ih ?_
    rw [List.map_singleton,wireSizes,List.filterMap_cons_some hb,List.filterMap_nil,
      List.map_singleton,hlength]

section Kept

variable {σ : Type} {G : ObjectGraph σ} {t : Transport} {x : Execute σ}

theorem Execute.Ran.drained (h : x.Ran G t) :
    (x.batch G).graph=x.after.graph ∧ ∃ gone answer handles,
      Drained (G.get (x.batch G).graph) (x.batch G).out (x.batch G).offered gone
        x.after.pending answer ∧
      x.returned=if t.fits (answerSize (x.batch G).out.length
        (wireSizes (G.get (x.batch G).graph) (x.batch G).offered) (x.batch G).handles.length)
        then encodeExecute answer handles else [] := by
  obtain ⟨answer,handles,hrun,hreturned⟩ := h
  obtain ⟨gone,hd⟩ := drain_drained (G.get (x.batch G).graph) (x.batch G).out (x.batch G).offered
  obtain ⟨hanswer,hafter⟩ := Prod.mk.inj hrun
  obtain ⟨houtput,hhandles⟩ := Prod.mk.inj hanswer
  have hrest : (drainNotifications (G.get (x.batch G).graph) (x.batch G).out
      (x.batch G).offered).2=x.after.pending := congrArg NotifySession.pending hafter
  have hout : (drainNotifications (G.get (x.batch G).graph) (x.batch G).out
      (x.batch G).offered).1=answer := houtput
  have hlist : (x.batch G).handles=handles := hhandles
  rw [hrest,hout] at hd
  have hsize := hd.length_answer handles
  rw [hsize,← hlist] at hreturned
  exact ⟨congrArg NotifySession.graph hafter,gone,answer,_,hd,hreturned⟩

theorem Execute.Ran.dropped (h : x.Ran G t) (hroom : ¬x.Roomy G t) :
    x.returned=[] ∧ ¬x.NoneDropped G := by
  obtain ⟨hgraph,gone,answer,handles,hd,hreturned⟩ := h.drained
  obtain ⟨hsome,hbig⟩ := not_or.mp hroom
  rw [if_neg hbig] at hreturned
  refine ⟨hreturned,?_⟩
  rintro ⟨gone',hsplit,hall⟩
  obtain rfl : gone'=gone := List.append_cancel_right (hsplit.symm.trans hd.split)
  obtain ⟨qn,b,hq,hwire⟩ := hd.exists_gone hsome
  obtain ⟨hopen,hb⟩ := QueuedNotify.wire_eq_some.mp hwire
  rw [hgraph] at hopen
  rcases hall qn hq with hreleased | hnone | ⟨b',hb',hin⟩
  · rw [hopen] at hreleased
    cases hreleased
  · rw [hb] at hnone
    cases hnone
  · rw [hreturned] at hin
    exact notify_ne_nil hb' (List.eq_nil_of_infix_nil hin)

theorem Execute.Ran.kept (h : x.Ran G t) (hroom : x.Roomy G t) : x.NoneDropped G := by
  obtain ⟨hgraph,gone,answer,handles,hd,hreturned⟩ := h.drained
  refine ⟨gone,hd.split,fun qn hq => ?_⟩
  rw [← hgraph]
  cases hopen : G.get (x.batch G).graph qn.handle with
  | false => exact .inl rfl
  | true =>
    cases hb : qn.notify with
    | none => exact .inr (.inl rfl)
    | some b =>
      have hwire := QueuedNotify.wire_eq_some.mpr ⟨hopen,hb⟩
      refine .inr (.inr ⟨b,rfl,?_⟩)
      rcases hroom with hnone | hfits
      · rw [hd.wire_eq_none hnone qn hq] at hwire
        cases hwire
      · rw [hreturned,if_pos hfits]
        exact (hd.infix_answer hq hwire).trans (infix_encodeExecute answer _)

end Kept

/-- Events are lost just where the response that carries them is not returned. -/
theorem notifications_kept_iff {σ : Type} {G : ObjectGraph σ} {t : Transport} {x : Execute σ}
    (h : Executes G t x) : x.NoneDropped G ↔ x.Roomy G t :=
  ⟨fun hkept => by_contra fun hroom => (h.ran.dropped hroom).2 hkept,h.ran.kept⟩

theorem roomy_burst {n : Nat} {x : Execute Unit} (hbefore : x.before=⟨(),burst n⟩)
    (hrops : x.rops=[]) (hhandles : x.handles=[1]) :
    x.Roomy emptyBatch .mapihttp ↔
      taken 0 (.replicate n 26)=[] ∨ answerSize 0 (.replicate n 26) 1≤ maxROPBuffer := by
  have hbatch : x.batch emptyBatch=⟨[],[1],(),burst n⟩ := by
    rw [Execute.batch,hbefore,hrops,hhandles]
    simp [ObjectGraph.batch,emptyBatch]
  have hsizes : wireSizes (emptyBatch.get ()) (burst n)=.replicate n 26 := wireSizes_burst n
  simp [Execute.Roomy,hbatch,hsizes,Transport.fits]

/-- 1260 of 1261 new messages fill the cap, and the response is refused. -/
theorem notification_dropped :
    ∃ x,Executes emptyBatch .mapihttp x ∧ x.before.pending = burst 1261 ∧ x.rops = [] ∧
      x.handles = [1] ∧ x.returned = [] ∧ emptyBatch.get x.after.graph 1 = true ∧
      ¬x.NoneDropped emptyBatch := by
  obtain ⟨x,hcall,hbefore,hrops,hhandles⟩ := emptyBatch_executes (burst 1261)
  have hroom : ¬x.Roomy emptyBatch .mapihttp := by
    rw [roomy_burst hbefore hrops hhandles]
    decide +kernel
  obtain ⟨hreturned,hdropped⟩ := hcall.ran.dropped hroom
  exact ⟨x,hcall,by rw [hbefore],hrops,hhandles,hreturned,rfl,hdropped⟩

theorem notifications_kept_iff_small :
    ∃ x,Executes emptyBatch .mapihttp x ∧ x.before.pending = burst 4 ∧
      x.Roomy emptyBatch .mapihttp ∧ x.NoneDropped emptyBatch := by
  obtain ⟨x,hcall,hbefore,hrops,hhandles⟩ := emptyBatch_executes (burst 4)
  have hroom := (roomy_burst hbefore hrops hhandles).mpr (.inr (by decide))
  exact ⟨x,hcall,by rw [hbefore],hroom,(notifications_kept_iff hcall).mpr hroom⟩

end HermEX.Mapihttp
