import HermEX.Ics.FtCodec

namespace HermEX.Ics

open Framework Mapi

def markerStartTopFld : UInt32 := 0x40090003
def markerStartSubFld : UInt32 := 0x400A0003
def markerEndFolder : UInt32 := 0x400B0003
def markerStartMessage : UInt32 := 0x400C0003
def markerEndMessage : UInt32 := 0x400D0003
def markerStartFAIMsg : UInt32 := 0x40100003
def markerStartRecip : UInt32 := 0x40030003
def markerEndToRecip : UInt32 := 0x40040003
def markerNewAttach : UInt32 := 0x40000003
def markerEndAttach : UInt32 := 0x400E0003
def markerIncrSyncChg : UInt32 := 0x40120003
def markerIncrSyncDel : UInt32 := 0x40130003
def markerIncrSyncEnd : UInt32 := 0x40140003
def markerIncrSyncRead : UInt32 := 0x402F0003
def markerIncrSyncStateBegin : UInt32 := 0x403A0003
def markerIncrSyncStateEnd : UInt32 := 0x403B0003
def markerIncrSyncProgressMode : UInt32 := 0x4074000B
def markerIncrSyncProgressPerMsg : UInt32 := 0x4075000B
def markerIncrSyncMessage : UInt32 := 0x40150003

def metaTagFXDelProp : UInt32 := 0x40160003
def metaTagIdsetDeleted : UInt32 := 0x67E50102
def metaTagIdsetNoLongerInScope : UInt32 := 0x40210102
def metaTagIdsetRead : UInt32 := 0x402D0102
def metaTagIdsetUnread : UInt32 := 0x402E0102
def metaTagIdsetGiven1 : UInt32 := 0x40170102
def metaTagCnsetSeen : UInt32 := 0x67960102
def metaTagCnsetSeenFAI : UInt32 := 0x67DA0102
def metaTagCnsetRead : UInt32 := 0x67D20102

def isStateMetaTag (tag : UInt32) : Bool :=
  [metaTagIdsetGiven,metaTagIdsetGiven1,metaTagCnsetSeen,metaTagCnsetSeenFAI,
    metaTagCnsetRead].contains tag

def isContentsOnlyStateMetaTag (tag : UInt32) : Bool :=
  tag == metaTagCnsetSeenFAI || tag == metaTagCnsetRead

def ptSvrEID : PropType := 0x00FB

/-- The header is never torn; the body is what is left. -/
structure PendingElement where
  header : Bytes
  body : Bytes
  headerDone : Bool

structure Producer where
  queue : List PendingElement

/-- `failed` is a writer's error, `endless` one that never returns. -/
inductive Emission where
  | marker (m : UInt32)
  | prop (p : StreamProp)
  | failed
  | endless

inductive Written where
  | ok
  | failed
  | endless

def PendingElement.left (e : PendingElement) : Bytes :=
  (if e.headerDone then [] else e.header)++e.body

namespace Producer

def empty : Producer := ⟨[]⟩

def writeMarker (pr : Producer) (m : UInt32) : Producer :=
  ⟨pr.queue++[⟨leBytes 4 m.toNat,[],false⟩]⟩

def writeProp (pr : Producer) (p : StreamProp) : Except FxError Producer :=
  if PropTag.type p.tag=ptSvrEID then .ok pr
  else (encodeProp p).map fun x => ⟨pr.queue++[⟨x.1,x.2,false⟩]⟩

def write (pr : Producer) : List Emission → Written×Producer
  | [] => (.ok,pr)
  | .marker m::es => (pr.writeMarker m).write es
  | .prop p::es => match pr.writeProp p with
    | .error _ => (.failed,pr)
    | .ok pr => pr.write es
  | .failed::_ => (.failed,pr)
  | .endless::_ => (.endless,pr)

def pendingLen (pr : Producer) : Nat := (pr.queue.map fun e => e.left.length).sum

def bytes (pr : Producer) : Bytes := pr.queue.flatMap PendingElement.left

def fill (maxLen : Nat) (out : Bytes) : List PendingElement → Bytes×List PendingElement
  | [] => (out,[])
  | e::es =>
    if !e.headerDone && !out.isEmpty && decide (maxLen<out.length+e.header.length) then
      (out,e::es)
    else
      let out := if e.headerDone then out else out++e.header
      let avail := maxLen-out.length
      if e.body.length≤avail then fill maxLen (out++e.body) es
      else (out++e.body.take avail,⟨e.header,e.body.drop avail,true⟩::es)

def readBuffer (pr : Producer) (maxLen : Nat) : (Bytes×Bool)×Producer :=
  let (chunk,rest) := fill maxLen [] pr.queue
  ((chunk,rest.isEmpty),⟨rest⟩)

theorem torn (n : Nat) (body rest : Bytes) :
    body.take n++(body.drop n++rest)=body++rest := by
  rw [← List.append_assoc,List.take_append_drop]

theorem fill_bytes (maxLen : Nat) (out : Bytes) (queue : List PendingElement) :
    (fill maxLen out queue).1++(fill maxLen out queue).2.flatMap PendingElement.left =
      out++queue.flatMap PendingElement.left := by
  induction queue generalizing out with
  | nil => simp [fill]
  | cons e es ih =>
    simp only [fill]
    split_ifs with hwait hdone hfit hfit
    · rfl
    · rw [ih]
      simp [PendingElement.left,hdone]
    · simp [PendingElement.left,hdone,torn]
    · rw [ih]
      simp [PendingElement.left,hdone]
    · simp [PendingElement.left,hdone,torn]

theorem readBuffer_bytes (pr : Producer) (maxLen : Nat) :
    (pr.readBuffer maxLen).1.1++(pr.readBuffer maxLen).2.bytes=pr.bytes :=
  fill_bytes maxLen [] pr.queue

end Producer
end HermEX.Ics
