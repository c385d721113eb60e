import HermEX.Objectstore.Contents

namespace HermEX.Objectstore

open Framework Mapi Ics

def prMid : PropTag := 0x674A0014
def prChangeNumber : PropTag := 0x67A40014
def prAssociated : PropTag := 0x67AA000B

def syncOnlySpecifiedProps : UInt16 := 0x0080

def syncExtraFlagEID : UInt32 := 0x0001
def syncExtraFlagMessageSize : UInt32 := 0x0002
def syncExtraFlagCN : UInt32 := 0x0004

/-- The encoders that are not modelled. -/
structure Wire where
  propertyRow : List PropTag → PropertyValues → Option Bytes
  compareValues : Value → Value → Ordering
  looseIDSetBytes : List Nat → Option Bytes
  serialize : SyncType → GUID → SyncState → Option (List StreamProp)
  appendIDSet : GUID → SyncState → UInt32 → Bytes → Option SyncState

def eidValue (id : Nat) : Value :=
  .int64 (UInt64.ofNat (leNat (leBytes 8 id).reverse) ||| homeReplID.toUInt64).toInt64

def sourceKey (replica : GUID) (value : Nat) : Bytes := replica.flat++valueToGC value

/-- `flow` is to be emitted; vanished messages join the deletions of `res`. -/
structure DownloadContext where
  syncType : SyncType
  replica : GUID
  syncFlags : UInt16
  extraFlags : UInt32
  proptags : List PropTag
  producer : Producer
  flow : List FlowNode
  res : ContentSyncResult
  doneSteps : Nat
  totalSteps : Nat

def writeIDSets (W : Wire) (marker : UInt32) (sets : List (UInt32×List Nat)) : List Emission :=
  match (sets.filter fun s => !s.2.isEmpty).mapM fun s =>
      (W.looseIDSetBytes s.2).map fun b => StreamProp.mk s.1 none (.bytes b) with
  | none => [.failed]
  | some props => if props.isEmpty then [] else .marker marker::props.map .prop

def writeStateOf (W : Wire) (syncType : SyncType) (replica : GUID) (state : SyncState) :
    List Emission :=
  match W.serialize syncType replica state with
  | none => [.failed]
  | some props => .marker markerIncrSyncStateBegin::props.map .prop ++
      [.marker markerIncrSyncStateEnd]

def lastModTime (now : UInt64) (props : PropertyValues) : UInt64 :=
  match props.get prLastModificationTime with
  | some (.uint64 t) => t
  | _ => now

namespace DownloadContext

variable (dc : DownloadContext) (W : Wire)

def keep : PropertyValues → PropertyValues :=
  MailStore.fxFilter dc.proptags (enabled dc.syncFlags syncOnlySpecifiedProps)

def messageHeader (now : UInt64) (r : MessageRow) (props : PropertyValues) :
    PropertyValues :=
  [(prSourceKey,.bytes (sourceKey dc.replica r.messageId)),
    (prLastModificationTime,.uint64 (lastModTime now props)),
    (prChangeKey,.bytes (changeKey dc.replica r.changeNumber)),
    (prPredecessorChangeList,.bytes (predecessorChangeList dc.replica r.changeNumber)),
    (prAssociated,.bool r.isAssociated)] ++
  (if dc.extraFlags &&& syncExtraFlagEID != 0 then [(prMid,eidValue r.messageId)] else []) ++
  (if dc.extraFlags &&& syncExtraFlagMessageSize != 0 then
    [(prMessageSize,.int32 (Int32.ofNat r.messageSize))] else []) ++
  (if dc.extraFlags &&& syncExtraFlagCN != 0 then [(prChangeNumber,eidValue r.changeNumber)] else [])

def writeProgressTotal : List Emission :=
  [.marker markerIncrSyncProgressMode,.prop ⟨ptBinary.toUInt32,none,.bytes
    (leBytes 2 0++leBytes 2 0++leBytes 4 dc.res.faiCount++leBytes 8 dc.res.faiSize ++
      leBytes 4 dc.res.normalCount++leBytes 4 0++leBytes 8 dc.res.normalSize)⟩]

def writeProgressPerMessage (r : MessageRow) : List Emission :=
  if enabled dc.syncFlags syncProgressMode then
    [.marker markerIncrSyncProgressPerMsg,
      .prop ⟨ptLong.toUInt32,none,.int32 (Int32.ofNat r.messageSize)⟩,
      .prop ⟨ptBoolean.toUInt32,none,.bool r.isAssociated⟩]
  else []

def writeMessageBody (m : MailStore) (msg : StoredMessage) : List Emission :=
  .marker markerIncrSyncMessage::m.writeContent dc.keep msg

def writeMessageChange (m : MailStore) (now : UInt64) (r : MessageRow) :
    List Emission :=
  match m.openTransferMessage r.messageId with
  | .error _ => [.failed]
  | .ok msg => dc.writeProgressPerMessage r ++ .marker markerIncrSyncChg::
      m.fxWriteProps (dc.messageHeader now r msg.props)++dc.writeMessageBody m msg

def writeDeletionSets : List Emission :=
  writeIDSets W markerIncrSyncDel ((metaTagIdsetDeleted,dc.res.deletedMIDs)::
    if enabled dc.syncFlags syncNoSoftDeletions then []
    else [(metaTagIdsetNoLongerInScope,dc.res.noLongerMIDs)])

def writeReadState : List Emission :=
  writeIDSets W markerIncrSyncRead
    [(metaTagIdsetRead,dc.res.readMIDs),(metaTagIdsetUnread,dc.res.unreadMIDs)]

def emit (es : List Emission) (done : DownloadContext → DownloadContext) :
    Written×DownloadContext :=
  match dc.producer.write es with
  | (.ok,pr) => (.ok,done {dc with producer:=pr})
  | (res,pr) => (res,{dc with producer:=pr})

def emitMessage (m : MailStore) (now : UInt64) (dc : DownloadContext) (mid : Nat) :
    Written×DownloadContext :=
  match (m.db.messages.get mid).filter fun r => !r.isDeleted with
  | none => (.ok,{dc with res:={dc.res with deletedMIDs:=dc.res.deletedMIDs++[mid]}})
  | some r => dc.emit (dc.writeMessageChange m now r) fun dc =>
    {dc with doneSteps:=dc.doneSteps+r.messageSize}

def emitClosed (_mid : Nat) : Written×DownloadContext := (.failed,dc)

def emitNode (change : DownloadContext → Nat → Written×DownloadContext)
    (dc : DownloadContext) : FlowNode → Written×DownloadContext
  | .progress => dc.emit dc.writeProgressTotal id
  | .message mid _ => change dc mid
  | .deletions => dc.emit (dc.writeDeletionSets W) id
  | .readState => dc.emit (dc.writeReadState W) id
  | .state => dc.emit (writeStateOf W dc.syncType dc.replica
      (writeState dc.syncFlags dc.res.givenMIDs dc.res.lastCN dc.res.lastReadCN)) id
  | .done => dc.emit [.marker markerIncrSyncEnd] id

def feed (W : Wire) (change : DownloadContext → Nat → Written×DownloadContext) (maxLen : Nat) :
    List FlowNode → DownloadContext → Written×DownloadContext
  | [],dc => (.ok,{dc with flow:=[]})
  | n::ns,dc =>
    if dc.producer.pendingLen < maxLen then
      match emitNode W change dc n with
      | (.ok,dc) => feed W change maxLen ns dc
      | (res,dc) => (res,{dc with flow:=n::ns})
    else (.ok,{dc with flow:=n::ns})

def getBuffer (change : DownloadContext → Nat → Written×DownloadContext)
    (dc : DownloadContext) (maxLen : Nat) : Option (Bytes×Bool)×DownloadContext :=
  match feed W change maxLen dc.flow dc with
  | (.ok,dc) =>
    let ((chunk,drained),pr) := dc.producer.readBuffer maxLen
    (some (chunk,drained && dc.flow.isEmpty),{dc with
      producer:=pr
      doneSteps:=match dc.syncType with
        | .hierarchy => dc.doneSteps+chunk.length
        | .contents => dc.doneSteps})
  | (_,dc) => (none,dc)

end DownloadContext

def MailStore.newContentDownload (m : MailStore) (folderID : Nat) (state : SyncState)
    (syncFlags : UInt16) (extraFlags : UInt32) (proptags : List PropTag) : DownloadContext :=
  let res := m.db.getContentSync (contentSyncRequestFor folderID state syncFlags)
  { syncType:=.contents
    replica:=m.db.replica
    syncFlags:=syncFlags
    extraFlags:=extraFlags
    proptags:=proptags
    producer:=.empty
    flow:=contentFlow res syncFlags
    res:=res
    doneSteps:=0
    totalSteps:=res.faiSize+res.normalSize }

def writeFolderChangeOf (m : MailStore) (keep : PropertyValues → PropertyValues)
    (c : FolderChange) : List Emission :=
  .marker markerIncrSyncChg::m.fxWriteProps (keep (c.props ++
    [(prSourceKey,.bytes (sourceKey m.db.replica c.fid)),
      (prParentSourceKey,.bytes (c.parent.elim [] (sourceKey m.db.replica)))]))

def writeHierarchy (W : Wire) (m : MailStore) (syncFlags : UInt16) (proptags : List PropTag)
    (d : HierarchyDownload) : List Emission :=
  d.changes.flatMap (writeFolderChangeOf m
    (MailStore.fxFilter proptags (enabled syncFlags syncOnlySpecifiedProps))) ++
  (if enabled syncFlags syncNoDeletions then []
    else writeIDSets W markerIncrSyncDel [(metaTagIdsetDeleted,d.deletions)]) ++
  writeStateOf W .hierarchy m.db.replica d.state++[.marker markerIncrSyncEnd]

def MailStore.newHierarchyDownload (W : Wire) (m : MailStore) (folderID : Nat) (state : SyncState)
    (syncFlags : UInt16) (proptags : List PropTag) : Except Written DownloadContext :=
  match m.db.newHierarchyDownload folderID state with
  | none => .error .endless
  | some (.error _) => .error .failed
  | some (.ok d) => match Producer.empty.write (writeHierarchy W m syncFlags proptags d) with
    | (.ok,pr) => .ok
        { syncType:=.hierarchy
          replica:=m.db.replica
          syncFlags:=syncFlags
          extraFlags:=0
          proptags:=proptags
          producer:=pr
          flow:=[]
          res:={}
          doneSteps:=0
          totalSteps:=pr.pendingLen }
    | (res,_) => .error res

/-- The state comes in streams; the delta is taken at the first chunk. -/
structure DownloadCollector where
  folderID : Nat
  syncType : SyncType
  syncFlags : UInt16
  extraFlags : UInt32
  propTags : List PropTag
  replica : GUID
  state : SyncState
  streamTag : UInt32
  streamBuf : Bytes
  dc : Option DownloadContext

def MailStore.newDownloadCollector (m : MailStore) (folderID : Nat) (syncType : SyncType)
    (syncFlags : UInt16) (extraFlags : UInt32) (propTags : List PropTag) : DownloadCollector where
  folderID := folderID
  syncType := syncType
  syncFlags := syncFlags
  extraFlags := match syncType with
    | .contents => extraFlags
    | .hierarchy => 0
  propTags := propTags
  replica := m.db.replica
  state := newState
  streamTag := 0
  streamBuf := []
  dc := none

namespace DownloadCollector

variable (c : DownloadCollector)

def beginStateStream (metaTag : UInt32) : Option DownloadCollector :=
  if c.dc.isSome || c.streamTag != 0 || !isStateMetaTag metaTag ||
      (c.syncType != .contents && isContentsOnlyStateMetaTag metaTag) then none
  else some {c with streamTag:=metaTag,streamBuf:=[]}

def continueStateStream (data : Bytes) : Option DownloadCollector :=
  if c.dc.isSome || c.streamTag == 0 then none
  else some {c with streamBuf:=c.streamBuf++data}

def endStateStream (W : Wire) (c : DownloadCollector) : Bool×DownloadCollector :=
  if c.dc.isSome || c.streamTag == 0 then (false,c)
  else
    let closed := {c with streamTag:=0,streamBuf:=[]}
    match W.appendIDSet c.replica c.state c.streamTag c.streamBuf with
    | none => (false,closed)
    | some state => (true,{closed with state:=state})

def context (W : Wire) (m : MailStore) : Except Written DownloadContext :=
  match c.dc with
  | some dc => .ok dc
  | none => match c.syncType with
    | .contents => .ok (m.newContentDownload c.folderID c.state c.syncFlags c.extraFlags c.propTags)
    | .hierarchy => m.newHierarchyDownload W c.folderID c.state c.syncFlags c.propTags

def closedContext : Except Written DownloadContext :=
  match c.dc with
  | some dc => .ok dc
  | none => .error .failed

def getBuffer (c : DownloadCollector) (W : Wire) (context : Except Written DownloadContext)
    (change : DownloadContext → Nat → Written×DownloadContext) (maxLen : Nat) :
    Except Written (Option (Bytes×Bool)×DownloadCollector) :=
  match context with
  | .error .endless => .error .endless
  | .error _ => .ok (none,c)
  | .ok dc =>
    let (chunk,dc) := dc.getBuffer W change maxLen
    .ok (chunk,{c with dc:=some dc})

def progress : Nat×Nat :=
  match c.dc with
  | none => (0,0)
  | some dc => (dc.doneSteps,dc.totalSteps)

end DownloadCollector
end HermEX.Objectstore
