import HermEX.Ics.Producer
import HermEX.Objectstore.Collector
import HermEX.Objectstore.HierarchySync

namespace HermEX.Objectstore

open Framework Mapi Ics

def prMessageFlags : PropTag := 0x0E070003
def prRead : PropTag := 0x0E69000B
def prHasAttachments : PropTag := 0x0E1B000B
def prMessageSize : PropTag := 0x0E080003
def prReadReceiptRequested : PropTag := 0x0029000B
def prNonReceiptNotificationRequested : PropTag := 0x0C06000B
def prAttachFlags : PropTag := 0x37140003
def prMessageRecipients : PropTag := 0x0E12000D
def prMessageAttachments : PropTag := 0x0E13000D

def msgFlagRead : Int32 := 0x001
def msgFlagHasAttach : Int32 := 0x010
def msgFlagAssociated : Int32 := 0x040
def msgFlagRNPending : Int32 := 0x100
def msgFlagNRNPending : Int32 := 0x200
def attMhtmlRef : Int32 := 0x04

structure StoredMessage where
  props : PropertyValues
  recipients : List PropertyValues
  attachments : List PropertyValues
deriving DecidableEq

/-- The properties named and what is asked of a bag. -/
structure Restriction where
  tags : List PropTag
  holds : PropertyValues → Bool

structure SearchCriteria where
  restriction : Option Restriction
  scope : List Nat
  flags : UInt32

def searchRestart : UInt32 := 0x00000002
def searchRecursive : UInt32 := 0x00000004
def searchStatic : UInt32 := 0x00040000

def SearchCriteria.has (c : SearchCriteria) (flag : UInt32) : Bool := c.flags &&& flag != 0

/-- With message contents, search folders and property names. -/
structure MailStore where
  store : Store
  message : Nat → StoredMessage
  criteria : Nat → SearchCriteria
  searchResult : List (Nat×Nat)
  namedPropName : UInt16 → Option PropertyName

namespace MailStore

abbrev db (m : MailStore) : ObjDB := m.store.objdb

def selectProps (tags : List PropTag) (props : PropertyValues) : PropertyValues :=
  if tags.isEmpty then props else props.filter fun p => tags.contains p.1

variable (m : MailStore) (fid : Nat)

def getMessageProperties (mid : Nat) (tags : List PropTag) :
    Except StoreErr PropertyValues :=
  match m.db.messages.get mid with
  | none => .error .notFound
  | some _ => .ok (selectProps tags (m.message mid).props)

/-- What the computed properties come from. -/
structure MessageFlagFacts where
  read : Bool
  associated : Bool
  hasAttach : Bool
  stored : Int32
  rn : Bool
  nrn : Bool

def recomputedMsgFlags : Int32 :=
  msgFlagRead ||| msgFlagHasAttach ||| msgFlagAssociated ||| msgFlagRNPending ||| msgFlagNRNPending

def stripComputedMsgFlags (flags : Int32) : Int32 := flags &&& ~~~recomputedMsgFlags

def inlineAttachment (a : PropertyValues) : Bool :=
  match a.get prAttachFlags with
  | some (.int32 f) => f &&& attMhtmlRef != 0
  | _ => false

def messageFlagFacts (r : MessageRow) (msg : StoredMessage) : MessageFlagFacts where
  read := r.readState
  associated := r.isAssociated
  hasAttach := msg.attachments.any fun a => !inlineAttachment a
  stored := match msg.props.get prMessageFlags with
    | some (.int32 f) => f
    | _ => 0
  rn := boolProp msg.props prReadReceiptRequested
  nrn := boolProp msg.props prNonReceiptNotificationRequested

def MessageFlagFacts.flags (f : MessageFlagFacts) : Int32 :=
  let set (bit : Int32) (on : Bool) (v : Int32) : Int32 := if on then v ||| bit else v
  set msgFlagNRNPending f.nrn (set msgFlagRNPending f.rn (set msgFlagAssociated f.associated
    (set msgFlagHasAttach f.hasAttach (set msgFlagRead f.read (stripComputedMsgFlags f.stored)))))

def MessageFlagFacts.props (f : MessageFlagFacts) (tags : List PropTag) : PropertyValues :=
  selectProps tags
    [(prMessageFlags,.int32 f.flags),(prRead,.bool f.read),(prHasAttachments,.bool f.hasAttach)]

def messageComputedProps (mid : Nat) (tags : List PropTag) : PropertyValues :=
  match m.db.messages.get mid with
  | none => []
  | some r => (messageFlagFacts r (m.message mid)).props tags

def openMessage (mid : Nat) : Except StoreErr StoredMessage :=
  match m.db.messages.get mid with
  | none => .error .notFound
  | some _ => .ok (m.message mid)

def openTransferMessage (mid : Nat) : Except StoreErr StoredMessage :=
  (m.openMessage mid).map fun msg =>
    {msg with props:=msg.props.setAll (m.messageComputedProps mid [prMessageFlags])}

def messageFolder (mid : Nat) : Except StoreErr Nat :=
  match m.db.messages.get mid with
  | none => .error .notFound
  | some r => .ok r.parentFid

def listMessageIDs : List Nat := (m.store.listMessages fid).map IndexMessageRow.messageId

def listSoftDeletedIDs : List Nat :=
  sortIDs ((m.db.messages.rows.filter fun r => r.parentFid == fid && r.isDeleted).map
    MessageRow.messageId)

def folderMessageIDs (associated : Bool) : List Nat :=
  sortIDs ((m.db.messages.rows.filter fun r =>
    r.parentFid == fid && !r.isDeleted && r.isAssociated == associated).map MessageRow.messageId)

def messageIsAssociated (mid : Nat) : Except StoreErr Bool :=
  match m.db.messages.rows.find? fun r =>
      r.messageId == mid && r.parentFid == fid && !r.isDeleted with
  | none => .error .notFound
  | some r => .ok r.isAssociated

def isSearchFolder : Bool := (m.db.folders.get fid).any FolderRow.isSearch

def addOnce (out : List Nat) (id : Nat) : List Nat := if out.contains id then out else out++[id]

def searchFolders (c : SearchCriteria) : Option (List Nat) :=
  (c.scope.mapM fun f =>
    if c.has searchRecursive then (m.db.descendantIDs f).map fun ids => f::sortIDs ids
    else some [f]).map fun found => found.flatten.foldl addOnce []

def clampLong (v : Nat) : Int32 := if 0x7FFFFFFF<v then 0x7FFFFFFF else Int32.ofNat v

def candidateProps (r : MessageRow) : PropertyValues :=
  ((m.message r.messageId).props.set prMessageSize (.int32 (clampLong r.messageSize))).setAll
    (m.messageComputedProps r.messageId [])

def matchFolder (r : Restriction) (fid : Nat) : List Nat :=
  let cands := (m.db.messages.rows.filter fun x =>
    x.parentFid == fid && !x.isDeleted && !x.isAssociated).insertionSort fun a b =>
      a.messageId≤b.messageId
  (cands.filter fun x => r.holds (m.candidateProps x)).map MessageRow.messageId

def staticResult : List Nat :=
  sortIDs ((m.searchResult.filter fun p =>
    p.1 == fid && (m.db.messages.get p.2).any fun r => !r.isDeleted).map Prod.snd)

def searchFolderMessageIDs : Option (List Nat) :=
  let c := m.criteria fid
  match c.restriction with
  | none => some []
  | some r =>
    if !c.has searchRestart then some []
    else if c.has searchStatic then some (m.staticResult fid)
    else (m.searchFolders c).map fun fids => fids.flatMap (m.matchFolder r)

def fxFilter (proptags : List PropTag) (includeMode : Bool) (props : PropertyValues) :
    PropertyValues :=
  if proptags.isEmpty then props else props.filter fun p => proptags.contains p.1 == includeMode

def fxToStreamProp (p : PropTag×Value) : Emission :=
  if 0x8000≤PropTag.id p.1 then
    match m.namedPropName (PropTag.id p.1) with
    | none => .failed
    | some name => .prop ⟨p.1,some name,p.2⟩
  else .prop ⟨p.1,none,p.2⟩

def fxWriteProps (props : PropertyValues) : List Emission := props.map m.fxToStreamProp

def writeCollection (keep : PropertyValues → PropertyValues) (tag : PropTag)
    (openMarker closeMarker : UInt32) (members : List PropertyValues) : List Emission :=
  .prop ⟨metaTagFXDelProp,none,.int32 tag.toInt32⟩::members.flatMap fun props =>
    .marker openMarker::m.fxWriteProps (keep props)++[.marker closeMarker]

def writeContent (keep : PropertyValues → PropertyValues) (msg : StoredMessage) :
    List Emission :=
  m.fxWriteProps (keep msg.props) ++
    m.writeCollection keep prMessageRecipients markerStartRecip markerEndToRecip msg.recipients ++
    m.writeCollection keep prMessageAttachments markerNewAttach markerEndAttach msg.attachments

def writeCopyMessageContent (msg : StoredMessage) (exclude : List PropTag) :
    List Emission :=
  m.writeContent (fxFilter exclude false) msg

def writeCopyMessage (start : UInt32) (exclude : List PropTag) (mid : Nat) :
    List Emission :=
  match m.openTransferMessage mid with
  | .error _ => [.failed]
  | .ok msg => .marker start::m.writeCopyMessageContent msg exclude++[.marker markerEndMessage]

def copyToMessage (mid : Nat) (exclude : List PropTag) : List Emission :=
  match m.openTransferMessage mid with
  | .error _ => [.failed]
  | .ok msg => m.writeCopyMessageContent msg exclude

def copyPropertiesMessage (mid : Nat) (included : List PropTag) : List Emission :=
  match m.openTransferMessage mid with
  | .error _ => [.failed]
  | .ok msg => if included.isEmpty then [] else m.fxWriteProps (fxFilter included true msg.props)

def copyMessages (mids : List Nat) : List Emission :=
  mids.flatMap fun mid => match m.messageIsAssociated fid mid with
    | .error _ => [.failed]
    | .ok fai => m.writeCopyMessage (if fai then markerStartFAIMsg else markerStartMessage) [] mid

def writeFolderMessageList (associated : Bool) : List Emission :=
  (m.folderMessageIDs fid associated).flatMap
    (m.writeCopyMessage (if associated then markerStartFAIMsg else markerStartMessage) [])

def writeFolderItself : List Emission :=
  match m.db.folders.get fid with
  | none => [.failed]
  | some f => m.fxWriteProps f.props++m.writeFolderMessageList fid true ++
      m.writeFolderMessageList fid false

def writeFolderContentNoDelProps (m : MailStore) : Nat → Nat → Bool → List Emission
  | 0,_,_ => [.endless]
  | n+1,fid,subfolders => m.writeFolderItself fid ++
      if subfolders then (m.db.childFolderIDs fid).flatMap fun sub =>
        .marker markerStartSubFld::m.writeFolderContentNoDelProps n sub true ++
          [.marker markerEndFolder]
      else []

def copyDepth : Nat := m.db.folders.rows.length+1

def copyFolder (subfolders : Bool) : List Emission :=
  .marker markerStartTopFld::m.writeFolderContentNoDelProps m.copyDepth fid subfolders ++
    [.marker markerEndFolder]

end MailStore

/-- A rendered copy that is drained, with its progress. -/
structure CopyContext where
  producer : Producer
  total : Nat
  served : Nat

def newCopyContext (pr : Producer) : CopyContext := ⟨pr,pr.pendingLen,0⟩

def CopyContext.getBuffer (c : CopyContext) (maxLen : Nat) : (Bytes×Bool)×CopyContext :=
  let ((chunk,last),pr) := c.producer.readBuffer maxLen
  ((chunk,last),{c with producer:=pr,served:=c.served+chunk.length})

end HermEX.Objectstore
