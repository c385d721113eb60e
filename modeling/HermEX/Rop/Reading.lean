import HermEX.Objectstore.Download
import HermEX.Rop.Session

namespace HermEX.Rop

open Framework Mapi Objectstore

def prSubjectPrefix : PropTag := 0x003D001F
def prNormalizedSubject : PropTag := 0x0E1D001F

structure SortKey where
  tag : PropTag
  descending : Bool

/-- The ids when opened; without a view rows are as listed. -/
structure TableState where
  columns : Option (List PropTag)
  messageIDs : List Nat
  sortKeys : List SortKey
  restriction : Option Restriction
  view : Option (List Nat)
  cursor : Nat
  bookmarks : List (UInt16×Nat)
  nextBookmark : UInt16

def TableState.ofIDs (ids : List Nat) : TableState := ⟨none,ids,[],none,none,0,[],0⟩

def charsetSiblingTag (tag : PropTag) : Option PropTag :=
  if PropTag.type tag=ptUnicode then some (PropTag.mk (PropTag.id tag) ptString8)
  else if PropTag.type tag=ptString8 then some (PropTag.mk (PropTag.id tag) ptUnicode)
  else none

def getAnyCharset (props : PropertyValues) (tag : PropTag) : Option Value :=
  (props.get tag).or ((charsetSiblingTag tag).bind props.get)

def withCharsetSiblings (tags : List PropTag) : List PropTag :=
  tags++tags.filterMap charsetSiblingTag

def compareRows (W : Wire) (a b : PropertyValues) : List SortKey → Ordering
  | [] => .eq
  | k::ks => match getAnyCharset a k.tag,getAnyCharset b k.tag with
    | none,none => compareRows W a b ks
    | none,some _ => .gt
    | some _,none => .lt
    | some x,some y =>
      let c := W.compareValues x y
      (if k.descending then c.swap else c).then (compareRows W a b ks)

def messageProps (m : MailStore) (mid : Nat) (tags : List PropTag) :
    Except StoreErr PropertyValues :=
  (m.getMessageProperties mid tags).map fun props => props.setAll (m.messageComputedProps mid tags)

def contentsKeyProps (m : MailStore) (tags : List PropTag) (mid : Nat) : PropertyValues :=
  let stored : PropertyValues :=
    if tags.isEmpty then [] else match m.getMessageProperties mid tags with
      | .error _ => []
      | .ok props => props
  stored.setAll (m.messageComputedProps mid tags)

namespace TableState

variable (t : TableState)

def total : Nat :=
  match t.view with
  | some view => view.length
  | none => t.messageIDs.length

def baseIndex (idx : Nat) : Nat :=
  match t.view with
  | some view => view.getD idx 0
  | none => idx

def rowID (idx : Nat) : Option Nat := t.messageIDs[t.baseIndex idx]?

def viewTags : List PropTag :=
  withCharsetSiblings (t.sortKeys.map SortKey.tag++t.restriction.elim [] Restriction.tags)

variable (W : Wire) (m : MailStore)

def rebuildView : TableState :=
  if t.restriction.isNone && t.sortKeys.isEmpty then {t with cursor:=0,view:=none}
  else
    let bags := t.messageIDs.map (contentsKeyProps m t.viewTags)
    let kept := (List.range t.messageIDs.length).filter fun i =>
      t.restriction.all fun r => r.holds (bags.getD i [])
    {t with
      cursor:=0
      view:=some (kept.insertionSort fun i j =>
        compareRows W (bags.getD i []) (bags.getD j []) t.sortKeys ≠ .gt)}

def pageIndices (rowCount : Nat) (forward : Bool) : List Nat×Nat :=
  if forward then
    let stop := min (t.cursor+rowCount) t.total
    (List.range' t.cursor (stop-t.cursor),stop)
  else
    let start := t.cursor-rowCount
    ((List.range' start (t.cursor-start)).reverse,start)

def seekPosition (forward : Bool) : UInt8 :=
  if forward && decide (t.total≤t.cursor) then 2
  else if !forward && t.cursor == 0 then 0
  else 1

def encodeRow (columns : List PropTag) (idx : Nat) :
    Option Bytes :=
  (t.rowID idx).bind fun mid => match messageProps m mid columns with
    | .error _ => none
    | .ok props => W.propertyRow columns
        (if columns.contains prMid then props.set prMid (eidValue mid) else props)

def encodeRows (columns : List PropTag)
    (idxs : List Nat) : Option Bytes :=
  (idxs.mapM (t.encodeRow W m columns)).map List.flatten

def seekOrigin (seekPos : UInt8) : Option Nat :=
  if seekPos=0 then some 0
  else if seekPos=1 then some t.cursor
  else if seekPos=2 then some t.total
  else none

def matchRow (r : Option Restriction) (idx : Nat) : Option Bool :=
  match r with
  | none => some true
  | some r => (t.rowID idx).bind fun mid => match messageProps m mid r.tags with
      | .error _ => none
      | .ok props => some (r.holds props)

def scanForRow (t : TableState) (m : MailStore) (r : Option Restriction) :
    List Nat → Option (Option Nat)
  | [] => some none
  | i::is => match t.matchRow m r i with
    | none => none
    | some true => some (some i)
    | some false => t.scanForRow m r is

def scanIndices (origin : Nat) (backward : Bool) : List Nat :=
  if backward then if t.total<origin then [] else (List.range origin).reverse
  else List.range' origin (t.total-origin)

def seek (origin : Nat) (offset : Int32) : (Bool×Int)×TableState :=
  let target := min (max ((origin : Int)+offset.toInt) 0) t.total
  let sought := target-origin
  ((sought != offset.toInt,sought),{t with cursor:=target.toNat})

end TableState

inductive ReadObject where
  | logon
  | folder (folderID : Nat)
  | message (messageID folderID : Nat)
  | table (t : TableState)
  | copy (c : CopyContext)
  | download (c : DownloadCollector)

/-- The caller is as in `Session`. -/
structure Logon where
  delegateCaller : Option GoString
  isStoreOwner : Bool
  mail : MailStore

def Logon.authorize (l : Logon) (fid : Nat) (need : UInt32) : Bool :=
  (Session.logon l.delegateCaller l.isStoreOwner).authorize l.mail.db fid need

/-- One logon; once released the store is closed. -/
structure ReadSession where
  handles : List (Nat×ReadObject)
  next : Nat
  closed : Bool

namespace ReadSession

variable (s : ReadSession) (h : Nat)

def alloc (o : ReadObject) : Nat×ReadSession :=
  (s.next,{s with handles:=(s.next,o)::s.handles,next:=s.next+1})

def get : Option ReadObject := s.handles.lookup h

def put (o : ReadObject) : ReadSession :=
  {s with handles:=s.handles.map fun x => if x.1=h then (h,o) else x}

def release : ReadSession :=
  {s with
    handles:=s.handles.filter fun x => x.1 != h
    closed:=s.closed || match s.get h with
      | some .logon => true
      | _ => false}

def openFolder : Option Nat :=
  match s.get h with
  | some (.folder fid) => some fid
  | _ => none

def openTable : Option TableState :=
  match s.get h with
  | some (.table t) => some t
  | _ => none

def openMessage : Option (Nat×Nat) :=
  match s.get h with
  | some (.message mid fid) => some (mid,fid)
  | _ => none

def openDownload : Option DownloadCollector :=
  match s.get h with
  | some (.download c) => some c
  | _ => none

def fresh : ReadSession := (alloc ⟨[],1,false⟩ .logon).2

end ReadSession

/-- What a client does without reading the store. -/
inductive TableOp where
  | setColumns (columns : List PropTag)
  | seekRow (seekPos : UInt8) (offset : Int32)
  | seekRowFractional (numerator denominator : Nat)
  | createBookmark
  | seekRowBookmark (bookmark : Option UInt16) (offset : Int32)
  | freeBookmark (bookmark : Option UInt16)
  | resetTable

inductive StateStream where
  | beginStream (metaTag : UInt32)
  | continueStream (data : Bytes)
  | endStream

inductive CopySource where
  | copyTo (exclude : List PropTag)
  | copyProperties (included : List PropTag)

/-- A refused sort or restriction has a code. `other` is any other request. -/
inductive ReadRequest (σ : Type) where
  | openFolder (h folderID : Nat)
  | openMessage (h messageID : Nat)
  | getContentsTable (h : Nat) (tableFlags : UInt8)
  | table (h : Nat) (op : TableOp)
  | sortTable (h : Nat) (keys : Option (List SortKey))
  | restrict (h : Nat) (restriction : Except ErrorCode (Option Restriction))
  | findRow (h : Nat) (backward : Bool) (seekPos : UInt8)
      (restriction : Except ErrorCode (Option Restriction))
  | queryRows (h : Nat) (noAdvance forward : Bool) (rowCount : Nat)
  | synchronizationConfigure (h : Nat) (syncType : UInt8) (syncFlags : UInt16)
      (extraFlags : UInt32) (propTags : List PropTag)
  | uploadState (h : Nat) (stream : StateStream)
  | copyMessages (h : Nat) (messageIDs : List Nat)
  | copyFolder (h : Nat) (copyFlags : UInt8)
  | copySource (h : Nat) (source : CopySource)
  | getBuffer (h bufferSize : Nat) (now : UInt64)
  | release (h : Nat)
  | other (run : σ → σ)

/-- `silent` where the model has none. -/
inductive ReadReply where
  | failed (code : ErrorCode)
  | invalidBookmark
  | success
  | opened (handle : Nat)
  | openedMessage (handle : Nat) (subjectPrefix normalizedSubject : GoString)
      (recipients : List PropertyValues)
  | openedTable (handle rowCount : Nat)
  | sought (hasSoughtLess : Bool) (rowsSought : Int)
  | bookmark (index : UInt16)
  | foundRow (row : Option Bytes)
  | rows (seekPos : UInt8) (rowCount : Nat) (rows : Bytes)
  | buffer (status : UInt16) (inProgress totalSteps : Nat) (chunk : Bytes)
  | endless
  | silent
deriving DecidableEq

namespace ReadSession

variable (s : ReadSession) (l : Logon)

def openHandle (o : ReadObject) : ReadReply×ReadSession :=
  let (h,s) := s.alloc o
  (.opened h,s)

def unlessDenied (fid : Nat) (need : UInt32)
    (k : ReadReply×ReadSession) : ReadReply×ReadSession :=
  if l.authorize fid need then k else (.failed .ecAccessDenied,s)

def onFolder (h : Nat) (k : Nat → ReadReply×ReadSession) :
    ReadReply×ReadSession :=
  match s.openFolder h with
  | none => (.failed .ecError,s)
  | some fid => k fid

def onTable (h : Nat) (k : TableState → ReadReply×ReadSession) :
    ReadReply×ReadSession :=
  match s.openTable h with
  | none => (.failed .ecError,s)
  | some t => k t

def onProjectedTable (h : Nat)
    (k : TableState → List PropTag → ReadReply×ReadSession) : ReadReply×ReadSession :=
  s.onTable h fun t => match t.columns with
    | none => (.failed .ecError,s)
    | some columns => k t columns

def ropOpenFolder (h fid : Nat) : ReadReply×ReadSession :=
  match s.get h with
  | none => (.failed .ecError,s)
  | some _ => if !l.mail.db.folderExists fid then (.failed .ecNotFound,s)
      else s.unlessDenied l fid frightsVisible (s.openHandle (.folder fid))

def ropOpenMessage (h mid : Nat) : ReadReply×ReadSession :=
  match s.get h with
  | none => (.failed .ecError,s)
  | some _ => match l.mail.messageFolder mid with
    | .error _ => (.failed .ecNotFound,s)
    | .ok fid => s.unlessDenied l fid frightsReadAny (match l.mail.openMessage mid with
      | .error _ => (.failed .ecNotFound,s)
      | .ok msg =>
        let (handle,s) := s.alloc (.message mid fid)
        (.openedMessage handle ((msg.props.stringProp prSubjectPrefix).getD [])
          ((msg.props.stringProp prNormalizedSubject).getD []) msg.recipients,s))

def tableFlagSoftDeletes : UInt8 := 0x20

variable (W : Wire) (m : MailStore)

def contentsTableIDs (fid : Nat) (softDeleted : Bool) : Option (List Nat) :=
  if softDeleted then some (m.listSoftDeletedIDs fid)
  else if m.isSearchFolder fid then m.searchFolderMessageIDs fid
  else some (m.listMessageIDs fid)

def ropGetContentsTable (h : Nat) (tableFlags : UInt8) :
    ReadReply×ReadSession :=
  s.onFolder h fun fid => s.unlessDenied l fid frightsReadAny
    (match contentsTableIDs l.mail fid (tableFlags &&& tableFlagSoftDeletes != 0) with
    | none => (.endless,s)
    | some ids =>
      let (handle,s) := s.alloc (.table (.ofIDs ids))
      (.openedTable handle ids.length,s))

def afterSeek (h : Nat) (t : TableState) (origin : Nat) (offset : Int32) :
    ReadReply×ReadSession :=
  let ((less,sought),t) := t.seek origin offset
  (.sought less sought,s.put h (.table t))

def ropTable (h : Nat) : TableOp → ReadReply×ReadSession
  | .setColumns columns => s.onTable h fun t =>
    (.success,s.put h (.table {t with columns:=some columns}))
  | .seekRow seekPos offset => s.onTable h fun t => match t.seekOrigin seekPos with
      | none => (.failed .ecError,s)
      | some origin => s.afterSeek h t origin offset
  | .seekRowFractional numerator denominator => match s.openTable h with
      | none => (.failed .ecNotSupported,s)
      | some t => if denominator=0 then (.invalidBookmark,s)
          else (.success,s.put h (.table
            {t with cursor:=min (numerator*t.total/denominator) t.total}))
  | .createBookmark => s.onTable h fun t =>
    (.bookmark t.nextBookmark,s.put h (.table {t with
      bookmarks:=(t.nextBookmark,t.cursor)::t.bookmarks
      nextBookmark:=t.nextBookmark+1}))
  | .seekRowBookmark bookmark offset => s.onTable h fun t => match bookmark with
      | none => (.failed .ecError,s)
      | some idx => match t.bookmarks.lookup idx with
        | none => (.failed .ecNotFound,s)
        | some origin => s.afterSeek h t origin offset
  | .freeBookmark bookmark => s.onTable h fun t => match bookmark with
      | none => (.success,s)
      | some idx => (.success,s.put h (.table
          {t with bookmarks:=t.bookmarks.filter fun x => x.1 != idx}))
  | .resetTable => s.onTable h fun t => (.success,s.put h (.table {t with
      columns:=none,sortKeys:=[],restriction:=none,view:=none,cursor:=0}))

def ropSortTable (h : Nat)
    (keys : Option (List SortKey)) : ReadReply×ReadSession :=
  s.onTable h fun t => match keys with
    | none => (.failed .ecNotSupported,s)
    | some keys => (.success,s.put h (.table ({t with sortKeys:=keys}.rebuildView W m)))

def ropRestrict (h : Nat)
    (restriction : Except ErrorCode (Option Restriction)) : ReadReply×ReadSession :=
  s.onTable h fun t => match restriction with
    | .error code => (.failed code,s)
    | .ok r => (.success,s.put h (.table ({t with restriction:=r}.rebuildView W m)))

def ropFindRow (h : Nat) (backward : Bool)
    (seekPos : UInt8) (restriction : Except ErrorCode (Option Restriction)) :
    ReadReply×ReadSession :=
  s.onProjectedTable h fun t columns => match restriction with
    | .error code => (.failed code,s)
    | .ok r => match t.seekOrigin seekPos with
      | none => (.failed .ecNotSupported,s)
      | some origin => match t.scanForRow m r (t.scanIndices origin backward) with
        | none => (.failed .ecError,s)
        | some none => (.foundRow none,s)
        | some (some i) =>
          let s := s.put h (.table {t with cursor:=i})
          match t.encodeRow W m columns i with
          | none => (.failed .ecError,s)
          | some row => (.foundRow (some row),s)

def ropQueryRows (h : Nat) (noAdvance forward : Bool)
    (rowCount : Nat) : ReadReply×ReadSession :=
  s.onProjectedTable h fun t columns =>
    let page := t.pageIndices rowCount forward
    match t.encodeRows W m columns page.1 with
    | none => (.failed .ecError,s)
    | some rows =>
      let t := if noAdvance then t else {t with cursor:=page.2}
      (.rows (t.seekPosition forward) page.1.length rows,s.put h (.table t))

def syncTypeOf (t : UInt8) : Option SyncType :=
  if t=1 then some .contents else if t=2 then some .hierarchy else none

def ropSynchronizationConfigure (h : Nat) (syncType : UInt8)
    (syncFlags : UInt16) (extraFlags : UInt32) (propTags : List PropTag) :
    ReadReply×ReadSession :=
  s.onFolder h fun fid => match syncTypeOf syncType with
    | none => (.failed .ecError,s)
    | some .contents => s.unlessDenied l fid frightsReadAny (s.openHandle (.download
        (l.mail.newDownloadCollector fid .contents syncFlags extraFlags propTags)))
    | some .hierarchy => s.openHandle (.download
        (l.mail.newDownloadCollector fid .hierarchy syncFlags extraFlags propTags))

def ropSyncUploadState (h : Nat) (stream : StateStream) :
    ReadReply×ReadSession :=
  match s.openDownload h with
  | none => (.failed .ecError,s)
  | some c =>
    let (ok,c) := match stream with
      | .beginStream metaTag => ((c.beginStateStream metaTag).isSome,
          (c.beginStateStream metaTag).getD c)
      | .continueStream data => ((c.continueStateStream data).isSome,
          (c.continueStateStream data).getD c)
      | .endStream => c.endStateStream W
    (if ok then .success else .failed .ecError,s.put h (.download c))

def openCopy (es : List Ics.Emission) : ReadReply×ReadSession :=
  match Ics.Producer.empty.write es with
  | (.ok,pr) => s.openHandle (.copy (newCopyContext pr))
  | (.failed,_) => (.failed .ecError,s)
  | (.endless,_) => (.endless,s)

def ropFastTransferSourceCopyMessages (h : Nat) (mids : List Nat) :
    ReadReply×ReadSession :=
  s.onFolder h fun fid => s.unlessDenied l fid frightsReadAny
    (s.openCopy (l.mail.copyMessages fid mids))

def fastCopyFolderFlagMove : UInt8 := 0x01
def fastCopyFolderFlagCopySubfolder : UInt8 := 0x10

def withSubfolders (copyFlags : UInt8) : Bool :=
  copyFlags &&& (fastCopyFolderFlagMove ||| fastCopyFolderFlagCopySubfolder) != 0

def ropFastTransferSourceCopyFolder (h : Nat) (copyFlags : UInt8) :
    ReadReply×ReadSession :=
  s.onFolder h fun fid => s.unlessDenied l fid frightsReadAny
    (s.openCopy (l.mail.copyFolder fid (withSubfolders copyFlags)))

def copyOf (mid : Nat) : CopySource → List Ics.Emission
  | .copyTo exclude => m.copyToMessage mid exclude
  | .copyProperties included => m.copyPropertiesMessage mid included

def openCopySource (h : Nat) (source : CopySource) :
    ReadReply×ReadSession :=
  match s.openMessage h with
  | none => (.failed .ecError,s)
  | some (mid,fid) => s.unlessDenied l fid frightsReadAny (s.openCopy (copyOf l.mail mid source))

def fastChunkCap : Nat := 0xF000

def chunkSize (bufferSize : Nat) : Nat :=
  if bufferSize=0xBABE ∨ fastChunkCap<bufferSize then fastChunkCap else bufferSize

def transferStatusError : UInt16 := 0x0000
def transferStatusPartial : UInt16 := 0x0001
def transferStatusDone : UInt16 := 0x0003

def stepCounts (progress : Nat×Nat) (last : Bool) : Nat×Nat :=
  let divisor := max ((progress.2+0xFFFE)/0xFFFF) 1
  let total := max (progress.2/divisor) 1
  if last then (total,total) else (min (progress.1/divisor) total,total)

def afterBuffer (chunk : Option (Bytes×Bool)) (progress : Nat×Nat) : ReadReply :=
  match chunk with
  | none => .buffer transferStatusError (stepCounts progress false).1 (stepCounts progress false).2 []
  | some (chunk,last) => .buffer (if last then transferStatusDone else transferStatusPartial)
      (stepCounts progress last).1 (stepCounts progress last).2 chunk

def ropFastTransferSourceGetBuffer (h bufferSize : Nat)
    (context : DownloadCollector → Except Ics.Written DownloadContext)
    (change : DownloadContext → Nat → Ics.Written×DownloadContext) : ReadReply×ReadSession :=
  match s.get h with
  | some (.copy c) =>
    let (chunk,c) := c.getBuffer (chunkSize bufferSize)
    (afterBuffer (some chunk) (c.served,c.total),s.put h (.copy c))
  | some (.download c) => match c.getBuffer W (context c) change (chunkSize bufferSize) with
    | .error _ => (.endless,s)
    | .ok (chunk,c) => (afterBuffer chunk c.progress,s.put h (.download c))
  | _ => (.failed .ecError,s)

def answerOpen {σ : Type} (s : ReadSession) (W : Wire) (l : Logon) :
    ReadRequest σ → ReadReply×ReadSession
  | .openFolder h fid => s.ropOpenFolder l h fid
  | .openMessage h mid => s.ropOpenMessage l h mid
  | .getContentsTable h tableFlags => s.ropGetContentsTable l h tableFlags
  | .table h op => s.ropTable h op
  | .sortTable h keys => s.ropSortTable W l.mail h keys
  | .restrict h r => s.ropRestrict W l.mail h r
  | .findRow h backward seekPos r => s.ropFindRow W l.mail h backward seekPos r
  | .queryRows h noAdvance forward rowCount => s.ropQueryRows W l.mail h noAdvance forward rowCount
  | .synchronizationConfigure h syncType syncFlags extraFlags propTags =>
    s.ropSynchronizationConfigure l h syncType syncFlags extraFlags propTags
  | .uploadState h stream => s.ropSyncUploadState W h stream
  | .copyMessages h mids => s.ropFastTransferSourceCopyMessages l h mids
  | .copyFolder h copyFlags => s.ropFastTransferSourceCopyFolder l h copyFlags
  | .copySource h source => s.openCopySource l h source
  | .getBuffer h bufferSize now => s.ropFastTransferSourceGetBuffer W h bufferSize
      (fun c => c.context W l.mail) (DownloadContext.emitMessage l.mail now)
  | .release h => (.silent,s.release h)
  | .other _ => (.silent,s)

def rebuildClosed (h : Nat) (t : TableState) : ReadReply×ReadSession :=
  if t.restriction.isNone && t.sortKeys.isEmpty then
    (.success,s.put h (.table {t with cursor:=0,view:=none}))
  else if t.messageIDs.isEmpty then
    (.success,s.put h (.table {t with cursor:=0,view:=some []}))
  else (.failed .ecError,s.put h (.table {t with cursor:=0}))

def findRowClosed (h : Nat) (backward : Bool) (seekPos : UInt8)
    (restriction : Except ErrorCode (Option Restriction)) : ReadReply×ReadSession :=
  s.onProjectedTable h fun t _ => match restriction with
    | .error code => (.failed code,s)
    | .ok r => match t.seekOrigin seekPos with
      | none => (.failed .ecNotSupported,s)
      | some origin => match t.scanIndices origin backward with
        | [] => (.foundRow none,s)
        | i::_ => (.failed .ecError,if r.isSome then s else s.put h (.table {t with cursor:=i}))

def queryRowsClosed (h : Nat) (noAdvance forward : Bool) (rowCount : Nat) :
    ReadReply×ReadSession :=
  s.onProjectedTable h fun t _ =>
    let page := t.pageIndices rowCount forward
    if page.1.isEmpty then
      let t := if noAdvance then t else {t with cursor:=page.2}
      (.rows (t.seekPosition forward) 0 [],s.put h (.table t))
    else (.failed .ecError,s)

def answerClosed {σ : Type} (s : ReadSession) (W : Wire) : ReadRequest σ → ReadReply×ReadSession
  | .openMessage h _ => (.failed (if (s.get h).isSome then .ecNotFound else .ecError),s)
  | .table h op => s.ropTable h op
  | .sortTable h keys => s.onTable h fun t => match keys with
      | none => (.failed .ecNotSupported,s)
      | some keys => s.rebuildClosed h {t with sortKeys:=keys}
  | .restrict h r => s.onTable h fun t => match r with
      | .error code => (.failed code,s)
      | .ok r => s.rebuildClosed h {t with restriction:=r}
  | .findRow h backward seekPos r => s.findRowClosed h backward seekPos r
  | .queryRows h noAdvance forward rowCount => s.queryRowsClosed h noAdvance forward rowCount
  | .uploadState h stream => s.ropSyncUploadState W h stream
  | .copyMessages h mids => s.onFolder h fun _ =>
    if mids.isEmpty then s.openCopy [] else (.failed .ecError,s)
  | .getBuffer h bufferSize _ => s.ropFastTransferSourceGetBuffer W h bufferSize
      DownloadCollector.closedContext DownloadContext.emitClosed
  | .release h => (.silent,s.release h)
  | .other _ => (.silent,s)
  | _ => (.failed .ecError,s)

def answer {σ : Type} (s : ReadSession) (W : Wire) (l : Logon) (r : ReadRequest σ) :
    ReadReply×ReadSession :=
  if s.closed then s.answerClosed W r else s.answerOpen W l r

end ReadSession

structure Reader where
  logon : Logon
  session : ReadSession

def Reader.dispatch (W : Wire) (w : Reader) : ReadRequest Reader → ReadReply×Reader
  | .other run => (.silent,run w)
  | r =>
    let (reply,session) := w.session.answer W w.logon r
    (reply,{w with session:=session})

def Reader.delegate (caller : GoString) (isStoreOwner : Bool) (m : MailStore) : Reader :=
  ⟨⟨some caller,isStoreOwner,m⟩,.fresh⟩

end HermEX.Rop
