import HermEX.Objectstore.Collector
import HermEX.Objectstore.Permission

namespace HermEX.Rop

open Framework Mapi Objectstore

/-- The messages are those a modelled request makes. -/
inductive Object where
  | logon
  | folder (folderID : Nat)
  | message (messageID folderID : Nat)
  | sync (upload : UploadCollector)
  | uploadMessage (uploadMsg : UploadMessage)

/-- `delegateCaller` is none for the owner's logon; `isStoreOwner` if listed. -/
structure Session where
  delegateCaller : Option GoString
  isStoreOwner : Bool
  handles : List (Nat×Object)
  next : Nat

namespace Session

variable (s : Session)

def alloc (o : Object) : Nat×Session :=
  (s.next,{s with handles:=(s.next,o)::s.handles,next:=s.next+1})

def get (h : Nat) : Option Object := s.handles.lookup h

def openFolder (h : Nat) : Option Nat :=
  match s.get h with
  | some (.folder fid) => some fid
  | _ => none

def upload (h : Nat) : Option UploadCollector :=
  match s.get h with
  | some (.sync c) => some c
  | _ => none

def authorize (db : ObjDB) (fid : Nat) (need : UInt32) : Bool :=
  match s.delegateCaller with
  | none => true
  | some caller => db.resolvePermission s.isStoreOwner fid caller &&& need=need

def logon (delegateCaller : Option GoString) (isStoreOwner : Bool) : Session :=
  (alloc ⟨delegateCaller,isStoreOwner,[],1⟩ .logon).2

end Session

inductive ErrorCode where
  | ecError
  | ecNotFound
  | ecNotSupported
  | ecAccessDenied
  | ecFolderCycle
  | ecSyncObjectDel
deriving DecidableEq

/-- `endless` is a request that is never answered. -/
inductive Reply where
  | failed (code : ErrorCode)
  | success
  | completed (partialCompletion : Bool)
  | opened (handle : Nat)
  | written (id : Nat)
  | endless

def tryEach {α : Type} (f : α → Store → Option (Except StoreErr Unit×Store)) :
    List α → Store → Option Bool×Store
  | [],s => (some false,s)
  | x::xs,s => match f x s with
    | none => (none,s)
    | some (res,s) =>
      let (rest,s) := tryEach f xs s
      (rest.map (· || res matches .error _),s)

def softDeleteEach : List Nat → Store → Option Bool×Store :=
  tryEach fun mid s => some (s.softDeleteObject mid)

structure ReadFlagAction where
  read : Bool
  change : Bool
  receipt : Bool

def rfDefault : UInt8 := 0x00
def rfSuppressReceipt : UInt8 := 0x01
def rfClearReadFlag : UInt8 := 0x04
def rfReserved : UInt8 := 0x0A
def rfGenerateReceiptOnly : UInt8 := 0x10

def decodeReadFlags (flags : UInt8) : ReadFlagAction :=
  let f := flags &&& ~~~rfReserved
  if f=rfDefault then ⟨true,true,true⟩
  else if f=rfSuppressReceipt then ⟨true,true,false⟩
  else if f=rfClearReadFlag ∨ f=rfClearReadFlag|||rfSuppressReceipt then ⟨false,true,false⟩
  else if f=rfGenerateReceiptOnly then ⟨false,false,true⟩
  else ⟨false,false,false⟩

def readFlagTargets (s : Store) (fid : Nat) (ids : List Nat) : List Nat :=
  if ids=[] then (s.listMessages fid).map IndexMessageRow.messageId else ids

def maybeReadReceipt (receipt : Nat → Bool) (s : Store) (mid : Nat) : Store :=
  if receipt mid then
    match s.objdb.modifyMessageProperties mid with
    | .error _ => s
    | .ok obj => {s with objdb:=obj}
  else s

def getMessageReadState (s : Store) (mid : Nat) : Except StoreErr Bool :=
  match s.objdb.messages.get mid with
  | none => .error .notFound
  | some r => .ok r.readState

def applyReadFlag (receipt : Nat → Bool) (action : ReadFlagAction) (mid : Nat) (s : Store) :
    Except StoreErr Unit×Store :=
  if action.change then
    match if action.receipt then getMessageReadState s mid else .ok false with
    | .error e => (.error e,s)
    | .ok wasRead => match s.setMessageReadState mid action.read with
      | (.error e,s) => (.error e,s)
      | (.ok (),s) => (.ok (),if action.receipt && action.read && !wasRead then
          maybeReadReceipt receipt s mid else s)
  else (.ok (),if action.receipt then maybeReadReceipt receipt s mid else s)

def copyStoredMessage (wire : Nat → Except StoreErr MessageHead) (src uid dst : Nat) (s : Store) :
    Except StoreErr Unit×Store :=
  match s.idxdb.byUID src uid with
  | none => (.error .notFound,s)
  | some m => Store.copyMessageTo wire dst m s

def moveCopyOne (wire : Nat → Except StoreErr MessageHead) (src dst : Nat) (move : Bool)
    (uid : Nat) (s : Store) : Except StoreErr Unit×Store :=
  match copyStoredMessage wire src uid dst s with
  | (.error e,s) => (.error e,s)
  | (.ok (),s) => if move then s.deleteMessage src uid else (.ok (),s)

def moveCopyEach (wire : Nat → Except StoreErr MessageHead) (src dst : Nat) (move : Bool)
    (ids : List Nat) (s : Store) : Option Bool×Store :=
  let uidByID := (s.listMessages src).map fun m => (m.messageId,m.uid)
  tryEach (fun mid s => match uidByID.lookup mid with
    | none => some (.error .notFound,s)
    | some uid => some (moveCopyOne wire src dst move uid s)) ids s

def childFolders (db : ObjDB) (parentID : Nat) : Option (List Nat) :=
  db.listFolders.map fun all =>
    (all.filter fun f => match f.2 with
      | none => parentID=privateFIDIPMSubtree
      | some p => p=parentID).map Prod.fst++db.searchFolderChildren parentID

def emptyFolderContents (fid : Nat) (s : Store) : Option Bool×Store :=
  let (failed,s) := softDeleteEach ((s.listMessages fid).map IndexMessageRow.messageId) s
  match failed,childFolders s.objdb fid with
  | some failed,some children =>
    let (rest,s) := tryEach (fun c s => s.deleteFolder c) children s
    (rest.map (failed || ·),s)
  | _,_ => (none,s)

def plainError (_ : StoreErr) : ErrorCode := .ecError

def folderCopyError : StoreErr → ErrorCode
  | .folderCycle => .ecFolderCycle
  | .notFound => .ecNotFound
  | _ => .ecError

def messageMoveError : StoreErr → ErrorCode
  | .objectDeleted => .ecSyncObjectDel
  | _ => .ecError

structure World where
  session : Session
  store : Store

namespace World

variable (w : World) (h : Nat)

def has (fid : Nat) (need : UInt32) : Bool := w.session.authorize w.store.objdb fid need

def openHandle (o : Object) : Reply×World :=
  let (h,session) := w.session.alloc o
  (.opened h,{w with session:=session})

def onFolder (k : Nat → Reply×World) : Reply×World :=
  match w.session.openFolder h with
  | none => (.failed .ecError,w)
  | some fid => k fid

def onUpload (k : UploadCollector → Reply×World) : Reply×World :=
  match w.session.upload h with
  | none => (.failed .ecError,w)
  | some c => k c

def unlessDenied (fid : Nat) (need : UInt32) (k : Reply×World) : Reply×World :=
  if w.has fid need then k else (.failed .ecAccessDenied,w)

def afterLoop (res : Option Bool×Store) : Reply×World :=
  (match res.1 with
    | none => .endless
    | some failed => .completed failed,{w with store:=res.2})

def afterWrite {α : Type} (code : StoreErr → ErrorCode) (ok : α → Reply)
    (res : Except StoreErr α×Store) : Reply×World :=
  (match res.1 with
    | .error e => .failed (code e)
    | .ok a => ok a,{w with store:=res.2})

def afterQuery (res : Option (Except StoreErr Unit×Store)) : Reply×World :=
  match res with
  | none => (.endless,w)
  | some res => w.afterWrite plainError (fun _ => .completed false) res

def ropOpenFolder (fid : Nat) : Reply×World :=
  match w.session.get h with
  | none => (.failed .ecError,w)
  | some _ =>
    if w.store.objdb.folderExists fid then
      w.unlessDenied fid frightsVisible (w.openHandle (.folder fid))
    else (.failed .ecNotFound,w)

def ropOpenMessage (mid : Nat) : Reply×World :=
  match w.session.get h with
  | none => (.failed .ecError,w)
  | some _ => match w.store.objdb.messages.get mid with
    | none => (.failed .ecNotFound,w)
    | some r => w.unlessDenied r.parentFid frightsReadAny
        (w.openHandle (.message mid r.parentFid))

def ropSetReadFlags (flags : UInt8) (ids : List Nat)
    (receipt : Nat → Bool) : Reply×World :=
  w.onFolder h fun fid => w.unlessDenied fid frightsEditAny <| w.afterLoop <|
    tryEach (fun mid s => some (applyReadFlag receipt (decodeReadFlags flags) mid s))
      (readFlagTargets w.store fid ids) w.store

def ropDeleteMessages (ids : List Nat) : Reply×World :=
  w.onFolder h fun fid => w.unlessDenied fid frightsDeleteAny <| w.afterLoop <|
    softDeleteEach ids w.store

def ropHardDeleteMessages (ids : List Nat) : Reply×World :=
  w.onFolder h fun fid => w.unlessDenied fid frightsDeleteAny <|
    w.afterWrite plainError (fun _ => .completed false) <|
      Store.forEach (fun mid s => s.softDeleteObject mid) ids w.store

def ropMoveCopyMessages (dh : Nat) (ids : List Nat) (wantCopy : Bool)
    (wire : Nat → Except StoreErr MessageHead) : Reply×World :=
  w.onFolder h fun src => w.onFolder dh fun dst =>
    w.unlessDenied src (if wantCopy then frightsReadAny else frightsDeleteAny) <|
      w.unlessDenied dst frightsCreate <| w.afterLoop <|
        moveCopyEach wire src dst (!wantCopy) ids w.store

def ropEmptyFolder : Reply×World :=
  w.onFolder h fun fid => w.unlessDenied fid frightsDeleteAny <| w.afterLoop <|
    emptyFolderContents fid w.store

def ropHardDeleteMessagesAndSubfolders : Reply×World :=
  w.onFolder h fun fid => w.unlessDenied fid frightsDeleteAny <| w.afterLoop <|
    emptyFolderContents fid w.store

def ropDeleteFolder (fid : Nat) : Reply×World :=
  w.onFolder h fun _ => w.unlessDenied fid frightsOwner <| w.afterQuery <| w.store.deleteFolder fid

def renameStore (s : Store) (fid : Nat) (newParent : Option Nat) (newName : GoString)
    (ntNow : UInt64) : Option (Except StoreErr Unit×Store) :=
  (s.objdb.renameFolder fid newParent newName ntNow).map fun x => (x.1,{s with objdb:=x.2})

def ropMoveFolder (dh fid : Nat) (newName : GoString) (ntNow : UInt64) :
    Reply×World :=
  w.onFolder h fun _ => w.unlessDenied fid frightsOwner <|
    match w.session.openFolder dh with
    | none => w.afterQuery (renameStore w.store fid none newName ntNow)
    | some dest => w.unlessDenied dest frightsCreateSubfolder <|
        w.afterQuery (renameStore w.store fid (some dest) newName ntNow)

def ropCopyFolder (dh fid : Nat) (newName : GoString) (recursive : Bool)
    (wire : Nat → Except StoreErr MessageHead) (ntNow : UInt64) (levels : Nat) : Reply×World :=
  w.onFolder h fun _ => w.unlessDenied fid frightsReadAny <| w.onFolder dh fun dest =>
    w.unlessDenied dest frightsCreateSubfolder <|
      let (res,store) := w.store.copyFolder wire ntNow levels fid dest newName recursive
      (match res with
        | none => .endless
        | some (.error e) => .failed (folderCopyError e)
        | some (.ok _) => .completed false,{w with store:=store})

def ropSyncOpenCollector (isContent : Bool) : Reply×World :=
  w.onFolder h fun fid => w.unlessDenied fid frightsEditAny <|
    w.openHandle (.sync ⟨fid,if isContent then .contents else .hierarchy⟩)

def ropSyncImportHierarchyChange (hichyvals propvals : PropertyValues)
    (ntNow : UInt64) : Reply×World :=
  w.onUpload h fun c => w.afterWrite plainError .written <|
    c.importHierarchyChange w.store hichyvals propvals ntNow

def importDeletesTag : PropTag := 0x00001102

def ropSyncImportDeletes (propvals : PropertyValues) : Reply×World :=
  w.onUpload h fun c => match propvals with
    | [(tag,.bytess keys)] =>
      if tag=importDeletesTag then
        w.afterWrite plainError (fun _ => .success) (c.importDeletes w.store keys)
      else (.failed .ecError,w)
    | _ => (.failed .ecError,w)

def ropSyncImportReadStateChanges (changes : List ReadStateChange) :
    Reply×World :=
  w.onUpload h fun c => w.afterWrite plainError (fun _ => .success) <|
    c.importReadStateChanges w.store changes

def ropSyncImportMessageMove (srcFolderKey srcMsgKey dstMsgKey : Bytes) :
    Reply×World :=
  w.onUpload h fun c => w.afterWrite messageMoveError (fun _ => .written 0) <|
    c.importMessageMove w.store srcFolderKey srcMsgKey dstMsgKey

def ropSyncImportMessageChange (importFlags : UInt8)
    (header : PropertyValues) : Reply×World :=
  w.onUpload h fun c => match c.importMessageChange w.store importFlags header with
    | .error _ => (.failed .ecError,w)
    | .ok um => w.openHandle (.uploadMessage um)

def saveUploadedMessage (um : UploadMessage) (msg : MessageHead) (infected : Bool) :
    Reply×World :=
  match w.store.commitUpload {um with read:=msg.read,size:=msg.size} with
  | (.error _,s) => (.failed .ecError,{w with store:=s})
  | (.ok mid,s) =>
    if infected then (.failed .ecAccessDenied,{w with store:=(s.deleteObject mid).2})
    else (.written mid,{w with store:=s})

def ropSaveChangesMessage (msg : MessageHead) (infected : Bool) :
    Reply×World :=
  match w.session.get h with
  | some (.uploadMessage um) => w.saveUploadedMessage um msg infected
  | some (.message mid fid) => w.unlessDenied fid frightsEditAny (.written mid,w)
  | _ => (.failed .ecError,w)

end World

/-- With the clock, receipts, stored bytes, a copy's reach and the scanner. -/
inductive Request where
  | openFolder (h fid : Nat)
  | openMessage (h mid : Nat)
  | setReadFlags (h : Nat) (flags : UInt8) (ids : List Nat) (receipt : Nat → Bool)
  | deleteMessages (h : Nat) (ids : List Nat)
  | hardDeleteMessages (h : Nat) (ids : List Nat)
  | moveCopyMessages (h dh : Nat) (ids : List Nat) (wantCopy : Bool)
      (wire : Nat → Except StoreErr MessageHead)
  | emptyFolder (h : Nat)
  | hardDeleteMessagesAndSubfolders (h : Nat)
  | deleteFolder (h fid : Nat)
  | moveFolder (h dh fid : Nat) (newName : GoString) (ntNow : UInt64)
  | copyFolder (h dh fid : Nat) (newName : GoString) (recursive : Bool)
      (wire : Nat → Except StoreErr MessageHead) (ntNow : UInt64) (levels : Nat)
  | syncOpenCollector (h : Nat) (isContent : Bool)
  | syncImportHierarchyChange (h : Nat) (hichyvals propvals : PropertyValues) (ntNow : UInt64)
  | syncImportDeletes (h : Nat) (propvals : PropertyValues)
  | syncImportReadStateChanges (h : Nat) (changes : List ReadStateChange)
  | syncImportMessageMove (h : Nat) (srcFolderKey srcMsgKey dstMsgKey : Bytes)
  | syncImportMessageChange (h : Nat) (importFlags : UInt8) (header : PropertyValues)
  | saveChangesMessage (h : Nat) (msg : MessageHead) (infected : Bool)

namespace World

def dispatch (w : World) : Request → Reply×World
  | .openFolder h fid => w.ropOpenFolder h fid
  | .openMessage h mid => w.ropOpenMessage h mid
  | .setReadFlags h flags ids receipt => w.ropSetReadFlags h flags ids receipt
  | .deleteMessages h ids => w.ropDeleteMessages h ids
  | .hardDeleteMessages h ids => w.ropHardDeleteMessages h ids
  | .moveCopyMessages h dh ids wantCopy wire => w.ropMoveCopyMessages h dh ids wantCopy wire
  | .emptyFolder h => w.ropEmptyFolder h
  | .hardDeleteMessagesAndSubfolders h => w.ropHardDeleteMessagesAndSubfolders h
  | .deleteFolder h fid => w.ropDeleteFolder h fid
  | .moveFolder h dh fid newName ntNow => w.ropMoveFolder h dh fid newName ntNow
  | .copyFolder h dh fid newName recursive wire ntNow levels =>
    w.ropCopyFolder h dh fid newName recursive wire ntNow levels
  | .syncOpenCollector h isContent => w.ropSyncOpenCollector h isContent
  | .syncImportHierarchyChange h hichyvals propvals ntNow =>
    w.ropSyncImportHierarchyChange h hichyvals propvals ntNow
  | .syncImportDeletes h propvals => w.ropSyncImportDeletes h propvals
  | .syncImportReadStateChanges h changes => w.ropSyncImportReadStateChanges h changes
  | .syncImportMessageMove h srcFolderKey srcMsgKey dstMsgKey =>
    w.ropSyncImportMessageMove h srcFolderKey srcMsgKey dstMsgKey
  | .syncImportMessageChange h importFlags header =>
    w.ropSyncImportMessageChange h importFlags header
  | .saveChangesMessage h msg infected => w.ropSaveChangesMessage h msg infected

def step (w : World) (rop : Request) : World := (w.dispatch rop).2

def delegateLogon (store : Store) (caller : GoString) (isStoreOwner : Bool) : World :=
  ⟨.logon (some caller) isStoreOwner,store⟩

end World
end HermEX.Rop
