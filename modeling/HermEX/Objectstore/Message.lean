import HermEX.Framework.Runs
import HermEX.Objectstore.State

namespace HermEX.Objectstore

open Framework Mapi

/-- What the store reads off a message's properties. -/
structure MessageHead where
  associated : Bool
  read : Bool
  size : Nat

/-- `isNew` was settled when the import was opened. -/
structure UploadMessage where
  folderID : Nat
  mid : Nat
  associated : Bool
  isNew : Bool
  read : Bool
  size : Nat

def parseSourceKeyMID (sk : Bytes) (home : GUID) : Except StoreErr (Option Nat) :=
  if sk.length≠22 then .error .sourceKeyLength
  else if sk.take 16≠home.flat then .ok none
  else .ok (some (gcToValue (sk.drop 16)))

structure ReadStateChange where
  sourceKey : Bytes
  markRead : Bool

namespace ObjDB

variable (db : ObjDB) (mid : Nat)

def updateMessage (f : MessageRow → MessageRow)
    (hf : ∀ r,(f r).messageId=r.messageId) : ObjDB :=
  {db with messages:=db.messages.updateWhere (fun r => r.messageId=mid) f hf}

theorem mem_updateMessage {db : ObjDB} {mid : Nat} {f : MessageRow → MessageRow}
    {hf : ∀ r,(f r).messageId=r.messageId} {x : MessageRow} :
    x∈(db.updateMessage mid f hf).messages ↔
      ∃ r∈db.messages,x=if r.messageId=mid then f r else r := by
  simp [updateMessage]

def insertMessageRow (row : MessageRow) : Except StoreErr ObjDB :=
  match db.folders.get row.parentFid,db.messages.insert row with
  | some _,some t => .ok {db with messages:=t}
  | _,_ => .error .constraint

def createMessage (folderID : Nat) (msg : MessageHead) :
    Except StoreErr (Nat×ObjDB) :=
  match db.allocateEIDFromFolder folderID with
  | .error e => .error e
  | .ok (eid,db) =>
    let (cn,db) := db.allocateCN
    (db.insertMessageRow ⟨eid,folderID,false,msg.associated,cn,msg.read,none,msg.size⟩).map
      fun db => (eid,db)

def importMessageChange (folderID mid : Nat) (associated : Bool)
    (msg : MessageHead) : UploadMessage :=
  ⟨folderID,mid,associated,(db.messages.get mid).isNone,msg.read,msg.size⟩

def clearTarget (um : UploadMessage) : ObjDB :=
  if um.isNew then db.advanceFolderEID um.folderID um.mid
  else {db with messages:=db.messages.deleteWhere fun r => r.messageId=um.mid}

def commitUpload (um : UploadMessage) : Except StoreErr ObjDB :=
  let (cn,db) := db.allocateCN
  (db.clearTarget um).insertMessageRow
    ⟨um.mid,um.folderID,false,um.associated,cn,um.read,none,um.size⟩

def modifyMessageProperties : Except StoreErr ObjDB :=
  match db.messages.get mid with
  | none => .error .constraint
  | some _ =>
    let (cn,db) := db.allocateCN
    .ok (db.updateMessage mid (fun r => {r with changeNumber:=cn}) fun _ => rfl)

def setObjReadState (want : Bool) : Bool×ObjDB :=
  match db.messages.get mid with
  | none => (false,db)
  | some r =>
    if r.isAssociated ∨ r.readState=want then (true,db)
    else
      let (rcn,db) := db.allocateCN
      (true,db.updateMessage mid (fun r => {r with readState:=want,readCn:=some rcn}) fun _ => rfl)

def applyReadStateChange (folderID mid : Nat) (markRead : Bool) :
    Option Nat×ObjDB :=
  match db.messages.get mid with
  | none => (none,db)
  | some r =>
    if r.parentFid≠folderID ∨ r.isDeleted then (none,db)
    else if r.isAssociated ∨ r.readState=markRead then (none,db)
    else
      let (rcn,db) := db.allocateCN
      (some rcn,db.updateMessage mid
        (fun r => {r with readState:=markRead,readCn:=some rcn}) fun _ => rfl)

def deleteMessageRow : ObjDB := {db with messages:=db.messages.deleteWhere fun r => r.messageId=mid}

def markDeleted : ObjDB :=
  let (cn,db) := db.allocateCN
  db.updateMessage mid (fun r => {r with isDeleted:=true,changeNumber:=cn}) fun _ => rfl

def softDeleteRow : Except StoreErr Unit×ObjDB :=
  let db := db.markDeleted mid
  match db.modifyMessageProperties mid with
  | .error e => (.error e,db)
  | .ok db => (.ok (),db)

def restoreMessageRow (destFID : Nat) : Except StoreErr ObjDB :=
  let (cn,db) := db.allocateCN
  match db.folders.get destFID with
  | none => .error .constraint
  | some _ => .ok (db.updateMessage mid
      (fun r => {r with isDeleted:=false,parentFid:=destFID,changeNumber:=cn}) fun _ => rfl)

def renameMovedMessage (r : MessageRow) (destFolderID dstMID cn : Nat) : ObjDB :=
  let moved := {r with messageId:=dstMID,parentFid:=destFolderID,changeNumber:=cn}
  let rest := db.messages.deleteWhere fun x => x.messageId=r.messageId
  {db with messages:=rest.put moved}.advanceFolderEID destFolderID dstMID

def moveMessageImport (srcFolderID srcMID destFolderID dstMID : Nat) :
    Except StoreErr ObjDB :=
  match db.messages.get srcMID with
  | none => .error .objectDeleted
  | some r =>
    if r.parentFid≠srcFolderID ∨ r.isDeleted then .error .objectDeleted
    else
      let (cn,db) := db.allocateCN
      match db.folders.get destFolderID with
      | none => .error .constraint
      | some _ => .ok (db.renameMovedMessage r destFolderID dstMID cn)

end ObjDB

theorem insertMessageRow_ok {db db' : ObjDB} {row : MessageRow}
    (h : db.insertMessageRow row=.ok db') :
    (∃ f∈db.folders,f.folderId=row.parentFid) ∧ (∀ r∈db.messages,r.messageId≠row.messageId) ∧
      ∃ t,db'={db with messages:=t} ∧ ∀ r,r∈t ↔ r∈db.messages ∨ r=row := by
  unfold ObjDB.insertMessageRow at h
  split at h
  · rename_i f t hf ht
    have hi := Table.insert_eq_some ht
    have hg := Table.get_eq_some.mp hf
    exact ⟨⟨f,hg.1,hg.2⟩,hi.1,t,(Except.ok.inj h).symm,hi.2⟩
  · cases h

theorem allocateEIDFromFolder_messages {db db' : ObjDB} {fid eid : Nat}
    (h : db.allocateEIDFromFolder fid=.ok (eid,db')) :
    db'.messages=db.messages ∧ db'.lastChangeNumber=db.lastChangeNumber := by
  unfold ObjDB.allocateEIDFromFolder at h
  split at h
  · cases h
  · split_ifs at h <;> cases h <;> exact ⟨rfl,rfl⟩

theorem createMessage_ok {db db' : ObjDB} {fid eid : Nat} {msg : MessageHead}
    (h : db.createMessage fid msg=.ok (eid,db')) :
    ∃ db₁ t,db.allocateEIDFromFolder fid=.ok (eid,db₁) ∧
      db'={db₁.allocateCN.2 with messages:=t} ∧ (∀ r∈db₁.messages,r.messageId≠eid) ∧
      ∀ r,r∈t ↔ r∈db₁.messages ∨
        r=⟨eid,fid,false,msg.associated,db₁.allocateCN.1,msg.read,none,msg.size⟩ := by
  unfold ObjDB.createMessage at h
  split at h
  · cases h
  rename_i e db₁ he
  obtain ⟨d,hi,hd⟩ := map_eq_ok h
  obtain ⟨rfl,rfl⟩ := Prod.mk.inj hd
  obtain ⟨-,hn,t,rfl,ht⟩ := insertMessageRow_ok hi
  exact ⟨db₁,t,he,rfl,hn,ht⟩

theorem mem_clearTarget (db : ObjDB) (um : UploadMessage) {r : MessageRow}
    (hr : r∈(db.clearTarget um).messages) : r∈db.messages := by
  unfold ObjDB.clearTarget at hr
  split_ifs at hr
  · exact hr
  · exact (Table.mem_deleteWhere.mp hr).1

end HermEX.Objectstore
