import HermEX.Objectstore.Message
import Mathlib.Data.Finset.Basic
import Mathlib.Data.List.Sort

namespace HermEX.Objectstore

open Framework Mapi

inductive Flag where
  | seen
  | answered
  | flagged
  | deleted
  | draft
deriving DecidableEq

abbrev Flags := Finset Flag

structure IndexFolderRow where
  folderId : Nat
  uidnext : Nat
  highestModseq : Nat

structure IndexMessageRow where
  messageId : Nat
  folderId : Nat
  uid : Nat
  flags : Flags
  modseq : Nat
deriving DecidableEq

structure VanishedRow where
  folderId : Nat
  uid : Nat
  modseq : Nat

def VanishedRow.key (r : VanishedRow) : Nat×Nat := (r.folderId,r.uid)

structure IndexDB where
  folders : Table IndexFolderRow.folderId
  messages : Table IndexMessageRow.messageId
  vanished : Table VanishedRow.key

def IndexDB.empty : IndexDB := ⟨.empty,.empty,.empty⟩

/-- The objects and the index over their mail. -/
structure Store where
  objdb : ObjDB
  idxdb : IndexDB

def withSeen (flags : Flags) (read : Bool) : Flags :=
  if read then insert .seen flags else flags.erase .seen

namespace IndexDB

variable (idx : IndexDB) (fid : Nat)

def updateFolder (f : IndexFolderRow → IndexFolderRow)
    (hf : ∀ r,(f r).folderId=r.folderId) : IndexDB :=
  {idx with folders:=idx.folders.updateWhere (fun r => r.folderId=fid) f hf}

def updateMessage (mid : Nat) (f : IndexMessageRow → IndexMessageRow)
    (hf : ∀ r,(f r).messageId=r.messageId) : IndexDB :=
  {idx with messages:=idx.messages.updateWhere (fun r => r.messageId=mid) f hf}

theorem mem_updateMessage {idx : IndexDB} {mid : Nat} {f : IndexMessageRow → IndexMessageRow}
    {hf : ∀ r,(f r).messageId=r.messageId} {x : IndexMessageRow} :
    x∈(idx.updateMessage mid f hf).messages ↔
      ∃ r∈idx.messages,x=if r.messageId=mid then f r else r := by
  simp [updateMessage]

def byUID (uid : Nat) : Option IndexMessageRow :=
  idx.messages.rows.find? fun r => r.folderId=fid ∧ r.uid=uid

def nextModSeq : Except StoreErr (Nat×IndexDB) :=
  match idx.folders.get fid with
  | none => .error .notFound
  | some f => .ok (f.highestModseq+1,
      idx.updateFolder fid (fun r => {r with highestModseq:=f.highestModseq+1}) fun _ => rfl)

def allocateUID : Except StoreErr (Nat×IndexDB) :=
  match idx.folders.get fid with
  | none => .error .notFound
  | some f => .ok (f.uidnext,
      idx.updateFolder fid (fun r => {r with uidnext:=r.uidnext+1}) fun _ => rfl)

def ensureIndexFolder (obj : ObjDB) (fid : Nat) : Except StoreErr IndexDB :=
  match idx.folders.get fid,obj.folders.get fid with
  | some _,_ => .ok idx
  | none,none => .error .notFound
  | none,some _ => .ok {idx with folders:=idx.folders.put ⟨fid,1,1⟩}

def indexMessage (obj : ObjDB) (fid mid : Nat) (flags : Flags) :
    Except StoreErr (Nat×IndexDB) := do
  let idx ← idx.ensureIndexFolder obj fid
  let (uid,idx) ← idx.allocateUID fid
  let (modseq,idx) ← idx.nextModSeq fid
  match idx.messages.insert ⟨mid,fid,uid,flags,modseq⟩ with
  | none => .error .constraint
  | some t => .ok (uid,{idx with messages:=t})

def dropRow (mid : Nat) : IndexDB :=
  {idx with messages:=idx.messages.deleteWhere fun r => r.messageId=mid}

def vanishIndexRow (r : IndexMessageRow) : Except StoreErr IndexDB := do
  let (modseq,idx) ← idx.nextModSeq r.folderId
  return ({idx with vanished:=idx.vanished.put ⟨r.folderId,r.uid,modseq⟩}).dropRow r.messageId

def recordVanishedAndDrop (mid : Nat) : Except StoreErr IndexDB :=
  match idx.messages.get mid with
  | none => .ok idx
  | some r => idx.vanishIndexRow r

def mirrorRead (mid : Nat) (read : Bool) : IndexDB :=
  idx.updateMessage mid (fun r => {r with flags:=withSeen r.flags read}) fun _ => rfl

def vanishedSince (since : Nat) : List Nat :=
  ((idx.vanished.rows.filter fun r => r.folderId=fid ∧ since< r.modseq).map
    VanishedRow.uid).insertionSort (·≤·)

def folderHighestModSeq : Nat :=
  match idx.folders.get fid with
  | none => 0
  | some f => f.highestModseq

def messageModSeqs : List (Nat×Nat) :=
  (idx.messages.rows.filter fun r => r.folderId=fid).map fun r => (r.uid,r.modseq)

def messageFlags (uid : Nat) : Option Flags := (idx.byUID fid uid).map IndexMessageRow.flags

end IndexDB

namespace Store

variable (s : Store) (mid : Nat)

def setMessageFlags (fid uid : Nat) (flags : Flags) : Except StoreErr Unit×Store :=
  match s.idxdb.byUID fid uid with
  | none => (.error .notFound,s)
  | some r =>
    let obj := (s.objdb.setObjReadState r.messageId (decide (.seen∈flags))).2
    match s.idxdb.nextModSeq fid with
    | .error e => (.error e,{s with objdb:=obj})
    | .ok (modseq,idx) => (.ok (),⟨obj,idx.updateMessage r.messageId
        (fun r => {r with flags:=flags,modseq:=modseq}) fun _ => rfl⟩)

def setMessageReadState (read : Bool) : Except StoreErr Unit×Store :=
  match s.objdb.setObjReadState mid read with
  | (false,_) => (.error .notFound,s)
  | (true,obj) => (.ok (),⟨obj,s.idxdb.mirrorRead mid read⟩)

def applyReadStateChanges (fid : Nat) :
    List ReadStateChange → ObjDB → Except StoreErr (List Nat×List (Nat×Bool)×ObjDB)
  | [],db => .ok ([],[],db)
  | c::cs,db =>
    match parseSourceKeyMID c.sourceKey db.replica with
    | .error e => .error e
    | .ok none => applyReadStateChanges fid cs db
    | .ok (some mid) =>
      match db.applyReadStateChange fid mid c.markRead with
      | (none,db) => applyReadStateChanges fid cs db
      | (some rcn,db) => (applyReadStateChanges fid cs db).map fun (cns,mirror,db) =>
        (rcn::cns,(mid,c.markRead)::mirror,db)

def mirrorReadState (mirror : List (Nat×Bool)) (idx : IndexDB) : IndexDB :=
  mirror.foldl (fun idx m => idx.mirrorRead m.1 m.2) idx

def importReadStateChanges (fid : Nat) (changes : List ReadStateChange) :
    Except StoreErr (List Nat)×Store :=
  match applyReadStateChanges fid changes s.objdb with
  | .error e => (.error e,s)
  | .ok (cns,mirror,obj) => (.ok cns,⟨obj,mirrorReadState mirror s.idxdb⟩)

def softDeleteRow (s : Store) (mid : Nat) : Except StoreErr Unit×Store :=
  match s.objdb.softDeleteRow mid with
  | (.error e,obj) => (.error e,{s with objdb:=obj})
  | (.ok (),obj) =>
    match s.idxdb.recordVanishedAndDrop mid with
    | .error e => (.error e,{s with objdb:=obj})
    | .ok idx => (.ok (),⟨obj,idx⟩)

def softDeleteMessage (fid uid : Nat) : Except StoreErr Unit×Store :=
  match s.idxdb.byUID fid uid with
  | none => (.error .notFound,s)
  | some r => s.softDeleteRow r.messageId

def softDeleteObject : Except StoreErr Unit×Store :=
  match s.objdb.messages.get mid with
  | none => (.error .notFound,s)
  | some r => if r.isDeleted then (.ok (),s) else s.softDeleteRow mid

def removeRows : Store := ⟨s.objdb.deleteMessageRow mid,s.idxdb.dropRow mid⟩

def deleteMessage (fid uid : Nat) : Except StoreErr Unit×Store :=
  match s.idxdb.byUID fid uid with
  | none => (.error .notFound,s)
  | some r => (.ok (),s.removeRows r.messageId)

def deleteObject : Except StoreErr Unit×Store :=
  match s.objdb.messages.get mid with
  | none => (.error .notFound,s)
  | some _ => (.ok (),s.removeRows mid)

def appendMessage (fid : Nat) (msg : MessageHead) (flags : Flags) :
    Except StoreErr Nat×Store :=
  let msg := {msg with read:=msg.read || decide (.seen∈flags)}
  match s.objdb.createMessage fid msg with
  | .error e => (.error e,s)
  | .ok (eid,obj) =>
    match s.idxdb.indexMessage obj fid eid flags with
    | .error e => (.error e,{s with objdb:=obj})
    | .ok (uid,idx) => (.ok uid,⟨obj,idx⟩)

def moveMessage (src uid dst : Nat) (raw : Except StoreErr MessageHead) :
    Except StoreErr Nat×Store :=
  match s.idxdb.byUID src uid,raw with
  | none,_ => (.error .notFound,s)
  | some _,.error e => (.error e,s)
  | some r,.ok msg =>
    match s.appendMessage dst msg r.flags with
    | (.error e,s) => (.error e,s)
    | (.ok new,s) =>
      match s.deleteMessage src uid with
      | (.error e,s) => (.error e,s)
      | (.ok (),s) => (.ok new,s)

def moveMessageImport (s : Store) (srcFolderID srcMID destFolderID dstMID : Nat) :
    Except StoreErr Unit×Store :=
  match s.objdb.moveMessageImport srcFolderID srcMID destFolderID dstMID with
  | .error e => (.error e,s)
  | .ok obj => (.ok (),⟨obj,s.idxdb.dropRow srcMID⟩)

def restoreMessageRow (s : Store) (mid destFID : Nat) (read : Bool) :
    Except StoreErr Nat×Store :=
  match s.objdb.restoreMessageRow mid destFID with
  | .error e => (.error e,s)
  | .ok obj =>
    match s.idxdb.indexMessage obj destFID mid (if read then {.seen} else ∅) with
    | .error e => (.error e,{s with objdb:=obj})
    | .ok (uid,idx) => (.ok uid,⟨obj,idx⟩)

def recoverMessage (fid mid : Nat) : Except StoreErr Nat×Store :=
  match s.objdb.messages.get mid with
  | none => (.error .notFound,s)
  | some r => if r.parentFid≠fid ∨ ¬r.isDeleted then (.error .notFound,s)
      else s.restoreMessageRow mid fid r.readState

def recoverMessageTo (targetFID : Nat) : Except StoreErr Nat×Store :=
  match s.objdb.messages.get mid with
  | none => (.error .notFound,s)
  | some r => if ¬r.isDeleted then (.error .notFound,s)
      else s.restoreMessageRow mid targetFID r.readState

def importDeletes (fid : Nat) : List Bytes → Store → Except StoreErr (List Nat)×Store
  | [],s => (.ok [],s)
  | sk::sks,s =>
    match parseSourceKeyMID sk s.objdb.replica with
    | .error e => (.error e,s)
    | .ok none => importDeletes fid sks s
    | .ok (some mid) =>
      match s.objdb.messages.get mid with
      | none => importDeletes fid sks s
      | some r =>
        if r.parentFid≠fid then importDeletes fid sks s
        else
          let (res,s) := importDeletes fid sks (s.deleteObject mid).2
          (res.map fun ids => mid::ids,s)

end Store
end HermEX.Objectstore
