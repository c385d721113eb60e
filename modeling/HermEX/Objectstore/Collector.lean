import HermEX.Objectstore.Folder

namespace HermEX.Objectstore

open Framework Mapi

inductive SyncType where
  | contents
  | hierarchy
deriving DecidableEq

structure UploadCollector where
  folderID : Nat
  syncType : SyncType

def importFlagAssociated : UInt8 := 0x10
def importFlagFailOnConflict : UInt8 := 0x40

def parseMessageImport (importFlags : UInt8) (header : PropertyValues) (home : GUID) :
    Except StoreErr (Nat×Bool) :=
  if importFlags &&& ~~~(importFlagAssociated|||importFlagFailOnConflict)≠0 then .error .importFlags
  else match bytesProp header prSourceKey with
    | none => .error .missingSourceKey
    | some sk =>
      if [prLastModificationTime,prChangeKey,prPredecessorChangeList].all header.has then
        (ObjDB.homeFolderKey sk home).map fun mid => (mid,importFlags &&& importFlagAssociated≠0)
      else .error .missingProperty

namespace UploadCollector

def importHierarchyChange (c : UploadCollector) (s : Store) (hichyvals propvals : PropertyValues)
    (ntNow : UInt64) : Except StoreErr Nat×Store :=
  if c.syncType≠.hierarchy then (.error .syncType,s)
  else match s.objdb.importHierarchyChange c.folderID hichyvals propvals ntNow with
    | .error e => (.error e,s)
    | .ok (fid,obj) => (.ok fid,{s with objdb:=obj})

def importDeletes (c : UploadCollector) (s : Store) (sourceKeys : List Bytes) :
    Except StoreErr (List Nat)×Store :=
  Store.importDeletes c.folderID sourceKeys s

def importReadStateChanges (c : UploadCollector) (s : Store) (changes : List ReadStateChange) :
    Except StoreErr Unit×Store :=
  if c.syncType≠.contents then (.error .syncType,s)
  else match s.importReadStateChanges c.folderID changes with
    | (.error e,s) => (.error e,s)
    | (.ok _,s) => (.ok (),s)

def importMessageChange (c : UploadCollector) (s : Store) (importFlags : UInt8)
    (header : PropertyValues) : Except StoreErr UploadMessage :=
  if c.syncType≠.contents then .error .syncType
  else (parseMessageImport importFlags header s.objdb.replica).map fun x =>
    s.objdb.importMessageChange c.folderID x.1 x.2 ⟨false,false,0⟩

def parseMessageMove (srcFolderKey srcMsgKey dstMsgKey : Bytes) (home : GUID) :
    Except StoreErr (Nat×Nat×Nat) := do
  let srcFID ← ObjDB.homeFolderKey srcFolderKey home
  let srcMID ← ObjDB.homeFolderKey srcMsgKey home
  let dstMID ← ObjDB.homeFolderKey dstMsgKey home
  return (srcFID,srcMID,dstMID)

def importMessageMove (c : UploadCollector) (s : Store)
    (srcFolderKey srcMsgKey dstMsgKey : Bytes) : Except StoreErr Unit×Store :=
  if c.syncType≠.contents then (.error .syncType,s)
  else match parseMessageMove srcFolderKey srcMsgKey dstMsgKey s.objdb.replica with
    | .error e => (.error e,s)
    | .ok (srcFID,srcMID,dstMID) => s.moveMessageImport srcFID srcMID c.folderID dstMID

end UploadCollector

def Store.commitUpload (s : Store) (um : UploadMessage) : Except StoreErr Nat×Store :=
  match s.objdb.commitUpload um with
  | .error e => (.error e,s)
  | .ok obj => (.ok um.mid,{s with objdb:=obj})

end HermEX.Objectstore
