import HermEX.Framework.Table
import HermEX.Mapi.Props

namespace HermEX.Objectstore

open Framework Mapi

/-- Nothing sets the deletion column: a row is live. -/
structure FolderRow where
  folderId : Nat
  parentId : Option Nat
  changeNumber : Nat
  isSearch : Bool
  curEid : Nat
  maxEid : Nat
  props : PropertyValues

structure MessageRow where
  messageId : Nat
  parentFid : Nat
  isDeleted : Bool
  isAssociated : Bool
  changeNumber : Nat
  readState : Bool
  readCn : Option Nat
  messageSize : Nat
deriving DecidableEq

structure PermissionRow where
  folderId : Nat
  username : GoString
  permission : UInt32

inductive StoreKind where
  | storePrivate
  | storePublic

/-- Counters, id ranges carved so far and tables. -/
structure ObjDB where
  kind : StoreKind
  replica : GUID
  lastChangeNumber : Nat
  lastArticleNumber : Nat
  currentEID : Nat
  maximumEID : Nat
  allocatedEids : List (Nat×Nat)
  folders : Table FolderRow.folderId
  messages : Table MessageRow.messageId
  permissions : List PermissionRow

def ObjDB.ofFolders (t : Table FolderRow.folderId) : ObjDB where
  kind := .storePrivate
  replica := .zero
  lastChangeNumber := 0
  lastArticleNumber := 0
  currentEID := 0x100
  maximumEID := 0xFFFF
  allocatedEids := [(1,0xFFFF)]
  folders := t
  messages := .empty
  permissions := []

inductive StoreErr where
  | notFound
  | builtinFolder
  | folderCycle
  | folderExists
  | objectDeleted
  | constraint
  | zeroCount
  | crossedRange
  | sourceKeyLength
  | missingSourceKey
  | missingProperty
  | importFlags
  | syncType
  | crossStore
  | valueType
  | nullColumn

def allocatedEIDRange : Nat := 0x10000

def customEIDBegin : Nat := 0x100

namespace ObjDB

variable (db : ObjDB) (fid : Nat)

def allocateCN : Nat×ObjDB :=
  (db.lastChangeNumber+1,{db with lastChangeNumber:=db.lastChangeNumber+1})

def allocateArticle : Nat×ObjDB :=
  (db.lastArticleNumber+1,{db with lastArticleNumber:=db.lastArticleNumber+1})

def maxRangeEnd : Nat := (db.allocatedEids.map Prod.snd).foldr max 0

def allocateEID : Nat×ObjDB :=
  if db.maximumEID≤db.currentEID then
    let cur := db.maxRangeEnd+1
    let max := db.maxRangeEnd+allocatedEIDRange
    (cur,{db with
      currentEID:=cur+1
      maximumEID:=max
      allocatedEids:=db.allocatedEids++[(cur+1,max)]})
  else (db.currentEID,{db with currentEID:=db.currentEID+1})

def allocateMore (db : ObjDB) (prev : Nat) : Nat → Except StoreErr ObjDB
  | 0 => .ok db
  | n+1 =>
    let (next,db) := db.allocateEID
    if next=prev+1 then db.allocateMore next n else .error .crossedRange

def allocateLocalIDs (count : Nat) : Except StoreErr (Nat×ObjDB) :=
  if count=0 then .error .zeroCount
  else
    let (first,db') := db.allocateEID
    (db'.allocateMore first (count-1)).map fun db => (first,db)

def updateFolder (f : FolderRow → FolderRow)
    (hf : ∀ r,(f r).folderId=r.folderId) : ObjDB :=
  {db with folders:=db.folders.updateWhere (fun r => r.folderId=fid) f hf}

def allocateEIDFromFolder : Except StoreErr (Nat×ObjDB) :=
  match db.folders.get fid with
  | none => .error .notFound
  | some f =>
    if f.maxEid≤f.curEid then
      let cur := db.maxRangeEnd+1
      let max := db.maxRangeEnd+allocatedEIDRange
      .ok (cur,{db with allocatedEids:=db.allocatedEids++[(cur,max)]}.updateFolder fid
        (fun r => {r with curEid:=cur+1,maxEid:=max}) fun _ => rfl)
    else .ok (f.curEid,db.updateFolder fid
      (fun r => {r with curEid:=f.curEid+1,maxEid:=f.maxEid}) fun _ => rfl)

def allocateRange : (Nat×Nat)×ObjDB :=
  let first := db.maxRangeEnd+1
  let last := first+allocatedEIDRange-1
  ((first,last),{db with allocatedEids:=db.allocatedEids++[(first,last)]})

def advanceFolderEID (mid : Nat) : ObjDB :=
  db.updateFolder fid (fun r => if r.curEid≤ mid ∧ mid≤ r.maxEid then {r with curEid:=mid+1}
    else r) fun r => by split_ifs <;> rfl

def advanceStoreEID : ObjDB :=
  if db.currentEID≤fid ∧ fid+1≤db.maximumEID then {db with currentEID:=fid+1} else db

end ObjDB

theorem mem_updateFolder (db : ObjDB) (fid : Nat) (f : FolderRow → FolderRow)
    (hf : ∀ r,(f r).folderId=r.folderId) {r' : FolderRow}
    (h : r'∈(db.updateFolder fid f hf).folders) :
    ∃ r∈db.folders,(r.folderId=fid ∧ r'=f r) ∨ (r.folderId≠fid ∧ r'=r) := by
  simp only [ObjDB.updateFolder,Table.mem_updateWhere] at h
  obtain ⟨r,hr,he⟩ := h
  by_cases hfid : r.folderId=fid
  · exact ⟨r,hr,.inl ⟨hfid,by simpa [hfid] using he⟩⟩
  · exact ⟨r,hr,.inr ⟨hfid,by simpa [hfid] using he⟩⟩

end HermEX.Objectstore
