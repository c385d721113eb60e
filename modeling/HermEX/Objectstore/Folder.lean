import HermEX.Framework.Forest
import HermEX.Framework.Unicode
import HermEX.Objectstore.Index

namespace HermEX.Objectstore

open Framework Mapi

def goString (s : String) : GoString := utf8Bytes s.toList

def privateFIDRoot : Nat := 0x01
def privateFIDSpoolerQueue : Nat := 0x03
def privateFIDIPMSubtree : Nat := 0x09
def privateFIDDeletedItems : Nat := 0x0b
def privateFIDInbox : Nat := 0x0d
def privateFIDContacts : Nat := 0x13
def privateFIDSyncIssues : Nat := 0x19
def publicFIDRoot : Nat := 0x01
def publicFIDIPMSubtree : Nat := 0x02
def publicFIDNonIPMSubtree : Nat := 0x03

def containerClassNote : GoString := goString "IPF.Note"
def containerClassContact : GoString := goString "IPF.Contact"
def containerClassAppointment : GoString := goString "IPF.Appointment"
def containerClassJournal : GoString := goString "IPF.Journal"
def containerClassStickyNote : GoString := goString "IPF.StickyNote"
def containerClassTask : GoString := goString "IPF.Task"

/-- Parent 0 is none, and so is an empty class. -/
structure BuiltinFolder where
  fid : Nat
  parent : Nat
  dispName : GoString
  contClass : GoString
  hidden : Bool

def builtinFolders : List BuiltinFolder :=
  [⟨privateFIDRoot,0,goString "Root Container",[],false⟩,
    ⟨privateFIDIPMSubtree,privateFIDRoot,goString "Top of Information Store",[],false⟩,
    ⟨privateFIDInbox,privateFIDIPMSubtree,goString "Inbox",containerClassNote,false⟩,
    ⟨0x0e,privateFIDIPMSubtree,goString "Drafts",containerClassNote,false⟩,
    ⟨0x0c,privateFIDIPMSubtree,goString "Outbox",containerClassNote,false⟩,
    ⟨0x0a,privateFIDIPMSubtree,goString "Sent Items",containerClassNote,false⟩,
    ⟨privateFIDDeletedItems,privateFIDIPMSubtree,goString "Deleted Items",containerClassNote,false⟩,
    ⟨privateFIDContacts,privateFIDIPMSubtree,goString "Contacts",containerClassContact,false⟩,
    ⟨0x0f,privateFIDIPMSubtree,goString "Calendar",containerClassAppointment,false⟩,
    ⟨0x10,privateFIDIPMSubtree,goString "Journal",containerClassJournal,false⟩,
    ⟨0x11,privateFIDIPMSubtree,goString "Notes",containerClassStickyNote,false⟩,
    ⟨0x12,privateFIDIPMSubtree,goString "Tasks",containerClassTask,false⟩,
    ⟨0x14,privateFIDContacts,goString "Quick Contacts",goString "IPF.Contact.MOC.QuickContacts",true⟩,
    ⟨0x15,privateFIDContacts,goString "IM Contacts List",goString "IPF.Contact.MOC.ImContactList",
      true⟩,
    ⟨0x16,privateFIDContacts,goString "GAL Contacts",goString "IPF.Contact.GalContacts",true⟩,
    ⟨0x17,privateFIDIPMSubtree,goString "Junk Email",containerClassNote,false⟩,
    ⟨0x1d,privateFIDIPMSubtree,goString "Conversation Action Settings",goString "IPF.Configuration",
      true⟩,
    ⟨0x1e,privateFIDIPMSubtree,goString "Archive",containerClassNote,false⟩,
    ⟨0x1f,privateFIDIPMSubtree,goString "Conversation History",containerClassNote,false⟩,
    ⟨0x20,privateFIDIPMSubtree,goString "Recipient Cache",goString "IPF.Contact.RecipientCache",
      false⟩,
    ⟨0x02,privateFIDRoot,goString "Deferred Action",[],false⟩,
    ⟨0x07,privateFIDRoot,goString "Common Views",[],false⟩,
    ⟨0x08,privateFIDRoot,goString "Schedule",[],false⟩,
    ⟨0x05,privateFIDRoot,goString "Finder",[],false⟩,
    ⟨0x06,privateFIDRoot,goString "Views",[],false⟩,
    ⟨0x04,privateFIDRoot,goString "Shortcuts",[],false⟩,
    ⟨privateFIDSyncIssues,privateFIDIPMSubtree,goString "Sync Issues",containerClassNote,false⟩,
    ⟨0x1a,privateFIDSyncIssues,goString "Conflicts",containerClassNote,false⟩,
    ⟨0x1b,privateFIDSyncIssues,goString "Local Failures",containerClassNote,false⟩,
    ⟨0x1c,privateFIDSyncIssues,goString "Server Failures",containerClassNote,false⟩,
    ⟨0x18,privateFIDRoot,goString "Freebusy Data",[],false⟩]

def builtinPublicFolders : List BuiltinFolder :=
  [⟨publicFIDRoot,0,goString "Root Container",[],false⟩,
    ⟨publicFIDIPMSubtree,publicFIDRoot,goString "IPM_SUBTREE",[],false⟩,
    ⟨publicFIDNonIPMSubtree,publicFIDRoot,goString "NON_IPM_SUBTREE",[],false⟩,
    ⟨0x04,publicFIDNonIPMSubtree,goString "EFORMS REGISTRY",[],false⟩]

def upsertProps (bag props : PropertyValues) : Except StoreErr PropertyValues :=
  if props.all fun p => storable p.1.type p.2 then .ok (bag.setAll props) else .error .valueType

def bytesProp (pv : PropertyValues) (tag : PropTag) : Option Bytes :=
  match pv.get tag with
  | some (.bytes b) => some b
  | _ => none

def boolProp (pv : PropertyValues) (tag : PropTag) : Bool :=
  match pv.get tag with
  | some (.bool b) => b
  | _ => false

def FolderRow.displayName (r : FolderRow) : GoString := (r.props.stringProp prDisplayName).getD []

namespace ObjDB

variable (db : ObjDB) (fid : Nat)

def ipmSubtree : Nat :=
  match db.kind with
  | .storePublic => publicFIDIPMSubtree
  | .storePrivate => privateFIDIPMSubtree

def isBuiltinFolder : Bool :=
  match db.kind with
  | .storePublic => builtinPublicFolders.any fun f => f.fid=fid
  | .storePrivate => builtinFolders.any fun f => f.fid=fid

def parentOK : Option Nat → Bool
  | none => true
  | some p => p=fid || (db.folders.get p).isSome

def insertFolder (row : FolderRow) : Except StoreErr ObjDB :=
  if db.parentOK row.folderId row.parentId then
    match db.folders.insert row with
    | none => .error .constraint
    | some t => .ok {db with folders:=t}
  else .error .constraint

def folderPropertyBag (ntNow : UInt64) (cn : Nat) (dispName contClass : GoString)
    (addNext hidden : Bool) : PropertyValues×ObjDB :=
  let (art,db) := db.allocateArticle
  ([(prDeletedFolderCount,.int32 0),(prInternetArticleNumber,.int32 (Int32.ofNat art))]++
    (if addNext then [(prInternetArticleNumberNext,.int32 1)] else [])++
    [(prDisplayName,.string dispName),(prComment,.string [])]++
    (if contClass≠[] then [(prContainerClass,.string contClass)] else [])++
    [(prCreationTime,.uint64 ntNow),(prLastModificationTime,.uint64 ntNow),
      (prHierRev,.uint64 ntNow),(prLocalCommitTimeMax,.uint64 ntNow),
      (prChangeKey,.bytes (changeKey db.replica cn)),
      (prPredecessorChangeList,.bytes (predecessorChangeList db.replica cn))]++
    (if hidden then [(prAttrHidden,.bool true)] else []),db)

def createGenericFolder (ntNow : UInt64) (f : BuiltinFolder) :
    Except StoreErr ObjDB :=
  let ((first,last),db) := db.allocateRange
  let (cn,db) := db.allocateCN
  let (props,db) := db.folderPropertyBag ntNow cn f.dispName f.contClass true f.hidden
  db.insertFolder ⟨f.fid,if f.parent≠0 then some f.parent else none,cn,false,first,last,props⟩

def createSearchFolder (ntNow : UInt64) (fid parent : Nat) (dispName : GoString) :
    Except StoreErr ObjDB :=
  let (cn,db) := db.allocateCN
  let (props,db) := db.folderPropertyBag ntNow cn dispName containerClassNote false false
  db.insertFolder ⟨fid,some parent,cn,true,0,0,props⟩

def unseeded (kind : StoreKind) (replica : GUID) : ObjDB :=
  ⟨kind,replica,0,0,0x100,0xFFFF,[(1,0xFFFF)],.empty,.empty,[]⟩

def seedFolders (ntNow : UInt64) : List BuiltinFolder → ObjDB → Except StoreErr ObjDB
  | [],db => .ok db
  | f::fs,db =>
    match db.createGenericFolder ntNow f with
    | .error e => .error e
    | .ok db => seedFolders ntNow fs db

def seedMailbox (replica : GUID) (ntNow : UInt64) : Except StoreErr ObjDB :=
  match seedFolders ntNow builtinFolders (unseeded .storePrivate replica) with
  | .error e => .error e
  | .ok db => db.createSearchFolder ntNow privateFIDSpoolerQueue privateFIDRoot
      (goString "Spooler Queue")

def seedPublicStore (replica : GUID) (ntNow : UInt64) : Except StoreErr ObjDB :=
  seedFolders ntNow builtinPublicFolders (unseeded .storePublic replica)

def links : Links Nat := db.folders.rows.map fun r => (r.folderId,r.parentId)

def folderSubtreeIDs : Option (List Nat) :=
  db.links.descend db.links.length ((db.links.filter fun x => x.1=fid).map Prod.fst)

def childFolderIDs : List Nat := db.links.children fid

def descendantIDs : Option (List Nat) := db.links.descend db.links.length (db.childFolderIDs fid)

def climbTo (db : ObjDB) (ancestor : Nat) : Nat → Nat → Option (Except StoreErr Bool)
  | 0,_ => none
  | n+1,id =>
    if id=0 then some (.ok false)
    else if id=ancestor then some (.ok true)
    else match db.folders.get id with
      | none => some (.error .notFound)
      | some r => match r.parentId with
        | none => some (.ok false)
        | some p => if p=id then some (.ok false) else climbTo db ancestor n p

def folderIsUnder (ancestor : Nat) : Option (Except StoreErr Bool) :=
  db.climbTo ancestor (db.links.length+1) fid

def folderExists : Bool := (db.folders.get fid).isSome

def descendants (root : Nat) : Option (List FolderRow) :=
  let plain : Links Nat := (db.folders.rows.filter fun r => !r.isSearch).map
    fun r => (r.folderId,r.parentId)
  (plain.descend plain.length (plain.children root)).map fun ids =>
    (ids.filterMap db.folders.get).insertionSort fun a b => a.folderId≤b.folderId

def listFolders : Option (List (Nat×Option Nat)) :=
  (db.descendants db.ipmSubtree).map fun nodes =>
    (nodes.filter fun r => !boolProp r.props prAttrHidden).map fun r =>
      (r.folderId,if r.parentId=some db.ipmSubtree then none else r.parentId)

def searchFolderChildren (parent : Nat) : List Nat :=
  ((db.folders.rows.filter fun r => r.parentId=some parent ∧ r.isSearch).map
    FolderRow.folderId).insertionSort (·≤·)

def createFolder (parent : Option Nat) (displayName : GoString) (ntNow : UInt64) :
    Except StoreErr (Nat×ObjDB) :=
  let parentFID := parent.getD db.ipmSubtree
  let (fid,db) := db.allocateEID
  let ((first,last),db) := db.allocateRange
  let (cn,db) := db.allocateCN
  let (props,db) := db.folderPropertyBag ntNow cn displayName containerClassNote true false
  (db.insertFolder ⟨fid,some parentFID,cn,false,first,last,props⟩).map fun db => (fid,db)

def setFolderProperties (props : PropertyValues) (ntNow : UInt64) :
    Except StoreErr ObjDB :=
  let props := if props.has prLastModificationTime then props
    else props++[(prLastModificationTime,.uint64 ntNow)]
  match db.folders.get fid with
  | none => .error .constraint
  | some r => (upsertProps r.props props).map fun bag =>
    db.updateFolder fid (fun r => {r with props:=bag}) fun _ => rfl

def reparentFolder (parentFID : Nat) : Except StoreErr ObjDB :=
  match db.folders.get fid with
  | none => .error .notFound
  | some _ =>
    if db.parentOK fid (some parentFID) then
      .ok (db.updateFolder fid (fun r => {r with parentId:=some parentFID}) fun _ => rfl)
    else .error .constraint

def renameTarget (newParent : Option Nat) :
    Option (Except StoreErr Nat) :=
  if db.isBuiltinFolder fid then some (.error .builtinFolder)
  else match newParent with
    | none => some (.ok db.ipmSubtree)
    | some p => (db.folderSubtreeIDs fid).map fun subtree =>
      if p∈subtree then .error .folderCycle else .ok p

def renameCommit (parentFID : Nat) (newName : GoString) (ntNow : UInt64) :
    Except StoreErr Unit×ObjDB :=
  match db.reparentFolder fid parentFID with
  | .error e => (.error e,db)
  | .ok db => match db.setFolderProperties fid [(prDisplayName,.string newName)] ntNow with
    | .error e => (.error e,db)
    | .ok db => (.ok (),db)

def renameFolder (newParent : Option Nat) (newName : GoString)
    (ntNow : UInt64) : Option (Except StoreErr Unit×ObjDB) :=
  (db.renameTarget fid newParent).map fun
    | .error e => (.error e,db)
    | .ok p => db.renameCommit fid p newName ntNow

def folderByName (parentFID : Nat) (name : GoString) : Option Nat :=
  (db.folders.rows.find? fun r => r.parentId=some parentFID ∧ r.displayName=name).map
    FolderRow.folderId

def setFolderName (newName : GoString) (ntNow : UInt64) :
    Except StoreErr ObjDB :=
  match db.folders.get fid with
  | none => .error .notFound
  | some r => match r.parentId with
    | none => .error .nullColumn
    | some parentFID =>
      match db.folderByName parentFID newName with
      | some existing =>
        if existing≠fid then .error .folderExists
        else db.setFolderProperties fid [(prDisplayName,.string newName)] ntNow
      | none => db.setFolderProperties fid [(prDisplayName,.string newName)] ntNow

/-- An absent name leaves the stored one alone. -/
structure HierarchyImport where
  fid : Nat
  parent : Nat
  dispName : Option GoString

def homeFolderKey (sk : Bytes) (home : GUID) : Except StoreErr Nat :=
  match parseSourceKeyMID sk home with
  | .error e => .error e
  | .ok none => .error .crossStore
  | .ok (some fid) => .ok fid

def parseHierarchyImport (rootFID : Nat) (hichyvals : PropertyValues) (home : GUID) :
    Except StoreErr HierarchyImport :=
  match bytesProp hichyvals prSourceKey with
  | none => .error .missingSourceKey
  | some sk =>
    match homeFolderKey sk home with
    | .error e => .error e
    | .ok fid =>
      let name := (hichyvals.get prDisplayName).map fun
        | .string s => s
        | _ => []
      match bytesProp hichyvals prParentSourceKey with
      | none | some [] => .ok ⟨fid,rootFID,name⟩
      | some (b::bs) => (homeFolderKey (b::bs) home).map fun p => ⟨fid,p,name⟩

def folderChangeOmit : List PropTag :=
  [prDeletedFolderCount,prInternetArticleNumberNext,prMessageSizeExtended,
    prNormalMessageSizeExtended,prAssocMessageSizeExtended]

def omitImportedFolderProp (tag : PropTag) : Bool :=
  tag∈[prSourceKey,prParentSourceKey,prChangeKey,prPredecessorChangeList] ||
    tag∈folderChangeOmit || 0x8000≤tag.id.toNat

def importedProps (propvals : PropertyValues) : PropertyValues :=
  propvals.filter fun p => !omitImportedFolderProp p.1

def updatedFolderBag (replica : GUID) (cn : Nat) (ntNow : UInt64) (dispName : Option GoString)
    (propvals : PropertyValues) : PropertyValues :=
  [(prChangeKey,.bytes (changeKey replica cn)),
    (prPredecessorChangeList,.bytes (predecessorChangeList replica cn)),
    (prLastModificationTime,.uint64 ntNow)]++
  (dispName.toList.map fun n => (prDisplayName,.string n))++importedProps propvals

def newFolderBag (cn : Nat) (ntNow : UInt64) (dispName : GoString)
    (propvals : PropertyValues) : PropertyValues×ObjDB :=
  let contClass := (PropertyValues.stringProp propvals prContainerClass).getD []
  let (bag,db) := db.folderPropertyBag ntNow cn dispName contClass true
    (boolProp propvals prAttrHidden)
  (bag.setAll (importedProps propvals),db)

def updateImportedFolder (imp : HierarchyImport) (r : FolderRow) (cn : Nat)
    (ntNow : UInt64) (propvals : PropertyValues) : Except StoreErr ObjDB :=
  if db.parentOK imp.fid (some imp.parent) then
    (upsertProps r.props (updatedFolderBag db.replica cn ntNow imp.dispName propvals)).map
      fun bag => db.updateFolder imp.fid
        (fun r => {r with parentId:=some imp.parent,changeNumber:=cn,props:=bag}) fun _ => rfl
  else .error .constraint

def insertImportedFolder (imp : HierarchyImport) (cn : Nat) (ntNow : UInt64)
    (propvals : PropertyValues) : Except StoreErr ObjDB :=
  let ((first,last),db) := db.allocateRange
  let (bag,db) := newFolderBag db cn ntNow (imp.dispName.getD []) propvals
  match upsertProps [] bag with
  | .error e => .error e
  | .ok bag => (db.insertFolder ⟨imp.fid,some imp.parent,cn,false,first,last,bag⟩).map
      fun db => db.advanceStoreEID imp.fid

def importHierarchyChange (rootFID : Nat) (hichyvals propvals : PropertyValues)
    (ntNow : UInt64) : Except StoreErr (Nat×ObjDB) :=
  match parseHierarchyImport rootFID hichyvals db.replica with
  | .error e => .error e
  | .ok imp =>
    let (cn,db) := db.allocateCN
    let res := match db.folders.get imp.fid with
      | some r => db.updateImportedFolder imp r cn ntNow propvals
      | none => db.insertImportedFolder imp cn ntNow propvals
    res.map fun db => (imp.fid,db)

def deleteFolderRows (subtree : List Nat) : ObjDB :=
  {db with
    folders:=db.folders.deleteWhere fun r => r.folderId∈subtree
    messages:=db.messages.deleteWhere fun r => r.parentFid∈subtree
    permissions:=db.permissions.filter fun p => p.folderId∉subtree}

end ObjDB

namespace Store

def forEach {α : Type} (f : α → Store → Except StoreErr Unit×Store) :
    List α → Store → Except StoreErr Unit×Store
  | [],s => (.ok (),s)
  | x::xs,s => match f x s with
    | (.error e,s) => (.error e,s)
    | (.ok (),s) => forEach f xs s

def dumpMessage (mid : Nat) (s : Store) : Except StoreErr Unit×Store :=
  let (res,s) := s.softDeleteObject mid
  if res matches .error .notFound | .ok () then
    if (s.objdb.messages.get mid).isSome && (s.objdb.folders.get privateFIDDeletedItems).isNone then
      (.error .constraint,s)
    else
      let moved := s.objdb.updateMessage mid
        (fun r => {r with parentFid:=privateFIDDeletedItems}) fun _ => rfl
      (.ok (),{s with objdb:=moved})
  else (res,s)

variable (s : Store) (fid : Nat)

def allFolderMessageIDs : List Nat :=
  (s.objdb.messages.rows.filter fun r => r.parentFid=fid).map MessageRow.messageId

def dumpsterFolder (s : Store) : Except StoreErr Unit×Store :=
  if fid=privateFIDDeletedItems then (.ok (),s)
  else forEach dumpMessage (s.allFolderMessageIDs fid) s

def dumpsterSubtree (subtree : List Nat) : Except StoreErr Unit×Store :=
  match s.objdb.kind with
  | .storePublic => (.ok (),s)
  | .storePrivate => forEach dumpsterFolder subtree s

def dropIndexFolder (idx : IndexDB) (fid : Nat) : IndexDB :=
  {idx with
    messages:=idx.messages.deleteWhere fun r => r.folderId=fid
    folders:=idx.folders.deleteWhere fun r => r.folderId=fid}

def deleteFolder : Option (Except StoreErr Unit×Store) :=
  if s.objdb.isBuiltinFolder fid then some (.error .builtinFolder,s)
  else (s.objdb.folderSubtreeIDs fid).map fun subtree =>
    if subtree=[] then (.error .notFound,s)
    else match s.dumpsterSubtree subtree with
      | (.error e,s) => (.error e,s)
      | (.ok (),s) => (.ok (),⟨s.objdb.deleteFolderRows subtree,
          subtree.foldl dropIndexFolder s.idxdb⟩)

def listMessages : List IndexMessageRow :=
  (s.idxdb.messages.rows.filter fun r => r.folderId=fid).insertionSort fun a b => a.uid≤b.uid

def copyMessageTo (wire : Nat → Except StoreErr MessageHead) (dst : Nat) (m : IndexMessageRow)
    (s : Store) : Except StoreErr Unit×Store :=
  match wire m.messageId with
  | .error e => (.error e,s)
  | .ok msg => match s.appendMessage dst msg m.flags with
    | (.error e,s) => (.error e,s)
    | (.ok _,s) => (.ok (),s)

def copyFolderInto (wire : Nat → Except StoreErr MessageHead) (ntNow : UInt64) (recursive : Bool) :
    Nat → Nat → Nat → GoString → Store → Option (Except StoreErr Nat)×Store
  | 0,_,_,_,s => (none,s)
  | n+1,src,newParent,newName,s =>
    match s.objdb.createFolder (some newParent) newName ntNow with
    | .error e => (some (.error e),s)
    | .ok (newID,obj) =>
      let s := {s with objdb:=obj}
      match forEach (copyMessageTo wire newID) (s.listMessages src) s with
      | (.error e,s) => (some (.error e),s)
      | (.ok (),s) =>
        if recursive then
          let (res,s) := copySubfolders (copyFolderInto wire ntNow true n) newID
            (s.objdb.childFolderIDs src) s
          (res.map fun r => r.map fun _ => newID,s)
        else (some (.ok newID),s)
where
  copySubfolders (copy : Nat → Nat → GoString → Store → Option (Except StoreErr Nat)×Store)
      (dst : Nat) : List Nat → Store → Option (Except StoreErr Unit)×Store
    | [],s => (some (.ok ()),s)
    | child::rest,s => match s.objdb.folders.get child with
      | none => (some (.error .notFound),s)
      | some r => match copy child dst r.displayName s with
        | (none,s) => (none,s)
        | (some (.error e),s) => (some (.error e),s)
        | (some (.ok _),s) => copySubfolders copy dst rest s

def copyFolder (wire : Nat → Except StoreErr MessageHead) (ntNow : UInt64) (levels : Nat)
    (s : Store) (src newParent : Nat) (newName : GoString) (recursive : Bool) :
    Option (Except StoreErr Nat)×Store :=
  if s.objdb.folderExists src then
    match s.objdb.folderSubtreeIDs src with
    | none => (none,s)
    | some subtree =>
      if newParent∈subtree then (some (.error .folderCycle),s)
      else copyFolderInto wire ntNow recursive levels src newParent newName s
  else (some (.error .notFound),s)

end Store
end HermEX.Objectstore
