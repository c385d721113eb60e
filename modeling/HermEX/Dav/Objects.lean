import HermEX.Framework.Text
import HermEX.Objectstore.Recoverable

namespace HermEX.Objectstore

open Framework

@[ext] structure FolderObject where
  id : Nat
  changeNumber : Nat
deriving DecidableEq

namespace ObjDB

variable (db : ObjDB) (fid : Nat)

def folderRows : List MessageRow :=
  (db.messages.rows.filter fun r => r.parentFid=fid && !r.isAssociated).insertionSort
    fun a b => a.messageId≤b.messageId

def listFolderObjects : List FolderObject :=
  ((db.folderRows fid).filter fun r => !r.isDeleted).map fun r => ⟨r.messageId,r.changeNumber⟩

def deletedObjectsSince (sinceCN : Nat) : List FolderObject :=
  ((db.folderRows fid).filter fun r => r.isDeleted && sinceCN < r.changeNumber).map
    fun r => ⟨r.messageId,r.changeNumber⟩

def folderObjectsSyncMax : Nat := ((db.folderRows fid).map (·.changeNumber)).foldr max 0

end ObjDB
end HermEX.Objectstore

namespace HermEX.Dav

open Framework Objectstore

/-- The extension of made-up names, and whether it is CalDAV. -/
structure Protocol where
  ext : Bytes
  isCal : Bool

def cardTarget : Protocol := ⟨lit ".vcf",false⟩

/-- The conditional headers; an absent one is empty. -/
structure Headers where
  ifNoneMatch : Bytes
  ifMatch : Bytes
  ifScheduleTagMatch : Bytes

/-- The name has passed `validObjectName`. -/
structure PutRequest where
  fid : Nat
  name : Bytes
  valid : name≠[]
  headers : Headers
  bodyOK : Bool
  size : Nat

structure DeleteRequest where
  fid : Nat
  name : Bytes
  headers : Headers

/-- A COPY or MOVE; an object's path has a last segment. -/
structure CopyRequest where
  srcFID : Nat
  srcName : Bytes
  dstFID : Nat
  dstName : Bytes
  valid : dstName≠[]
  overwrite : Bool
  move : Bool
  readable : Bool
  size : Nat

inductive Request where
  | put (r : PutRequest)
  | delete (r : DeleteRequest)
  | copyMove (r : CopyRequest)
  | dumpster (c : DumpsterCall)

/-- The mailbox with its resource names; then history: writes done, destinations removed. -/
structure Site where
  dump : Dumpster
  resourceName : Nat → Bytes
  succeeded : List Request
  replaced : List (Nat×Bytes)

def etag (cn : Nat) : Bytes := lit "\""++formatNat cn++lit "\""

def scheduleTag (cn : Nat) : Bytes := lit "\"ST"++formatNat cn++lit "\""

theorem etag_injective {a b : Nat} (h : etag a=etag b) : a=b := by
  have h' := List.append_cancel_right h
  exact formatNat_injective (List.append_cancel_left h')

def named (ext : Bytes) (id : Nat) (name : Bytes) : Bytes :=
  if name=[] then formatNat id++ext else name

namespace Site

variable (s : Site)

def db : ObjDB := s.dump.store.objdb

def objectName (ext : Bytes) (id : Nat) : Bytes := named ext id (s.resourceName id)

def findObjectByName (P : Protocol) (s : Site) (fid : Nat) (name : Bytes) : Option FolderObject :=
  (s.db.listFolderObjects fid).find? fun o => s.objectName P.ext o.id=name

def setObj (s : Site) (db : ObjDB) : Site := {s with dump:=s.dump.setObj db}

def setName (id : Nat) (name : Bytes) : Site :=
  {s with resourceName:=Function.update s.resourceName id name}

def log (r : Request) : Site := {s with succeeded:=s.succeeded++[r]}

def runDumpster (t : DumpsterTask) : Option DumpsterTask×Site :=
  ((t.exec s.dump).1,{s with dump:=(t.exec s.dump).2})

end Site

def tagMatches (text : Nat → Bytes) (tag : Bytes) (existing : Option FolderObject) : Bool :=
  existing.any fun o => tag=text o.changeNumber

variable (h : Headers) (existing : Option FolderObject)

def etagPrecondition : Option Bytes :=
  if h.ifNoneMatch=lit "*" && existing.isSome then some (lit "already exists")
  else if h.ifMatch≠[] && !tagMatches etag h.ifMatch existing then some (lit "etag mismatch")
  else none

def scheduleTagPrecondition : Option Bytes :=
  if h.ifScheduleTagMatch≠[] then
    if !tagMatches scheduleTag h.ifScheduleTagMatch existing then
      some (lit "schedule-tag mismatch")
    else none
  else if h.ifMatch≠[] && !tagMatches etag h.ifMatch existing then some (lit "etag mismatch")
  else none

def calPutPrecondition : Option Bytes :=
  if h.ifNoneMatch=lit "*" && existing.isSome then some (lit "already exists")
  else scheduleTagPrecondition h existing

def putPrecondition (P : Protocol) : Headers → Option FolderObject → Option Bytes :=
  if P.isCal then calPutPrecondition else etagPrecondition

def deletePrecondition (P : Protocol) (h : Headers) (o : FolderObject) : Option Bytes :=
  if P.isCal then scheduleTagPrecondition h (some o)
  else if h.ifMatch≠[] && h.ifMatch≠etag o.changeNumber then some (lit "etag mismatch")
  else none

def eventsCollection (fid : Nat) : Bool := fid≠0x12 && fid≠0x10

/-- A request before its next read or transaction. -/
inductive Task where
  | put (r : PutRequest)
  | readBody (r : PutRequest) (existing : Option FolderObject)
  | write (r : PutRequest) (existing : Option FolderObject)
  | replaceRecipients (id : Nat)
  | delete (r : DeleteRequest)
  | softDelete (r : DeleteRequest) (o : FolderObject) (t : DumpsterTask)
  | copyMove (r : CopyRequest)
  | findDst (r : CopyRequest) (src : FolderObject)
  | reserialize (r : CopyRequest) (src : FolderObject) (dst : Option FolderObject)
  | removeDst (r : CopyRequest) (src dst : FolderObject) (t : DumpsterTask)
  | create (r : CopyRequest) (src : FolderObject) (replacing : Bool)
  | dumpster (t : DumpsterTask)

def Task.enter : Request → Task
  | .put r => .put r
  | .delete r => .delete r
  | .copyMove r => .copyMove r
  | .dumpster c => .dumpster (.call c)

namespace Site

variable (s : Site)

def createObject (fid size : Nat) (name : Bytes) : Option Site :=
  match s.db.createMessage fid ⟨false,false,size⟩ with
  | .error _ => none
  | .ok (id,db) => some ((s.setObj db).setName id name)

def modifyObject (id : Nat) : Option Site :=
  match s.db.modifyMessageProperties id with
  | .error _ => none
  | .ok db => some (s.setObj db)

def replaceObject (r : PutRequest) : Option FolderObject → Option Site
  | none => s.createObject r.fid r.size r.name
  | some o => (s.modifyObject o.id).map fun s => s.setName o.id r.name

def deletes (d : Dumpster) : DumpsterTask → Bool
  | .flagRow _ => true
  | .call (.softDeleteObject mid) => (d.get mid).any (·.isDeleted)
  | _ => false

def afterRemoval (r : CopyRequest) (src dst : FolderObject) (t : DumpsterTask) :
    Option DumpsterTask → Option Task
  | some t' => some (.removeDst r src dst t')
  | none => match t with
    | .dropIndex _ _ => some (.create r src true)
    | _ => none

def removedBy (P : Protocol) (s : Site) : DumpsterTask → List (Nat×Bytes)
  | .deleteRow id _ => ((s.dump.get id).map fun r => (r.parentFid,s.objectName P.ext id)).toList
  | _ => []

end Site

namespace Task

def exec (P : Protocol) : Task → Site → Option Task×Site
  | .put r,s =>
    let existing := s.findObjectByName P r.fid r.name
    if (putPrecondition P r.headers existing).isSome then (none,s)
    else (some (.readBody r existing),s)
  | .readBody r existing,s => (if r.bodyOK then some (.write r existing) else none,s)
  | .write r existing,s =>
    match s.replaceObject r existing with
    | none => (none,s)
    | some s =>
      -- The attendees of a calendar event are written in a transaction of their own.
      (if P.isCal && eventsCollection r.fid then
        existing.map fun o => .replaceRecipients o.id else none,s.log (.put r))
  | .replaceRecipients id,s => (none,(s.modifyObject id).getD s)
  | .delete r,s =>
    match s.findObjectByName P r.fid r.name with
    | none => (none,s)
    | some o =>
      if (deletePrecondition P r.headers o).isSome then (none,s)
      else (some (.softDelete r o (.call (.softDeleteObject o.id))),s)
  | .softDelete r o t,s =>
    let next := (s.runDumpster t).1.map fun t => .softDelete r o t
    let s' := (s.runDumpster t).2
    (next,if Site.deletes s.dump t then s'.log (.delete r) else s')
  | .copyMove r,s =>
    if r.srcFID=r.dstFID && r.srcName=r.dstName then (none,s)
    else ((s.findObjectByName P r.srcFID r.srcName).map fun src => .findDst r src,s)
  | .findDst r src,s =>
    let dst := s.findObjectByName P r.dstFID r.dstName
    (if dst.isSome && !r.overwrite then none else some (.reserialize r src dst),s)
  | .reserialize r src dst,s =>
    if !r.readable then (none,s)
    else match dst with
      | none => (some (.create r src false),s)
      | some dst => (some (.removeDst r src dst (.deleteObject dst.id none)),s)
  | .removeDst r src dst t,s =>
    let s' := (s.runDumpster t).2
    (Site.afterRemoval r src dst t (s.runDumpster t).1,
      {s' with replaced:=s'.replaced++s.removedBy P t})
  | .create r src replacing,s =>
    match s.createObject r.dstFID r.size r.dstName with
    | none => (none,s)
    | some s' =>
      (if r.move then some (.dumpster (.call (.softDeleteObject src.id))) else none,
        if replacing then {s' with replaced:=s'.replaced.erase (r.dstFID,r.dstName)} else s')
  | .dumpster t,s => ((s.runDumpster t).1.map .dumpster,(s.runDumpster t).2)

end Task

def Site.idle (db : ObjDB) : Site :=
  ⟨⟨⟨db,.empty⟩,fun _ => none,0,fun _ => 0,fun _ => false,[]⟩,fun _ => [],[],[]⟩

def Site.tick (d : Nat) (s : Site) : Site := {s with dump:=s.dump.tick d}

abbrev SitePool := Pool Site Task

def SitePool.step (P : Protocol) : SitePool → Move Request Nat → SitePool :=
  Pool.step Task.enter (Task.exec P) Site.tick

end HermEX.Dav
