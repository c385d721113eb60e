import HermEX.ActiveSync.State
import Mathlib.Data.List.Sort

namespace HermEX.ActiveSync

open Framework

structure MessageInfo where
  uid : UInt32
  flags : Int64

abbrev Folder := Table MessageInfo.uid

def flagSeen : Int64 := 1

def flagMask : Int64 := 31

namespace Folder

variable (f : Folder) (uid : UInt32)

def listMessages : List MessageInfo := f.rows.insertionSort fun a b => a.uid≤b.uid

def messageByUID : Option MessageInfo := Table.get f uid

def setMessageFlags (flags : Int64) : Folder :=
  f.updateWhere (fun m => m.uid=uid) (fun m => {m with flags:=flags &&& flagMask}) fun _ => rfl

def softDeleteMessage : Option Folder :=
  if (f.messageByUID uid).isSome then some (f.deleteWhere fun m => m.uid=uid) else none

end Folder

inductive CommandTag where
  | add
  | change
  | delete
  | fetch

/-- `data` is the text of the Read element, or empty. -/
structure Command where
  tag : CommandTag
  serverID : Bytes
  data : Option Bytes

structure Collection where
  collectionID : Bytes
  syncKey : Bytes
  windowSize : Bytes
  commands : List Command

/-- A command for an item that stays carries its read state. -/
structure Reply where
  syncKey : Bytes
  collectionID : Bytes
  status : Nat
  commands : List (Delta Bytes Bool)
  more : Bool

def syncStatusOK : Nat := 1
def syncStatusInvalidKey : Nat := 3
def syncStatusBadRequest : Nat := 4

def syncResponse (collID key : Bytes) (cmds : List (Delta Bytes Bool)) (more : Bool) : Reply :=
  ⟨key,collID,syncStatusOK,cmds,more⟩

def syncStatus (collID key : Bytes) (status : Nat) : Reply := ⟨key,collID,status,[],false⟩

def defaultWindowSize : Nat := 100
def maxWindowSize : Nat := 512

def parseWindow (s : Bytes) : Nat :=
  (parseInt s).elim defaultWindowSize fun n =>
    if n≤0 then defaultWindowSize else if n > maxWindowSize then maxWindowSize else n.toNat

def serverID (uid : UInt32) : Bytes := formatNat uid.toNat

def sidNumber (sid : Bytes) : Nat := min ((parseDigits sid).getD 0) (2^64-1)

def sortSIDs (sids : List Bytes) : List Bytes :=
  sids.insertionSort fun a b => sidNumber a ≤ sidNumber b

def diffSnapshot (snapshot : Items) (live : List MessageInfo) : List (Delta Bytes Int64) :=
  snapshot.diff sortSIDs (live.map fun m => (serverID m.uid,m.flags))

def readFlag (flags : Int64) : Bool := flags &&& flagSeen≠0

def renderChange : Delta Bytes Int64 → Delta Bytes Bool
  | .add sid flags => .add sid (readFlag flags)
  | .change sid flags => .change sid (readFlag flags)
  | .delete sid => .delete sid

def changedFlags (flags : Int64) (read : Bytes) : Int64 :=
  if read=formatNat 1 then flags ||| flagSeen
  else if read=formatNat 0 then flags &&& ~~~flagSeen
  else flags

variable (c : Collection) (f : Folder)

def applyReadFlag (items : Items) (uid : UInt32) (sid : Bytes) (data : Option Bytes) :
    Folder×Items :=
  data.elim (f,items) fun read =>
    (f.messageByUID uid).elim (f,items) fun m =>
      (f.setMessageFlags uid (changedFlags m.flags read),items.set sid (changedFlags m.flags read))

def applyDelete (items : Items) (uid : UInt32) (sid : Bytes) : Folder×Items :=
  (f.softDeleteMessage uid).elim (f,items) fun f' => (f',items.remove sid)

def applyTo (p : Folder×Items) (uid : UInt32) (cmd : Command) : Folder×Items :=
  match cmd.tag with
  | .change => applyReadFlag p.1 p.2 uid cmd.serverID cmd.data
  | .delete => applyDelete p.1 p.2 uid cmd.serverID
  | _ => p

def applyClientCommand (p : Folder×Items) (cmd : Command) : Folder×Items :=
  (parseUint 32 cmd.serverID).elim p fun n => applyTo p (.ofNat n) cmd

def applyClientCommands (items : Items) (cmds : List Command) : Folder×Items :=
  cmds.foldl applyClientCommand (f,items)

structure FolderObject where
  id : Int
  changeNumber : Int64

/-- An Add or a Change that was written, or a Delete. -/
inductive Outcome where
  | refused
  | written (sid : Bytes)
  | deleted (sid : Bytes)

/-- What an object folder says; `none` is a store error. -/
structure Objects where
  outcomes : List Outcome
  folded : Option (List FolderObject)
  listed : Option (List FolderObject)
  appData : Bytes → Option Bool

def entries (objs : List FolderObject) : List (Bytes×Int64) :=
  objs.map fun o => (itoa o.id,o.changeNumber)

def writtenSIDs (outcomes : List Outcome) : List Bytes :=
  outcomes.filterMap fun o => match o with
    | .written sid => some sid
    | _ => none

def deleteObject (items : Items) : Outcome → Items
  | .deleted sid => items.remove sid
  | _ => items

def foldClientWritesIntoSnapshot (items : Items) (folded : Option (List FolderObject))
    (written : List Bytes) : Items :=
  if written=[] then items
  else folded.elim items fun objs =>
    ((entries objs).filter fun e => written.contains e.1).foldl (fun items e => items.set e.1 e.2)
      items

def applyObjectClientCommands (items : Items) (o : Objects) : Items :=
  foldClientWritesIntoSnapshot (o.outcomes.foldl deleteObject items) o.folded
    (writtenSIDs o.outcomes)

def pendingObjectChanges (objs : List FolderObject) (items : Items) : List (Delta Bytes Int64) :=
  items.diff sortSIDs (entries objs)

def renderObjectChange (appData : Bytes → Option Bool)
    (acc : Items×List (Delta Bytes Int64)) (d : Delta Bytes Int64) :
    Option (Items×List (Delta Bytes Int64)) :=
  if d.isDelete then some (acc.1.apply d,acc.2++[d])
  else (appData d.key).map fun ok => if ok then (acc.1.apply d,acc.2++[d]) else acc

def objectChanges (o : Objects) (items : Items) (window : Nat) :
    Option (Items×List (Delta Bytes Int64)×Bool) :=
  o.listed.bind fun objs =>
    let pending := pendingObjectChanges objs items
    ((pending.take window).foldlM (renderObjectChange o.appData) (items,[])).map fun r =>
      (r.1,r.2,decide (pending.length > window))

def objectFolders : List Int := [0x0f,0x13,0x12,0x11]

def isObjectFolder (folderID : Int) : Bool := objectFolders.contains folderID

def syncKeyGate (collID clientKey : Bytes) (cs : CollectionState) :
    Option (CollectionState×Reply) :=
  if clientKey=formatNat 0 then
    some (⟨nextSyncKey clientKey,.empty⟩,syncResponse collID (nextSyncKey clientKey) [] false)
  else if clientKey=[] ∨ clientKey≠cs.syncKey then
    some (cs,syncStatus collID (formatNat 0) syncStatusInvalidKey)
  else none

def syncMail (cs : CollectionState) :
    Folder×CollectionState×Reply :=
  let window := parseWindow c.windowSize
  let applied := applyClientCommands f cs.items c.commands
  let pending := diffSnapshot applied.2 applied.1.listMessages
  let sent := pending.take window
  (applied.1,⟨nextSyncKey c.syncKey,applied.2.applyAll sent⟩,
    syncResponse c.collectionID (nextSyncKey c.syncKey) (sent.map renderChange)
      (decide (pending.length > window)))

def syncObjects (o : Objects) (cs : CollectionState) :
    Option (CollectionState×Reply) :=
  (objectChanges o (applyObjectClientCommands cs.items o) (parseWindow c.windowSize)).map fun r =>
    (⟨nextSyncKey c.syncKey,r.1⟩,
      syncResponse c.collectionID (nextSyncKey c.syncKey) (r.2.1.map renderChange) r.2.2)

/-- What the store has for a collection at its turn. -/
structure View where
  mail : Folder
  objects : Objects

def syncCollection (v : View) (dev : DeviceState) :
    Option (Folder×DeviceState×Reply) :=
  (parseInt c.collectionID).elim
    (some (v.mail,dev,syncStatus c.collectionID (formatNat 0) syncStatusBadRequest)) fun folderID =>
      let cs := dev.collections c.collectionID
      let put (cs : CollectionState) := dev.setCollection c.collectionID cs
      (syncKeyGate c.collectionID c.syncKey cs).elim
        (if isObjectFolder folderID then
          (syncObjects c v.objects cs).map fun r => (v.mail,put r.1,r.2)
        else
          let r := syncMail c v.mail cs
          some (r.1,put r.2.1,r.2.2))
        fun r => some (v.mail,put r.1,r.2)

def syncCollections (cs : List (Collection×View)) (dev : DeviceState) : Option DeviceState :=
  cs.foldlM (fun dev c => (syncCollection c.1 c.2 dev).map fun r => r.2.1) dev

/-- A Sync with what it meets, or a FolderSync that could list or not. -/
inductive Request where
  | sync (collections : List (Collection×View))
  | folderSync (syncKey : Bytes) (listed : Bool)

def Request.apply : Request → DeviceState → Option DeviceState
  | sync collections,dev => syncCollections collections dev
  | folderSync syncKey listed,dev =>
    if syncKey=formatNat 0 ∧ listed=true then
      some {dev with hierarchyKey:=nextSyncKey syncKey}
    else none

end HermEX.ActiveSync
