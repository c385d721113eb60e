import HermEX.Framework.Codec
import HermEX.Framework.Unicode
import HermEX.Rpchttp.Emsmdb

namespace HermEX.Rop

open Framework Rpchttp

def fnevNewMail : UInt16 := 0x0002
def fnevObjectCreated : UInt16 := 0x0004
def fnevObjectDeleted : UInt16 := 0x0008
def fnevObjectModified : UInt16 := 0x0010
def fnevObjectMoved : UInt16 := 0x0020
def fnevObjectCopied : UInt16 := 0x0040
def fnevTableModified : UInt16 := 0x0100
def nfExtended : UInt16 := 0x0400
def nfHasTotal : UInt16 := 0x1000
def nfHasUnread : UInt16 := 0x2000
def nfBySearch : UInt16 := 0x4000
def nfByMessage : UInt16 := 0x8000

def tableRowAdded : UInt16 := 3
def tableRowDeleted : UInt16 := 4
def tableRowModified : UInt16 := 5

/-- `flags` selects the fields that are sent. -/
structure Notification where
  flags : UInt16
  tableEvent : UInt16 := 0
  rowFolderID : UInt64 := 0
  rowMessageID : UInt64 := 0
  rowInstance : UInt32 := 0
  afterFolderID : UInt64 := 0
  afterRowID : UInt64 := 0
  afterInstance : UInt32 := 0
  rowData : Bytes := []
  folderID : UInt64 := 0
  messageID : UInt64 := 0
  parentID : UInt64 := 0
  oldFolderID : UInt64 := 0
  oldMessageID : UInt64 := 0
  oldParentID : UInt64 := 0
  proptags : List UInt32 := []
  totalCount : UInt32 := 0
  unreadCount : UInt32 := 0
  msgFlags : UInt32 := 0
  msgClass : Bytes := []

namespace Notification

def has (n : Notification) (mask : UInt16) : Bool := n.flags &&& mask≠0

end Notification

def present (gate : Bool) (b : Bytes) : Bytes := if gate then b else []

def presentIf (gate : Bool) (b : Option Bytes) : Option Bytes := if gate then b else some []

def binShort (b : Bytes) : Option Bytes :=
  if b.length > 0xFFFF then none else some (put16 (UInt16.ofNat b.length)++b)

def pushPropTags (tags : List UInt32) : Option Bytes :=
  if tags.length > 0xFFFF then none
  else some (put16 (UInt16.ofNat tags.length)++tags.flatMap put32)

def unicode (s : Bytes) : Bytes := (utf16Units (utf8Runes s)).flatMap put16++put16 0

def pushTableNotify (n : Notification) : Option Bytes :=
  let am := n.tableEvent=tableRowAdded ∨ n.tableEvent=tableRowModified
  let amd := am ∨ n.tableEvent=tableRowDeleted
  let byMessage := n.has nfByMessage
  let row := put16 n.tableEvent++present amd (put64 n.rowFolderID) ++
    present (amd && byMessage) (put64 n.rowMessageID++put32 n.rowInstance)
  if ¬am then some row
  else (binShort n.rowData).map fun data => row++put64 n.afterFolderID ++
    present byMessage (put64 n.afterRowID++put32 n.afterInstance)++data

def pushObjectIDs (n : Notification) : Bytes :=
  present (!n.has (fnevTableModified ||| nfExtended)) (put64 n.folderID) ++
  present (n.flags &&& (fnevTableModified ||| nfExtended ||| nfByMessage)=nfByMessage)
    (put64 n.messageID) ++
  present (n.has (fnevObjectCreated ||| fnevObjectDeleted ||| fnevObjectMoved |||
    fnevObjectCopied) && n.has nfBySearch == n.has nfByMessage) (put64 n.parentID)

def pushMoveCopyIDs (n : Notification) : Bytes :=
  present (n.has (fnevObjectMoved ||| fnevObjectCopied))
    (put64 n.oldFolderID ++
      if n.has nfByMessage then put64 n.oldMessageID else put64 n.oldParentID)

def pushCounts (n : Notification) : Bytes :=
  present (n.has nfHasTotal) (put32 n.totalCount) ++
  present (n.has nfHasUnread) (put32 n.unreadCount)

def ropNotify : UInt8 := 0x2A
def ropPending : UInt8 := 0x6E

def pushNotify (handle : UInt32) (logonID : UInt8) (n : Notification) : Option Bytes := do
  let table ← presentIf (n.has fnevTableModified) (pushTableNotify n)
  let tags ← presentIf (n.has (fnevObjectCreated ||| fnevObjectModified)) (pushPropTags n.proptags)
  return ropNotify::put32 handle++[logonID]++put16 n.flags++table++pushObjectIDs n ++
    pushMoveCopyIDs n++tags++pushCounts n ++
    present (n.has fnevNewMail) (put32 n.msgFlags++[1]++unicode n.msgClass)

structure QueuedNotify where
  handle : UInt32
  logonID : UInt8
  n : Notification

def QueuedNotify.notify (qn : QueuedNotify) : Option Bytes := pushNotify qn.handle qn.logonID qn.n

def QueuedNotify.wire (get : UInt32 → Bool) (qn : QueuedNotify) : Option Bytes :=
  if get qn.handle then qn.notify else none

variable {qn : QueuedNotify} {b : Bytes}

theorem notify_ne_nil (h : qn.notify=some b) : b≠[] := by
  obtain ⟨table,-,h⟩ := Option.bind_eq_some_iff.mp h
  obtain ⟨tags,-,h⟩ := Option.bind_eq_some_iff.mp h
  rw [← Option.some.inj h]
  simp

theorem QueuedNotify.wire_eq_some {get : UInt32 → Bool} :
    qn.wire get=some b ↔ get qn.handle=true ∧ qn.notify=some b := by
  rw [QueuedNotify.wire]
  cases get qn.handle with
  | false => simp
  | true => simp

def notifyBufferCap : Nat := 0x8000

def pushPending (out : Bytes) (sessionIndex : UInt16) : Bytes :=
  out++[ropPending]++put16 sessionIndex

def drainNotifications (get : UInt32 → Bool) : Bytes → List QueuedNotify →
    Bytes×List QueuedNotify
  | out,[] => (out,[])
  | out,qn::pending =>
    if !get qn.handle then drainNotifications get out pending
    else match pushNotify qn.handle qn.logonID qn.n with
      | none => drainNotifications get out pending
      | some scratch =>
        if out.length+scratch.length > notifyBufferCap then (pushPending out 0,qn::pending)
        else drainNotifications get (out++scratch) pending

def taken : Nat → List Nat → List Nat
  | _,[] => []
  | n,size::sizes => if n+size > notifyBufferCap then [] else size::taken (n+size) sizes

def answerSize (n : Nat) (sizes : List Nat) (handles : Nat) : Nat :=
  2+(n+(taken n sizes).sum+if taken n sizes=sizes then 0 else 3)+4*handles

def wireSizes (get : UInt32 → Bool) (pending : List QueuedNotify) : List Nat :=
  (pending.filterMap (·.wire get)).map List.length

section Drain

variable (get : UInt32 → Bool)

theorem drain_skip (h : qn.wire get=none) (out : Bytes) (pending : List QueuedNotify) :
    drainNotifications get out (qn::pending)=drainNotifications get out pending := by
  rw [QueuedNotify.wire] at h
  rw [drainNotifications]
  cases hget : get qn.handle with
  | false => rfl
  | true =>
    rw [hget,if_pos rfl,QueuedNotify.notify] at h
    simp [h]

theorem drain_sent (h : qn.wire get=some b) (out : Bytes) (pending : List QueuedNotify) :
    drainNotifications get out (qn::pending) =
      if out.length+b.length > notifyBufferCap then (pushPending out 0,qn::pending)
      else drainNotifications get (out++b) pending := by
  rw [QueuedNotify.wire] at h
  rw [drainNotifications]
  cases hget : get qn.handle with
  | false => simp [hget] at h
  | true =>
    rw [hget,if_pos rfl,QueuedNotify.notify] at h
    simp [h]

/-- The queue is split, the first part appended, the rest marked. -/
structure Drained (out : Bytes) (pending gone rest : List QueuedNotify) (answer : Bytes) : Prop where
  split : pending=gone++rest
  sent : ∃ marker : Bytes,answer=out++(gone.filterMap (·.wire get)).flatten++marker ∧
    marker.length=if rest=[] then 0 else 3
  sizes : wireSizes get gone=taken out.length (wireSizes get pending)
  stopped : ∀ qn,rest.head?=some qn → qn.wire get≠none

theorem drain_drained (out : Bytes) (pending : List QueuedNotify) :
    ∃ gone,Drained get out pending gone (drainNotifications get out pending).2
      (drainNotifications get out pending).1 := by
  induction pending generalizing out with
  | nil =>
    refine ⟨[],rfl,⟨[],?_,rfl⟩,rfl,?_⟩ <;> simp [drainNotifications]
  | cons qn pending ih =>
    cases hw : qn.wire get with
    | none =>
      obtain ⟨gone,hd⟩ := ih out
      rw [drain_skip get hw]
      have hsame : ∀ l,wireSizes get (qn::l)=wireSizes get l := by
        intro l
        rw [wireSizes,List.filterMap_cons_none hw,wireSizes]
      refine ⟨qn::gone,congrArg (qn :: ·) hd.split,?_,?_,hd.stopped⟩
      · rw [List.filterMap_cons_none hw]
        exact hd.sent
      · rw [hsame,hsame]
        exact hd.sizes
    | some b =>
      have hmore : ∀ l,wireSizes get (qn::l)=b.length::wireSizes get l := by
        intro l
        rw [wireSizes,List.filterMap_cons_some hw,List.map_cons,wireSizes]
      rw [drain_sent get hw]
      by_cases hcap : out.length+b.length > notifyBufferCap
      · rw [if_pos hcap]
        refine ⟨[],rfl,⟨[ropPending]++put16 0,?_,?_⟩,?_,?_⟩
        · simp [pushPending]
        · simp
        · rw [hmore,taken,if_pos hcap]
          rfl
        · intro q hq
          rw [← Option.some.inj hq,hw]
          exact Option.some_ne_none b
      · obtain ⟨gone,hd⟩ := ih (out++b)
        rw [if_neg hcap]
        obtain ⟨marker,hanswer,hmarker⟩ := hd.sent
        refine ⟨qn::gone,congrArg (qn :: ·) hd.split,⟨marker,?_,hmarker⟩,?_,hd.stopped⟩
        · rw [hanswer,List.filterMap_cons_some hw]
          simp
        · rw [hmore,hmore,taken,if_neg hcap,hd.sizes,List.length_append]

end Drain

namespace Drained

variable {get : UInt32 → Bool} {out answer : Bytes} {pending gone rest : List QueuedNotify}

theorem wireSizes_append (gone rest : List QueuedNotify) :
    wireSizes get (gone++rest)=wireSizes get gone++wireSizes get rest := by
  rw [wireSizes,List.filterMap_append,List.map_append]
  rfl

variable (h : Drained get out pending gone rest answer)

include h

theorem rest_eq_nil :
    rest=[] ↔ taken out.length (wireSizes get pending)=wireSizes get pending := by
  rw [← h.sizes]
  have hsplit : wireSizes get pending=wireSizes get gone++wireSizes get rest := by
    rw [h.split,wireSizes_append]
  constructor
  · intro hrest
    rw [hsplit,hrest]
    exact (List.append_nil _).symm
  · intro hall
    have hnone : wireSizes get rest=[] := List.self_eq_append_right.mp (hall.trans hsplit)
    cases rest with
    | nil => rfl
    | cons qn rest =>
      exfalso
      have hwire := h.stopped qn rfl
      obtain ⟨b,hb⟩ := Option.ne_none_iff_exists'.mp hwire
      rw [wireSizes,List.filterMap_cons_some hb] at hnone
      exact List.cons_ne_nil _ _ hnone

theorem length_answer (handles : List UInt32) :
    ropBufferSize answer handles =
      answerSize out.length (wireSizes get pending) handles.length := by
  obtain ⟨marker,hanswer,hmarker⟩ := h.sent
  have hflat : (gone.filterMap (·.wire get)).flatten.length=(wireSizes get gone).sum :=
    List.length_flatten
  have hleft : (if rest=[] then 0 else 3) =
      if taken out.length (wireSizes get pending)=wireSizes get pending then 0 else 3 :=
    if_congr h.rest_eq_nil rfl rfl
  rw [ropBufferSize,answerSize,hanswer,List.length_append,List.length_append,hmarker,hflat,
    h.sizes,hleft]

theorem infix_answer (hq : qn∈gone) (hb : qn.wire get=some b) : b <:+: answer := by
  obtain ⟨marker,hanswer,-⟩ := h.sent
  have hin : b∈gone.filterMap (·.wire get) := List.mem_filterMap.mpr ⟨qn,hq,hb⟩
  have hflat : b <:+: (gone.filterMap (·.wire get)).flatten := List.infix_of_mem_flatten hin
  rw [hanswer]
  exact hflat.trans ⟨out,marker,rfl⟩

theorem exists_gone (hsome : taken out.length (wireSizes get pending)≠[]) :
    ∃ qn b,qn∈gone ∧ qn.wire get=some b := by
  rw [← h.sizes] at hsome
  have hne : gone.filterMap (·.wire get)≠[] := fun he => hsome (by rw [wireSizes,he]; rfl)
  obtain ⟨b,hb⟩ := List.exists_mem_of_ne_nil _ hne
  obtain ⟨qn,hq,hw⟩ := List.mem_filterMap.mp hb
  exact ⟨qn,b,hq,hw⟩

theorem wire_eq_none (hnone : taken out.length (wireSizes get pending)=[]) :
    ∀ qn∈gone,qn.wire get=none := by
  intro qn hq
  rw [← h.sizes,wireSizes,List.map_eq_nil_iff,List.filterMap_eq_nil_iff] at hnone
  exact hnone qn hq

end Drained
end HermEX.Rop
