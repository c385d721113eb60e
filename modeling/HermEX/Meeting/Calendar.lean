import HermEX.Framework.Owned
import HermEX.Framework.Text
import HermEX.Mapi.Props
import Mathlib.Data.List.Sort

namespace HermEX.Meeting

open Framework Mapi

/-- The named properties, as the store has numbered them. -/
structure Tags where
  resp : PropTag
  reply : PropTag
  state : PropTag
  busy : PropTag
  uid : PropTag
  start : PropTag
  finish : PropTag
  recur : PropTag
  seq : PropTag
  meetingType : PropTag
  globalObjectId : PropTag
  appointmentRecur : PropTag
  attendeeCriticalChange : PropTag
  counterFlag : PropTag
  proposedStart : PropTag
  proposedEnd : PropTag
  proposalNumber : PropTag

structure Recipient where
  id : Nat
  props : PropertyValues
deriving DecidableEq

structure Item where
  id : Nat
  props : PropertyValues
  recipients : List Recipient
deriving DecidableEq

/-- `inboxCalendarPart` is none without one or outside the Inbox. -/
structure Letter where
  id : Nat
  props : PropertyValues
  inboxCalendarPart : Option Bytes

structure MeetingConfig where
  autoAccept : Bool
  declineRecurring : Bool
  declineConflict : Bool
  leaveCancellationsUnprocessed : Bool

structure Notice where
  organizer : GoString
  response : Int32

structure Mailbox where
  cfg : MeetingConfig
  tags : Tags
  calendar : Table Item.id
  mail : Table Letter.id
  nextID : Nat
  sent : List Notice

abbrev Instant := Int

structure ContentLine where
  name : GoString
  params : GoString → List GoString
  value : GoString

/-- The iCalendar functions; `none` is `ok = false`. -/
structure ICal where
  contentLines : Bytes → List GoString
  splitContentLine : GoString → ContentLine
  occurrenceInstant : Bytes → Option Instant
  mergeOverride : Bytes → Bytes → Option Bytes
  cancelOccurrence : Bytes → Instant → Option Bytes
  cancelInstance : Bytes → Instant → Option Bytes
  sequence : Bytes → Option Instant → Int
  setSequence : Bytes → Int → Option Instant → Option Bytes
  recurrenceBlob : Bytes → Option Bytes
  editRecurrenceBlob : PropertyValues → Instant → Option Bytes
  globalObjectIDForms : GoString → List Bytes
  occurrencesIn : Bytes → Instant → Instant → Option (List (Instant×Instant))

def propStr (props : PropertyValues) (tag : PropTag) : GoString :=
  match props.get tag with
  | some (.string s) => s
  | _ => []

def longVal (props : PropertyValues) (tag : PropTag) : Int32 :=
  match props.get tag with
  | some (.int32 n) => n
  | _ => 0

def boolVal (props : PropertyValues) (tag : PropTag) : Bool := props.get tag=some (.bool true)

def sysTime (props : PropertyValues) (tag : PropTag) : Option UInt64 :=
  match props.get tag with
  | some (.uint64 t) => some t
  | _ => none

def ntTime (props : PropertyValues) (tag : PropTag) : Option Instant :=
  (sysTime props tag).map fun t => (t.toNat : Int)

def icalOf (props : PropertyValues) : Option Bytes :=
  match props.get prIcalOriginal with
  | some (.bytes raw) => if raw=[] then none else some raw
  | _ => none

def asfMeeting : Int32 := 1
def asfReceived : Int32 := 2
def asfCanceled : Int32 := 4

def requestClass : GoString := lit "IPM.Schedule.Meeting.Request"
def cancelClass : GoString := lit "IPM.Schedule.Meeting.Canceled"

namespace Mailbox

variable (I : ICal) (m : Mailbox)

def received (item : Item) : Bool := longVal item.props m.tags.state &&& asfReceived≠0

def findObjectByProperty (tag : PropTag) (value : Value) : Option Item :=
  ((m.calendar.rows.filter fun item => item.props.get tag=some value).insertionSort
    fun a b => a.id≤b.id).head?

def findCalendarByGlobalObjectID (uid : GoString) : Option Item :=
  (I.globalObjectIDForms uid).findSome? fun goid =>
    m.findObjectByProperty m.tags.globalObjectId (.bytes goid)

def findCalendarByUID (uid : GoString) : Option Item :=
  if uid=[] then none
  else match m.findObjectByProperty m.tags.uid (.string uid) with
    | some item => some item
    | none => m.findCalendarByGlobalObjectID I uid

def updateItem (id : Nat) (f : Item → Item) (hf : ∀ item,(f item).id=item.id) : Mailbox :=
  {m with calendar:=m.calendar.updateWhere (fun item => item.id=id) f hf}

def modifyItem (id : Nat) (props : PropertyValues) : Mailbox :=
  m.updateItem id (fun item => {item with props:=item.props.setAll props}) fun _ => rfl

def setRecipient (id recipID : Nat) (props : PropertyValues) : Mailbox :=
  let write (r : Recipient) : Recipient :=
    if r.id=recipID then {r with props:=r.props.setAll props} else r
  m.updateItem id (fun item => {item with recipients:=item.recipients.map write}) fun _ => rfl

def modifyLetter (id : Nat) (props : PropertyValues) : Mailbox :=
  let write (l : Letter) : Letter := {l with props:=l.props.setAll props}
  {m with mail:=m.mail.updateWhere (fun l => l.id=id) write fun _ => rfl}

def createItem (props : PropertyValues) : Mailbox :=
  match m.calendar.insert ⟨m.nextID,props,[]⟩ with
  | none => m
  | some calendar => {m with calendar:=calendar,nextID:=m.nextID+1}

def deleteObject (id : Nat) : Mailbox :=
  {m with calendar:=m.calendar.deleteWhere fun item => item.id=id}

def itemProps (id : Nat) : PropertyValues := ((m.calendar.get id).map (·.props)).getD []

def recipientProps (id recipID : Nat) : PropertyValues :=
  let recipients := ((m.calendar.get id).map (·.recipients)).getD []
  ((recipients.find? fun r => r.id=recipID).map (·.props)).getD []

def letterProps (id : Nat) : PropertyValues := ((m.mail.get id).map (·.props)).getD []

end Mailbox

/-- The other calendar objects and the property numbers stand. -/
structure Confined (touched : List Nat) (m m' : Mailbox) : Prop where
  tags : m'.tags=m.tags
  calendar : Spares Item.id id touched m.calendar m'.calendar

variable {item : Item}

namespace Confined

variable {touched : List Nat} {m m' m'' : Mailbox}

variable (n : Nat) (props : PropertyValues)

theorem refl (touched : List Nat) (m : Mailbox) : Confined touched m m :=
  ⟨rfl,Spares.refl touched m.calendar⟩

theorem trans (h : Confined touched m m') (h' : Confined touched m' m'') :
    Confined touched m m'' :=
  ⟨h'.tags.trans h.tags,h.calendar.trans h'.calendar⟩

theorem kept (h : Confined touched m m') (hm : item∈m.calendar) (hn : item.id∉touched) :
    item∈m'.calendar := by
  obtain ⟨item',hm',_,_,hs⟩ := h.calendar item hm hn
  have he : item'=item := hs
  rwa [he] at hm'

theorem updateItem (f : Item → Item) (hf : ∀ item,(f item).id=item.id) :
    Confined [n] m (m.updateItem n f hf) := by
  refine ⟨rfl,Spares.updateWhere hf hf ?_⟩
  intro item _ hp hn
  exact absurd (by simpa using hp) hn

theorem modifyItem : Confined [n] m (m.modifyItem n props) := updateItem n _ _

theorem setRecipient (recipID : Nat) (props : PropertyValues) :
    Confined [n] m (m.setRecipient n recipID props) :=
  updateItem n _ _

theorem modifyLetter : Confined touched m (m.modifyLetter n props) :=
  ⟨rfl,Spares.refl touched m.calendar⟩

theorem createItem : Confined touched m (m.createItem props) := by
  cases h : m.calendar.insert ⟨m.nextID,props,[]⟩ with
  | none =>
    have hm : m.createItem props=m := by simp [Mailbox.createItem,h]
    rw [hm]
    exact refl touched m
  | some calendar =>
    have hm : m.createItem props = {m with calendar:=calendar,nextID:=m.nextID+1} := by
      simp [Mailbox.createItem,h]
    rw [hm]
    exact ⟨rfl,Spares.insert h⟩

theorem deleteObject : Confined [n] m (m.deleteObject n) := by
  refine ⟨rfl,Spares.deleteWhere ?_⟩
  simp

end Confined

theorem Mailbox.findObjectByProperty_mem {m : Mailbox} {tag : PropTag} {value : Value}
    (h : m.findObjectByProperty tag value=some item) : item∈m.calendar := by
  have hs := List.mem_of_head? h
  have hf := (List.mem_insertionSort _).mp hs
  exact (List.mem_filter.mp hf).1

theorem Mailbox.findCalendarByUID_mem {I : ICal} {m : Mailbox} {uid : GoString}
    (h : m.findCalendarByUID I uid=some item) : item∈m.calendar := by
  simp only [findCalendarByUID] at h
  split_ifs at h
  split at h
  · rename_i hfound
    cases h
    exact findObjectByProperty_mem hfound
  · obtain ⟨goid,_,hfound⟩ := List.exists_of_findSome?_eq_some h
    exact findObjectByProperty_mem hfound

end HermEX.Meeting
