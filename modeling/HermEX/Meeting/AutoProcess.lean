import HermEX.Framework.Runs
import HermEX.Meeting.Calendar

namespace HermEX.Meeting

open Framework Mapi

def responseTentative : Int32 := 2
def responseAccepted : Int32 := 3
def responseDeclined : Int32 := 4

def busyFree : Int32 := 0
def busyTentative : Int32 := 1
def busyBusy : Int32 := 2
def busyOOF : Int32 := 3

def busyStatusOccupies (status : Int32) : Bool :=
  status=busyTentative || status=busyBusy || status=busyOOF

def meetingBusy (response : Int32) : Int32 :=
  if response=responseAccepted then busyBusy
  else if response=responseTentative then busyTentative
  else busyFree

inductive MeetingErr where
  | requestNotFound
  | notARequest
  | organizer
  | canceled

def inboundCruft : List PropTag :=
  [prInternetMessageID,prInternetReferences,prInReplyToID,prTransportMessageHeaders]

def stripInboundCruft (props : PropertyValues) : PropertyValues :=
  props.filter fun pv => !inboundCruft.contains pv.1

def responseRequested (props : PropertyValues) : Bool :=
  match props.get prResponseRequested with
  | some (.bool b) => b
  | _ => true

def isClass (T : Strings) (cls base : GoString) : Bool :=
  let base := T.toLower base
  cls=base || (base++lit ".").isPrefixOf cls

def appointmentAnswerable (state : Int32) : Except MeetingErr Unit :=
  if state &&& asfCanceled≠0 then .error .canceled
  else if state &&& asfReceived=0 then .error .organizer
  else .ok ()

namespace Mailbox

variable (I : ICal) (T : Strings) (m : Mailbox)

def uidOf (props : PropertyValues) : GoString := propStr props m.tags.uid

def blocksWindow (props : PropertyValues) (reqUID : GoString) (reqStart reqEnd : Instant) : Bool :=
  if reqUID≠[] && m.uidOf props=reqUID then false
  else if boolVal props m.tags.recur then false
  else if !busyStatusOccupies (longVal props m.tags.busy) then false
  else match ntTime props m.tags.start,ntTime props m.tags.finish with
    | some start,some finish => start < reqEnd && reqStart<finish
    | _,_ => false

def listFolderObjectsInWindow (start finish : UInt64) : List Item :=
  m.calendar.rows.filter fun item =>
    match sysTime item.props m.tags.start with
    | none => true
    | some s =>
      s.toInt64<finish.toInt64 && start.toInt64≤((sysTime item.props m.tags.finish).getD s).toInt64

def seriesOccupies (props : PropertyValues) (reqStart reqEnd : Instant) : Bool :=
  match props.get prIcalOriginal with
  | some (.bytes raw) => (I.occurrencesIn raw reqStart reqEnd).any fun spans => spans≠[]
  | _ => false

def seriesConflict (reqUID : GoString) (reqStart reqEnd : Instant) : Bool :=
  m.calendar.rows.any fun item =>
    boolVal item.props m.tags.recur && !(m.uidOf item.props=reqUID && reqUID≠[]) &&
      busyStatusOccupies (longVal item.props m.tags.busy) &&
      seriesOccupies I item.props reqStart reqEnd

variable (messageID : Nat) (req : Letter)

def hasConflict : Bool :=
  match sysTime req.props m.tags.start,sysTime req.props m.tags.finish with
  | some start,some finish =>
    let reqStart : Instant := start.toNat
    let reqEnd : Instant := finish.toNat
    let reqUID := m.uidOf req.props
    (m.listFolderObjectsInWindow start finish).any
        (fun item => m.blocksWindow item.props reqUID reqStart reqEnd) ||
      m.seriesConflict I reqUID reqStart reqEnd
  | _,_ => false

def decideResponse : Int32 :=
  if m.cfg.declineRecurring && boolVal req.props m.tags.recur then responseDeclined
  else if m.cfg.declineConflict && m.hasConflict I req then responseDeclined
  else if !m.hasConflict I req then responseAccepted
  else responseTentative

def requestAnswerable : Except MeetingErr Unit :=
  match m.findCalendarByUID I (m.uidOf req.props) with
  | none => .ok ()
  | some appt => if m.received appt then .ok () else .error .organizer

def openAnswerable : Except MeetingErr Letter :=
  match m.mail.get messageID with
  | none => .error .requestNotFound
  | some req =>
    let cls := T.toLower (propStr req.props prMessageClass)
    if isClass T cls requestClass then (m.requestAnswerable I req).map fun _ => req
    else if isClass T cls (lit "IPM.Appointment") then
      (appointmentAnswerable (longVal req.props m.tags.state)).map fun _ => req
    else .error .notARequest

def isOccurrenceRequest : Bool :=
  match icalOf req.props with
  | some update => (I.occurrenceInstant update).isSome
  | none =>
    match req.props.get m.tags.globalObjectId with
    | some (.bytes goid) => 20≤goid.length && ((goid.drop 16).take 4).any (· ≠ 0)
    | _ => false

def isSeries (id : Nat) : Bool := (m.itemProps id).has m.tags.appointmentRecur

def withRecurrence (update : PropertyValues) (ical : Bytes) : PropertyValues :=
  match I.recurrenceBlob ical with
  | none => update
  | some blob => update.set m.tags.appointmentRecur (.bytes blob)

def replaceSeries (id : Nat) (ical : Bytes) : Mailbox :=
  m.modifyItem id (m.withRecurrence I [(prIcalOriginal,.bytes ical)] ical)

def removeBlobInstance (id : Nat) (instant : Instant) : Mailbox :=
  match I.editRecurrenceBlob (m.itemProps id) instant with
  | none => m
  | some blob => m.modifyItem id [(m.tags.appointmentRecur,.bytes blob)]

def foldOccurrence (existing : Nat) (req : Letter) : Option Mailbox :=
  if !m.isOccurrenceRequest I req then none
  else match icalOf (m.itemProps existing),icalOf req.props with
    | some stored,some update =>
      match I.mergeOverride stored update with
      | none => some m
      | some merged => some (m.replaceSeries I existing merged)
    | _,_ => if m.isSeries existing then some m else none

def file (response : Int32) (now : UInt64) : Mailbox :=
  let cal := ((((((stripInboundCruft req.props).set prMessageClass
    (.string (lit "IPM.Appointment"))).set m.tags.resp (.int32 response)).set m.tags.reply
    (.uint64 now)).set m.tags.state (.int32 (asfMeeting ||| asfReceived))).set m.tags.busy
    (.int32 (meetingBusy response)))
  match m.findCalendarByUID I (m.uidOf req.props) with
  | none => m.createItem cal
  | some existing => (m.foldOccurrence I existing.id req).getD (m.modifyItem existing.id cal)

def occurrenceInstant (req : Letter) : Instant :=
  ((icalOf req.props).bind I.occurrenceInstant).getD 0

def cancelOccurrence (existing : Nat) (req : Letter) : Option Mailbox :=
  if !m.isOccurrenceRequest I req then none
  else
    let instant := occurrenceInstant I req
    match icalOf (m.itemProps existing),icalOf req.props with
    | some stored,some _ =>
      (I.cancelOccurrence stored instant).map fun trimmed => m.replaceSeries I existing trimmed
    | none,some _ =>
      if m.isSeries existing then some (m.removeBlobInstance I existing instant) else none
    | _,none => if m.isSeries existing then some m else none

def removeAppointment : Mailbox :=
  match m.findCalendarByUID I (m.uidOf req.props) with
  | none => m
  | some existing => (m.cancelOccurrence I existing.id req).getD (m.deleteObject existing.id)

def notifyOrganizer (response : Int32) : Mailbox :=
  let represented := propStr req.props prSentRepresentingSmtpAddress
  let organizer :=
    if represented=[] then propStr req.props prSenderSmtpAddress else represented
  if organizer=[] || !responseRequested req.props then m
  else {m with sent:=m.sent++[⟨organizer,response⟩]}

def respondAutomatically (response : Int32) (send : Bool) (now : UInt64) :
    Mailbox :=
  match m.openAnswerable I T messageID with
  | .error _ => m
  | .ok req =>
    let stamped := m.modifyLetter messageID [(m.tags.resp,.int32 response),
      (m.tags.reply,.uint64 now),(m.tags.state,.int32 (asfMeeting ||| asfReceived)),
      (m.tags.busy,.int32 (meetingBusy response))]
    let filed :=
      if response=responseDeclined then stamped.removeAppointment I req
      else stamped.file I req response now
    if send then filed.notifyOrganizer req response else filed

def autoRequest : Option Letter :=
  if !m.cfg.autoAccept then none
  else (m.mail.get messageID).filter fun req => propStr req.props prMessageClass=requestClass

def autoProcess (now : UInt64) : Bool×Mailbox :=
  match m.autoRequest messageID with
  | none => (false,m)
  | some req =>
    let resp := m.decideResponse I req
    (true,m.respondAutomatically I T messageID resp (resp≠responseTentative) now)

end Mailbox

section Frame

variable {I : ICal} {T : Strings} {m : Mailbox}

theorem removeBlobInstance_confined (id : Nat) (instant : Instant) :
    Confined [id] m (m.removeBlobInstance I id instant) := by
  unfold Mailbox.removeBlobInstance
  split
  · exact Confined.refl _ m
  · exact Confined.modifyItem id _

theorem replaceSeries_confined (id : Nat) (ical : Bytes) :
    Confined [id] m (m.replaceSeries I id ical) :=
  Confined.modifyItem id _

variable {id : Nat} {req : Letter} {m' : Mailbox}

theorem foldOccurrence_cases (h : m.foldOccurrence I id req=some m') :
    m'=m ∨ ∃ stored update merged,icalOf (m.itemProps id)=some stored ∧
      icalOf req.props=some update ∧ I.mergeOverride stored update=some merged ∧
      m'=m.replaceSeries I id merged := by
  simp only [Mailbox.foldOccurrence] at h
  split at h
  · cases h
  split at h
  · rename_i hstored hupdate
    split at h <;> cases h
    · exact .inl rfl
    · rename_i hmerge
      exact .inr ⟨_,_,_,hstored,hupdate,hmerge,rfl⟩
  · split_ifs at h
    cases h
    exact .inl rfl

theorem cancelOccurrence_cases (h : m.cancelOccurrence I id req=some m') :
    m'=m ∨ (∃ blob,m'=m.modifyItem id [(m.tags.appointmentRecur,.bytes blob)]) ∨
      ∃ stored trimmed,icalOf (m.itemProps id)=some stored ∧
        I.cancelOccurrence stored (Mailbox.occurrenceInstant I req)=some trimmed ∧
        m'=m.replaceSeries I id trimmed := by
  simp only [Mailbox.cancelOccurrence] at h
  split at h
  · cases h
  split at h
  · rename_i hstored _
    obtain ⟨trimmed,htrim,rfl⟩ := Option.map_eq_some_iff.mp h
    exact .inr (.inr ⟨_,trimmed,hstored,htrim,rfl⟩)
  · split_ifs at h
    cases h
    unfold Mailbox.removeBlobInstance
    split
    · exact .inl rfl
    · exact .inr (.inl ⟨_,rfl⟩)
  · split_ifs at h
    cases h
    exact .inl rfl

theorem foldOccurrence_confined (h : m.foldOccurrence I id req=some m') : Confined [id] m m' := by
  rcases foldOccurrence_cases h with rfl | ⟨_,_,_,-,-,-,rfl⟩
  · exact Confined.refl _ m'
  · exact replaceSeries_confined id _

theorem cancelOccurrence_confined (h : m.cancelOccurrence I id req=some m') :
    Confined [id] m m' := by
  rcases cancelOccurrence_cases h with rfl | ⟨_,rfl⟩ | ⟨_,_,-,-,rfl⟩
  · exact Confined.refl _ m'
  · exact Confined.modifyItem id _
  · exact replaceSeries_confined id _

theorem Confined.getD {touched : List Nat} {m m₂ : Mailbox} {done : Option Mailbox}
    (h : ∀ m₁∈done,Confined touched m m₁) (h₂ : Confined touched m m₂) :
    Confined touched m (done.getD m₂) := by
  cases done with
  | none => exact h₂
  | some m₁ => exact h m₁ rfl

theorem file_confined (req : Letter) (response : Int32) (now : UInt64) :
    Confined ((m.findCalendarByUID I (m.uidOf req.props)).map (·.id)).toList m
      (m.file I req response now) := by
  cases h : m.findCalendarByUID I (m.uidOf req.props) with
  | none =>
    simp only [Mailbox.file,h]
    exact Confined.createItem _
  | some existing =>
    simp only [Mailbox.file,h]
    exact Confined.getD (fun _ hm => foldOccurrence_confined hm) (Confined.modifyItem existing.id _)

theorem removeAppointment_confined (req : Letter) :
    Confined ((m.findCalendarByUID I (m.uidOf req.props)).map (·.id)).toList m
      (m.removeAppointment I req) := by
  cases h : m.findCalendarByUID I (m.uidOf req.props) with
  | none =>
    simp only [Mailbox.removeAppointment,h]
    exact Confined.refl _ m
  | some existing =>
    simp only [Mailbox.removeAppointment,h]
    exact Confined.getD (fun _ hm => cancelOccurrence_confined hm) (Confined.deleteObject existing.id)

theorem notifyOrganizer_confined (touched : List Nat) (req : Letter) (response : Int32) :
    Confined touched m (m.notifyOrganizer req response) := by
  simp only [Mailbox.notifyOrganizer]
  split_ifs
  · exact Confined.refl touched m
  · exact ⟨rfl,Spares.refl touched m.calendar⟩
  · exact Confined.refl touched m
  · exact ⟨rfl,Spares.refl touched m.calendar⟩

theorem openAnswerable_eq_ok {messageID : Nat} {req : Letter}
    (h : m.openAnswerable I T messageID=.ok req) : m.mail.get messageID=some req := by
  cases hg : m.mail.get messageID with
  | none => simp [Mailbox.openAnswerable,hg] at h
  | some r =>
    simp only [Mailbox.openAnswerable,hg] at h
    split_ifs at h
    all_goals
      obtain ⟨_,_,rfl⟩ := map_eq_ok h
      rfl

theorem respondAutomatically_confined {messageID : Nat} {req : Letter}
    (hreq : m.mail.get messageID=some req) (response : Int32) (send : Bool) (now : UInt64) :
    Confined ((m.findCalendarByUID I (m.uidOf req.props)).map (·.id)).toList m
      (m.respondAutomatically I T messageID response send now) := by
  cases h : m.openAnswerable I T messageID with
  | error e =>
    simp only [Mailbox.respondAutomatically,h]
    exact Confined.refl _ m
  | ok r =>
    obtain rfl : req=r := Option.some.inj (hreq.symm.trans (openAnswerable_eq_ok h))
    simp only [Mailbox.respondAutomatically,h]
    generalize hs : m.modifyLetter messageID _=stamped
    have hcal : stamped.findCalendarByUID I (stamped.uidOf req.props) =
        m.findCalendarByUID I (m.uidOf req.props) := by rw [← hs]; rfl
    have hstamp : Confined ((m.findCalendarByUID I (m.uidOf req.props)).map (·.id)).toList m stamped := by
      rw [← hs]
      exact Confined.modifyLetter messageID _
    have hfile := file_confined (I := I) (m := stamped) req response now
    have hremove := removeAppointment_confined (I := I) (m := stamped) req
    rw [hcal] at hfile hremove
    split_ifs
    · exact (hstamp.trans hremove).trans (notifyOrganizer_confined _ req response)
    · exact (hstamp.trans hfile).trans (notifyOrganizer_confined _ req response)
    · exact hstamp.trans hremove
    · exact hstamp.trans hfile

theorem autoProcess_confined (messageID : Nat) (now : UInt64) :
    Confined ((m.autoRequest messageID).bind fun req =>
      (m.findCalendarByUID I (m.uidOf req.props)).map (·.id)).toList m
      (m.autoProcess I T messageID now).2 := by
  cases h : m.autoRequest messageID with
  | none =>
    simp only [Mailbox.autoProcess,h]
    exact Confined.refl _ m
  | some req =>
    have hreq : m.mail.get messageID=some req := by
      simp only [Mailbox.autoRequest] at h
      split_ifs at h
      exact (Option.filter_eq_some_iff.mp h).1
    simp only [Mailbox.autoProcess,h]
    exact respondAutomatically_confined hreq _ _ now

end Frame
end HermEX.Meeting
