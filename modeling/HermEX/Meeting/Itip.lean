import HermEX.Directory.Accounts
import HermEX.Meeting.AutoProcess

namespace HermEX.Meeting

open Framework Mapi Directory

section Body

variable (I : ICal) (T : Strings)

variable (ics : Bytes)

def contentLine (name : GoString) : Option ContentLine :=
  ((I.contentLines ics).map I.splitContentLine).find? fun line => T.equalFold line.name name

def icalLine (name : GoString) : GoString := ((contentLine I T ics name).map (·.value)).getD []

def responseMethods (method : GoString) : Option Int32 :=
  if method=lit "REPLY" then some 0
  else if method=lit "COUNTER" then some responseTentative
  else none

structure ReplyAttendee where
  addr : GoString
  partstat : GoString
  sentBy : GoString

def calAddress (v : GoString) : Option GoString :=
  let v := T.trimSpace v
  match lastIndex (lit "mailto:") (T.toLower v) with
  | none => some (T.trimSpace v)
  | some i => if i+7≤v.length then some (T.trimSpace (v.drop (i+7))) else none

def parseAttendee : Option ReplyAttendee :=
  match contentLine I T ics (lit "ATTENDEE") with
  | none => some ⟨[],[],[]⟩
  | some line => do
      let addr ← calAddress T line.value
      let sentBy ← match line.params (lit "SENT-BY") with
        | [] => some []
        | v::_ => calAddress T v
      let partstat := match line.params (lit "PARTSTAT") with
        | [] => []
        | v::_ => T.trimSpace v
      return ⟨addr,partstat,sentBy⟩

def partstatResponse (partstat : GoString) : Int32 :=
  let status := T.toUpper (T.trimSpace partstat)
  if status=lit "ACCEPTED" then responseAccepted
  else if status=lit "TENTATIVE" then responseTentative
  else if status=lit "DECLINED" then responseDeclined
  else 0

def mayAnswerFor (accounts : Option Accounts) (sender : GoString) (a : ReplyAttendee) : Bool :=
  let sender := T.trimSpace sender
  if sender=[] then false
  else if T.equalFold sender a.addr then true
  else if a.sentBy≠[] && !T.equalFold sender a.sentBy then false
  else match accounts with
    | none => false
    | some accounts => Sendas.allows T accounts sender a.addr

structure Answer where
  uid : GoString
  attendee : GoString
  response : Int32

def authorizedReply (accounts : Option Accounts) (sender : GoString)
    (fallback : Int32) : Option Answer := do
  let uid := T.trimSpace (icalLine I T ics (lit "UID"))
  let a ← parseAttendee I T ics
  if uid=[] || a.addr=[] || !mayAnswerFor T accounts sender a then none
  else
    let status := partstatResponse T a.partstat
    let resp := if status=0 then fallback else status
    if resp=0 then none else some ⟨uid,a.addr,resp⟩

structure Proposal where
  start : UInt64
  finish : UInt64

structure Cancellation where
  id : Nat
  sender : GoString
  subject : GoString
  uid : GoString
  seq : Int
  instant : Option Instant

def mtgOutOfDate : Int32 := 0x00080000

def sameOrganizer (item : Item) (sender : GoString) : Bool :=
  T.equalFold (T.trimSpace (propStr item.props prSentRepresentingSmtpAddress)) sender

end Body

namespace Mailbox

variable (I : ICal) (T : Strings) (m : Mailbox)

def readProposal (messageID : Nat) : Option Proposal :=
  let props := m.letterProps messageID
  if !boolVal props m.tags.counterFlag then none
  else match sysTime props m.tags.proposedStart,sysTime props m.tags.proposedEnd with
    | some start,some finish => some ⟨start,finish⟩
    | _,_ => none

def responseSent (messageID : Nat) : UInt64 :=
  (sysTime (m.letterProps messageID) m.tags.attendeeCriticalChange).getD 0

def attendeeRecipient (event : Item) (email : GoString) : Option Recipient :=
  let target := T.toLower (T.trimSpace email)
  event.recipients.find? fun r =>
    T.toLower (T.trimSpace (propStr r.props prSmtpAddress))=target && target≠[]

def olderThanRecorded (eventID recipID : Nat) (sent : UInt64) : Bool :=
  if sent=0 then false
  else match sysTime (m.recipientProps eventID recipID) prRecipientTrackStatusTime with
    | some recorded => sent < recorded
    | none => false

def adjustProposals (eventID : Nat) (delta : Int32) : Mailbox :=
  let moved := longVal (m.itemProps eventID) m.tags.proposalNumber+delta
  let n := if moved<0 then 0 else moved
  m.modifyItem eventID [(m.tags.proposalNumber,.int32 n),(m.tags.counterFlag,.bool (0<n))]

def trackProposal (eventID recipID : Nat) (p : Option Proposal) : Mailbox :=
  let was := boolVal (m.recipientProps eventID recipID) prRecipientProposed
  match p with
  | none =>
    if !was then m
    else (m.setRecipient eventID recipID [(prRecipientProposed,.bool false)]).adjustProposals
      eventID (-1)
  | some p =>
    let row : PropertyValues := [(prRecipientProposed,.bool true),
      (prRecipientProposedStartTime,.uint64 p.start),
      (prRecipientProposedEndTime,.uint64 p.finish)]
    (m.setRecipient eventID recipID row).adjustProposals eventID (if was then 0 else 1)

def applyReply (a : Answer) (p : Option Proposal) (sent : UInt64) : Mailbox :=
  match m.findCalendarByUID I a.uid with
  | none => m
  | some event =>
    match attendeeRecipient T event a.attendee with
    | none => m
    | some r =>
      if m.olderThanRecorded event.id r.id sent then m
      else
        let status : PropertyValues := [(m.tags.resp,.int32 a.response),
          (prRecipientTrackStatus,.int32 a.response)]
        let row := if sent=0 then status
          else status.set prRecipientTrackStatusTime (.uint64 sent)
        (m.setRecipient event.id r.id row).trackProposal event.id r.id p

def readReply (accounts : Option Accounts) (sender : GoString) (messageID : Nat) :
    Option Answer := do
  let letter ← m.mail.get messageID
  let ics ← letter.inboxCalendarPart
  let fallback ← responseMethods (T.toUpper (T.trimSpace (icalLine I T ics (lit "METHOD"))))
  authorizedReply I T ics accounts sender fallback

def processReply (accounts : Option Accounts) (sender : GoString) (messageID : Nat) :
    Bool×Mailbox :=
  match m.readReply I T accounts sender messageID with
  | none => (false,m)
  | some a => (true,m.applyReply I T a (m.readProposal messageID) (m.responseSent messageID))

def pendingCancellation (messageID : Nat) : Option (PropertyValues×Bytes) := do
  let letter ← m.mail.get messageID
  if propStr letter.props prMessageClass≠cancelClass || boolVal letter.props prProcessed ||
      m.cfg.leaveCancellationsUnprocessed then none
  else
    let ics ← letter.inboxCalendarPart
    if T.equalFold (T.trimSpace (icalLine I T ics (lit "METHOD"))) (lit "CANCEL") then
      some (letter.props,ics)
    else none

def readCancellation (sender : GoString) (messageID : Nat) : Option Cancellation := do
  let pending ← m.pendingCancellation I T messageID
  let sender := T.toLower (T.trimSpace sender)
  if sender=[] then none
  else
    let uid := T.trimSpace (icalLine I T pending.2 (lit "UID"))
    let instant := I.occurrenceInstant pending.2
    let seq := I.sequence pending.2 instant
    if uid≠[] && 0 ≤ seq && seq≤2147483647 then
      some ⟨messageID,sender,propStr pending.1 prSubject,uid,seq,instant⟩
    else none

variable (c : Cancellation)

def meeting : Option Item :=
  (m.findCalendarByUID I c.uid).filter fun item => m.received item && sameOrganizer T item c.sender

def storedSequence (props : PropertyValues) : Int :=
  let seq := (longVal props m.tags.seq).toInt
  match icalOf props with
  | none => seq
  | some stored =>
    let seq := max seq (I.sequence stored none)
    match c.instant with
    | none => seq
    | some instant => max seq (I.sequence stored (some instant))

def applyInstance (appt : Nat) (stored : Option Bytes) (instant : Instant) :
    Option Mailbox :=
  match stored with
  | none => if m.isSeries appt then some (m.removeBlobInstance I appt instant) else none
  | some stored =>
    match I.cancelInstance stored instant with
    | some cancelled =>
      some (m.replaceSeries I appt ((I.setSequence cancelled c.seq (some instant)).getD cancelled))
    | none => (I.cancelOccurrence stored instant).map fun _ => m

def cancelMeeting (item : Item) : Mailbox :=
  let state := longVal item.props m.tags.state ||| asfCanceled
  let update : PropertyValues := [(m.tags.state,.int32 state),(m.tags.busy,.int32 busyFree),
    (m.tags.seq,.int32 (Int32.ofInt c.seq))]
  let named := if c.subject=[] then update else update.set prSubject (.string c.subject)
  match (icalOf item.props).bind fun stored => I.setSequence stored c.seq none with
  | none => m.modifyItem item.id named
  | some revised => m.modifyItem item.id (named.set prIcalOriginal (.bytes revised))

def applyCancellation (item : Item) : Mailbox :=
  let instance? := c.instant.bind fun instant =>
    m.applyInstance I c item.id (icalOf item.props) instant
  instance?.getD (m.cancelMeeting I c item)

def finish (meetingType : Int32) : Mailbox :=
  let update : PropertyValues := [(prProcessed,.bool true)]
  m.modifyLetter c.id (if meetingType=0 then update
    else update.set m.tags.meetingType (.int32 meetingType))

def processCancellation (sender : GoString) (messageID : Nat) : Bool×Mailbox :=
  match m.readCancellation I T sender messageID with
  | none => (false,m)
  | some c =>
    match m.meeting I T c with
    | none => (false,m)
    | some item =>
      if c.seq < m.storedSequence I c item.props then (true,m.finish c mtgOutOfDate)
      else (true,(m.applyCancellation I c item).finish c 0)

end Mailbox

section Frame

variable {I : ICal} {T : Strings} {m : Mailbox}

theorem trackProposal_confined (eventID recipID : Nat) (p : Option Proposal) :
    Confined [eventID] m (m.trackProposal eventID recipID p) := by
  cases p with
  | none =>
    simp only [Mailbox.trackProposal]
    split_ifs
    · exact Confined.refl _ m
    · exact (Confined.setRecipient eventID recipID _).trans (Confined.modifyItem eventID _)
  | some p => exact (Confined.setRecipient eventID recipID _).trans (Confined.modifyItem eventID _)

theorem applyReply_confined (a : Answer) (p : Option Proposal) (sent : UInt64) :
    Confined ((m.findCalendarByUID I a.uid).map (·.id)).toList m (m.applyReply I T a p sent) := by
  cases h : m.findCalendarByUID I a.uid with
  | none =>
    simp only [Mailbox.applyReply,h]
    exact Confined.refl _ m
  | some event =>
    simp only [Mailbox.applyReply,h]
    split
    · exact Confined.refl _ m
    · split
      · exact Confined.refl _ m
      · exact (Confined.setRecipient event.id _ _).trans (trackProposal_confined event.id _ p)

theorem processReply_confined (accounts : Option Accounts) (sender : GoString) (messageID : Nat) :
    Confined ((m.readReply I T accounts sender messageID).bind fun a =>
      (m.findCalendarByUID I a.uid).map (·.id)).toList m
      (m.processReply I T accounts sender messageID).2 := by
  cases h : m.readReply I T accounts sender messageID with
  | none =>
    simp only [Mailbox.processReply,h]
    exact Confined.refl _ m
  | some a =>
    simp only [Mailbox.processReply,h]
    exact applyReply_confined a _ _

theorem applyInstance_confined {c : Cancellation} {appt : Nat} {stored : Option Bytes}
    {instant : Instant} {m' : Mailbox} (h : m.applyInstance I c appt stored instant=some m') :
    Confined [appt] m m' := by
  simp only [Mailbox.applyInstance] at h
  split at h
  · split_ifs at h
    cases h
    exact removeBlobInstance_confined appt instant
  · split at h
    · cases h
      exact replaceSeries_confined appt _
    · obtain ⟨_,_,rfl⟩ := Option.map_eq_some_iff.mp h
      exact Confined.refl _ m

theorem applyCancellation_confined (c : Cancellation) (item : Item) :
    Confined [item.id] m (m.applyCancellation I c item) := by
  refine Confined.getD ?_ ?_
  · intro m' hm
    obtain ⟨instant,_,happly⟩ := Option.bind_eq_some_iff.mp hm
    exact applyInstance_confined happly
  · simp only [Mailbox.cancelMeeting]
    split <;> exact Confined.modifyItem item.id _

theorem readCancellation_sender {sender : GoString} {messageID : Nat} {c : Cancellation}
    (h : m.readCancellation I T sender messageID=some c) :
    c.sender=T.toLower (T.trimSpace sender) := by
  obtain ⟨pending,_,h⟩ := Option.bind_eq_some_iff.mp h
  simp only at h
  split_ifs at h
  cases h
  rfl

theorem processCancellation_confined (sender : GoString) (messageID : Nat) :
    Confined [] m (m.processCancellation I T sender messageID).2 ∨
      ∃ item∈m.calendar,sameOrganizer T item (T.toLower (T.trimSpace sender)) ∧
        Confined [item.id] m (m.processCancellation I T sender messageID).2 := by
  cases hc : m.readCancellation I T sender messageID with
  | none =>
    left
    simp only [Mailbox.processCancellation,hc]
    exact Confined.refl _ m
  | some c =>
    cases hm : m.meeting I T c with
    | none =>
      left
      simp only [Mailbox.processCancellation,hc,hm]
      exact Confined.refl _ m
    | some item =>
      right
      obtain ⟨hfound,horg⟩ := Option.filter_eq_some_iff.mp hm
      rw [Bool.and_eq_true,readCancellation_sender hc] at horg
      refine ⟨item,Mailbox.findCalendarByUID_mem hfound,horg.2,?_⟩
      simp only [Mailbox.processCancellation,hc,hm]
      split_ifs
      · exact Confined.modifyLetter c.id _
      · exact (applyCancellation_confined c item).trans (Confined.modifyLetter c.id _)

end Frame
end HermEX.Meeting
