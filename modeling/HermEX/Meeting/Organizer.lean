import HermEX.Meeting.Itip

namespace HermEX.Meeting

open Framework Mapi Directory

structure Delivery where
  sender : GoString
  messageID : Nat
  filing : Table Letter.id → Table Letter.id
  now : UInt64

inductive Pass where
  | request
  | reply
  | cancel
deriving DecidableEq

def passes : List Pass := [.request,.reply,.cancel]

section Passes

variable (I : ICal) (T : Strings) (accounts : Option Accounts) (d : Delivery)

def Pass.run (m : Mailbox) : Pass → Mailbox
  | .request => (m.autoProcess I T d.messageID d.now).2
  | .reply => (m.processReply I T accounts d.sender d.messageID).2
  | .cancel => (m.processCancellation I T d.sender d.messageID).2

def Mailbox.filed (m : Mailbox) : Mailbox := {m with mail:=d.filing m.mail}

def fileDelivery (m : Mailbox) (d : Delivery) : Mailbox :=
  runSteps (Pass.run I T accounts d) (m.filed d) passes

def Delivery.envelope (T : Strings) (d : Delivery) : GoString := T.toLower (T.trimSpace d.sender)

def Pass.unchecked (m : Mailbox) : Pass → Option Item
  | .request => (m.autoRequest d.messageID).bind fun req =>
    m.findCalendarByUID I (m.uidOf req.props)
  | .reply => (m.readReply I T accounts d.sender d.messageID).bind fun a =>
    m.findCalendarByUID I a.uid
  | .cancel => none

def Pass.Vouched (m : Mailbox) (p : Pass) : Prop :=
  ∀ item∈p.unchecked I T accounts d m,m.received item → sameOrganizer T item (d.envelope T)

instance (m : Mailbox) (p : Pass) : Decidable (p.Vouched I T accounts d m) :=
  inferInstanceAs (Decidable (∀ item∈p.unchecked I T accounts d m,_))

def Vouched (m : Mailbox) (d : Delivery) : Prop :=
  Meets (Pass.run I T accounts d) (Pass.Vouched I T accounts d) (m.filed d) passes

instance (m : Mailbox) (d : Delivery) : Decidable (Vouched I T accounts m d) :=
  inferInstanceAs (Decidable (Meets _ _ _ _))

end Passes

/-- A received item that changed came from the sender. -/
def OrganizerOnly (T : Strings) (d : Delivery) (m m' : Mailbox) : Prop :=
  ∀ item∈m.calendar,m.received item → item∉m'.calendar → sameOrganizer T item (d.envelope T)

section Run

variable {I : ICal} {T : Strings} {accounts : Option Accounts} {d : Delivery}

variable {m : Mailbox} {p : Pass}

theorem OrganizerOnly.refl (m : Mailbox) : OrganizerOnly T d m m :=
  fun _ hm _ hgone => absurd hm hgone

theorem OrganizerOnly.trans {m' m'' : Mailbox} (htags : m'.tags=m.tags)
    (h : OrganizerOnly T d m m') (h' : OrganizerOnly T d m' m'') : OrganizerOnly T d m m'' := by
  intro item hm hrec hgone
  by_cases hkept : item∈m'.calendar
  · have hrec' : m'.received item := by simpa [Mailbox.received,htags] using hrec
    exact h' item hkept hrec' hgone
  · exact h item hm hrec hkept

theorem Confined.organizerOnly {m' : Mailbox} (found : Option Item)
    (h : Confined (found.map (·.id)).toList m m') (hfound : ∀ item∈found,item∈m.calendar)
    (hsame : ∀ item∈found,m.received item → sameOrganizer T item (d.envelope T)) :
    OrganizerOnly T d m m' := by
  intro item hm hrec hgone
  have hid : item.id∈(found.map (·.id)).toList := by
    by_contra hn
    exact hgone (h.kept hm hn)
  obtain ⟨x,hx,hxid⟩ := Option.map_eq_some_iff.mp (Option.mem_toList.mp hid)
  have hxi : x=item := Table.eq_of_key (hfound x hx) hm hxid
  rw [hxi] at hx
  exact hsame item hx hrec

theorem unchecked_mem {item : Item} (h : p.unchecked I T accounts d m=some item) :
    item∈m.calendar := by
  cases p with
  | request | reply =>
    obtain ⟨_,_,hfound⟩ := Option.bind_eq_some_iff.mp h
    exact Mailbox.findCalendarByUID_mem hfound
  | cancel => cases h

theorem unchecked_confined (hp : p ≠ .cancel) :
    Confined ((p.unchecked I T accounts d m).map (·.id)).toList m (p.run I T accounts d m) := by
  cases p with
  | request =>
    simp only [Pass.unchecked,Option.map_bind]
    exact autoProcess_confined d.messageID d.now
  | reply =>
    simp only [Pass.unchecked,Option.map_bind]
    exact processReply_confined accounts d.sender d.messageID
  | cancel => exact absurd rfl hp

theorem pass_tags (m : Mailbox) (p : Pass) : (p.run I T accounts d m).tags=m.tags := by
  cases p with
  | request => exact (autoProcess_confined d.messageID d.now).tags
  | reply => exact (processReply_confined accounts d.sender d.messageID).tags
  | cancel =>
    rcases processCancellation_confined d.sender d.messageID with
      h | ⟨_,_,_,h⟩ <;> exact h.tags

theorem pass_organizerOnly (h : p.Vouched I T accounts d m) :
    OrganizerOnly T d m (p.run I T accounts d m) := by
  by_cases hp : p=.cancel
  · subst hp
    rcases processCancellation_confined d.sender d.messageID with
      hs | ⟨item,hm,hsame,hs⟩
    · exact Confined.organizerOnly none hs (by simp) (by simp)
    · refine Confined.organizerOnly (some item) hs (by simpa using hm) ?_
      intro x hx _
      rw [← Option.some.inj hx]
      exact hsame
  · exact Confined.organizerOnly _ (unchecked_confined hp) (fun _ hi => unchecked_mem hi) h

def Kept (T : Strings) (d : Delivery) (m m' : Mailbox) : Prop :=
  m'.tags=m.tags ∧ OrganizerOnly T d m m'

theorem Kept.trans {a b c : Mailbox} (h : Kept T d a b) (h' : Kept T d b c) : Kept T d a c :=
  ⟨h'.1.trans h.1,OrganizerOnly.trans h.1 h.2 h'.2⟩

theorem delivery_organizerOnly (h : Vouched I T accounts m d) :
    OrganizerOnly T d m (fileDelivery I T accounts m d) := by
  have hrun : Kept T d (m.filed d) (fileDelivery I T accounts m d) :=
    Meets.relation (I := fun _ => True) (fun m => ⟨rfl,OrganizerOnly.refl m⟩)
      Kept.trans (fun _ _ _ _ => trivial)
      (fun m p _ hv => ⟨pass_tags m p,pass_organizerOnly hv⟩) h trivial
  exact hrun.2

end Run

/-- In vouched runs a received meeting changes only by mail of its organizer. -/
theorem received_meeting_organizerOnly (I : ICal) (T : Strings) (accounts : Option Accounts)
    (m : Mailbox) (ds : List Delivery)
    (h : Meets (fileDelivery I T accounts) (Vouched I T accounts) m ds) :
    Meets (fileDelivery I T accounts)
      (fun m d => OrganizerOnly T d m (fileDelivery I T accounts m d)) m ds :=
  h.mono fun _ _ hv => delivery_organizerOnly hv

instance (T : Strings) (d : Delivery) (m m' : Mailbox) : Decidable (OrganizerOnly T d m m') :=
  inferInstanceAs (Decidable (∀ item∈m.calendar.rows,_ → item∉m'.calendar.rows → _))

def plainICal : ICal where
  contentLines := split 0x0A
  splitContentLine line :=
    match cut 0x3A line with
    | none => ⟨line,fun _ => [],[]⟩
    | some (name,value) => ⟨name,fun _ => [],value⟩
  occurrenceInstant _ := none
  mergeOverride _ _ := none
  cancelOccurrence _ _ := none
  cancelInstance _ _ := none
  sequence _ _ := 0
  setSequence _ _ _ := none
  recurrenceBlob _ := none
  editRecurrenceBlob _ _ := none
  globalObjectIDForms _ := []
  occurrencesIn _ _ _ := none

def storeTags : Tags :=
  ⟨0x80000003,0x80010040,0x80020003,0x80030003,0x8004001F,0x80050040,0x80060040,0x8007000B,
    0x80080003,0x80090003,0x800A0102,0x800B0102,0x800C0040,0x800D000B,0x800E0040,0x800F0040,
    0x80100003⟩

def acceptingMailbox : Mailbox := ⟨⟨true,false,false,false⟩,storeTags,.empty,.empty,1,[]⟩

def invitation (messageID : Nat) (sender : GoString) : Delivery where
  sender := sender
  messageID := messageID
  filing mail := mail.put ⟨messageID,[(prMessageClass,.string requestClass),
    (prSentRepresentingSmtpAddress,.string sender),(storeTags.uid,.string (lit "m1"))],
    some (lit "METHOD:REQUEST\nUID:m1")⟩
  now := 1

theorem received_meeting_organizerOnly_update :
    let ds := [invitation 100 (lit "boss@a.org"),invitation 101 (lit "Boss@A.org")]
    Meets (fileDelivery plainICal .ascii none)
      (fun m d => OrganizerOnly .ascii d m (fileDelivery plainICal .ascii none m d))
      acceptingMailbox ds :=
  received_meeting_organizerOnly plainICal .ascii none acceptingMailbox _ (by decide +kernel)

/-- Someone else's invitation under the UID overwrites the meeting. -/
theorem received_meeting_overwritten :
    let m := fileDelivery plainICal .ascii none acceptingMailbox (invitation 100 (lit "boss@a.org"))
    let d := invitation 101 (lit "mallory@b.org")
    ¬OrganizerOnly .ascii d m (fileDelivery plainICal .ascii none m d) := by
  decide +kernel

end HermEX.Meeting
