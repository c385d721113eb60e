import HermEX.Dav.Invitation
import HermEX.Oxcical.Expansion

namespace HermEX.Dav

open Framework Oxcical

/-- The times of a VEVENT, in the zones its object defines. -/
structure Meaning where
  event : List Icomp → Icomp → Event

/-- Its instant in the series, when it is held, and if it is cancelled. -/
structure Occasion where
  instant : Int
  span : Span
  cancelled : Bool

namespace Meaning

variable (M : Meaning) (T : Strings) (comps : List Icomp)

def events : List Event := (comps.filter (isEvent T)).map (M.event comps)

def excluded : List Int := ((master (M.events T comps)).map (·.exdates)).getD []

def length : Int := (((master (M.events T comps)).bind Event.seriesShape).map (·.dur)).getD 0

def Holds (e : Event) (x : Occasion) : Prop :=
  x.cancelled=e.cancelled ∧
    match e.recurrenceID,e.seriesShape with
    | some none,_ => False
    | some (some t),_ =>
      x.instant=t ∧ t∉M.excluded T comps ∧ (overridesOf (M.events T comps)).at t=some e ∧
        x.span=overrideSpan e t (M.length T comps)
    | none,some s =>
      s.Defines e x.instant ∧ x.instant∉e.exdates ∧
        (overridesOf (M.events T comps)).at x.instant=none ∧
        x.span=⟨x.instant,x.instant+s.dur⟩
    | none,none => e.dtstart=some x.instant ∧ x.span=⟨x.instant,e.eventEnd x.instant⟩

end Meaning

namespace Broker

variable (B : Broker) (M : Meaning)

def lists (a : Bytes) (c : Icomp) : Bool :=
  (propsByName c (lit "ATTENDEE")).any fun p => B.normalizeCalAddr p.value=a

/-- An occasion that the components invite the attendee to. -/
def Gives (comps : List Icomp) (a : Bytes) (x : Occasion) : Prop :=
  ∃ c∈comps,isEvent B.T c=true ∧ B.lists a c=true ∧ M.Holds B.T comps (M.event comps c) x

/-- What the message leaves when it takes the copy's place. -/
def Leaves (m : ItipMsg) (a : Bytes) (x : Occasion) : Prop :=
  m.method=lit "REQUEST" ∧ B.Gives M (componentsOf B.T m.body) a x

def Addresses (m : ItipMsg) (a : Bytes) : Prop := ∃ r∈m.recipients,B.normalizeCalAddr r=a

section Change

variable (owner oldBody newBody : Bytes)

structure Organizes : Prop where
  named : ∀ body∈[oldBody,newBody],∀ c∈componentsOf B.T body,isEvent B.T c=true →
    B.nodeOrganizer (some c)≠[]
  owned : ∀ body∈[oldBody,newBody],∀ c∈componentsOf B.T body,isEvent B.T c=true →
    B.addrMatchesOwner owner (B.nodeOrganizer (some c))=true

structure Scheduled (a : Bytes) : Prop where
  addressed : a≠[]
  notOrganizer : a≠B.normalizeCalAddr (B.organizerOf oldBody newBody)
  byServer : ∀ body∈[oldBody,newBody],∀ c∈componentsOf B.T body,
    ∀ p∈propsByName c (lit "ATTENDEE"),B.normalizeCalAddr p.value=a →
      B.scheduledByClient p=false

def Differs (a : Bytes) : Prop :=
  ∃ x,¬(B.Gives M (componentsOf B.T oldBody) a x ↔ B.Gives M (componentsOf B.T newBody) a x)

/-- The messages of a change keep its attendees in step. -/
structure InStep : Prop where
  told : ∀ a,B.Scheduled oldBody newBody a → B.Differs M oldBody newBody a →
    ∃ m∈B.schedulingMessages owner oldBody newBody,B.Addresses m a
  left : ∀ a,B.Scheduled oldBody newBody a → B.Differs M oldBody newBody a →
    ∀ m∈B.schedulingMessages owner oldBody newBody,B.Addresses m a →
      ∀ x,B.Leaves M m a x ↔ B.Gives M (componentsOf B.T newBody) a x
  carried : ∀ m∈B.schedulingMessages owner oldBody newBody,m.method=lit "REQUEST" →
    parseICalNode B.T m.body=(parseICalNode B.T newBody).map (setMethod (lit "REQUEST"))

/-- The first VEVENTs show who is new, gone or sees a significant change. -/
def Visible (a : Bytes) : Prop :=
  let oldEv := B.firstVEvent oldBody
  let newEv := B.firstVEvent newBody
  (newEv.any (B.lists a)=true ∧
    (oldEv.any (B.lists a)=false ∨ B.significantlyChanged oldEv newEv=true)) ∨
  (oldEv.any (B.lists a)=true ∧ newEv.any (B.lists a)=false ∧
    ∀ x,¬B.Gives M (componentsOf B.T newBody) a x)

end Change

section Attendees

variable {B} {orgKey a : Bytes} {out : Attendees}

def Enters (orgKey a : Bytes) (p : Iline) : Prop :=
  B.scheduledByClient p=false ∧ B.normalizeCalAddr p.value=a ∧ a≠[] ∧ a≠orgKey

theorem mem_enter {p : Iline} {x : Bytes×Iline} (h : x∈B.enter orgKey out p) :
    x∈out ∨ x=(B.normalizeCalAddr p.value,p) := by
  simp only [enter] at h
  split_ifs at h with hclient hkey
  · exact .inl h
  · exact .inl h
  · cases hins : out.insert (B.normalizeCalAddr p.value,p) with
    | none =>
      rw [hins] at h
      exact .inl h
    | some out' =>
      rw [hins] at h
      exact ((Table.insert_eq_some hins).2 x).mp h

theorem entered_step (p : Iline) :
    (∃ x∈B.enter orgKey out p,x.1=a) ↔ (∃ x∈out,x.1=a) ∨ B.Enters orgKey a p := by
  constructor
  · rintro ⟨x,hx,hkey⟩
    by_cases hold : x∈out
    · exact .inl ⟨x,hold,hkey⟩
    · right
      have hnew := (mem_enter hx).resolve_left hold
      rw [hnew] at hkey hx hold
      simp only [enter] at hx
      split_ifs at hx with hclient hk
      · exact absurd hx hold
      · exact absurd hx hold
      · rw [not_or] at hk
        simp only at hkey
        rw [hkey] at hk
        exact ⟨by simpa using hclient,hkey,hk⟩
  · rintro (⟨x,hx,hkey⟩ | ⟨hclient,hkey,hne,horg⟩)
    · refine ⟨x,?_,hkey⟩
      simp only [enter]
      split_ifs with hc hk
      · exact hx
      · exact hx
      · cases hins : out.insert (B.normalizeCalAddr p.value,p) with
        | none => exact hx
        | some out' => exact ((Table.insert_eq_some hins).2 x).mpr (.inl hx)
    · have hk : ¬(B.normalizeCalAddr p.value=[] ∨ B.normalizeCalAddr p.value=orgKey) := by
        rw [hkey,not_or]
        exact ⟨hne,horg⟩
      simp only [enter,hclient,Bool.false_eq_true,if_false,if_neg hk]
      cases hins : out.insert (B.normalizeCalAddr p.value,p) with
      | none =>
        -- the address is there already
        have htaken : out.get (B.normalizeCalAddr p.value)≠none := by
          intro hfree
          simp [Table.insert,hfree] at hins
        obtain ⟨x,hx⟩ := Option.ne_none_iff_exists'.mp htaken
        obtain ⟨hmem,hxkey⟩ := Table.get_eq_some.mp hx
        exact ⟨x,hmem,hxkey.trans hkey⟩
      | some out' => exact ⟨_,((Table.insert_eq_some hins).2 _).mpr (.inr rfl),hkey⟩

theorem entered_iff (ps : List Iline) :
    (∃ x∈ps.foldl (B.enter orgKey) out,x.1=a) ↔ (∃ x∈out,x.1=a) ∨ ∃ p∈ps,B.Enters orgKey a p := by
  induction ps generalizing out with
  | nil => simp
  | cons p ps ih =>
    rw [List.foldl_cons,ih,entered_step]
    simp [or_assoc]

theorem entered_key (ps : List Iline) (h : ∀ x∈out,x.1=B.normalizeCalAddr x.2.value) :
    ∀ x∈ps.foldl (B.enter orgKey) out,x.1=B.normalizeCalAddr x.2.value := by
  induction ps generalizing out with
  | nil => exact h
  | cons p ps ih =>
    apply ih
    intro x hx
    rcases mem_enter hx with hx | rfl
    · exact h x hx
    · rfl

theorem schedulable_key {ev : Option Icomp} {organizer : Bytes} :
    ∀ x∈B.schedulableAttendees ev organizer,x.1=B.normalizeCalAddr x.2.value := by
  cases ev with
  | none => exact fun x hx => absurd hx (Table.not_mem_empty x)
  | some n => exact entered_key _ fun x hx => absurd hx (Table.not_mem_empty x)

theorem schedulable_iff {ev : Option Icomp} {organizer : Bytes} (hne : a≠[])
    (horg : a≠B.normalizeCalAddr organizer)
    (hserver : ∀ c∈ev,∀ p∈propsByName c (lit "ATTENDEE"),B.normalizeCalAddr p.value=a →
      B.scheduledByClient p=false) :
    (∃ x∈B.schedulableAttendees ev organizer,x.1=a) ↔ ev.any (B.lists a)=true := by
  cases ev with
  | none =>
    simp only [schedulableAttendees,Option.any_none,Bool.false_eq_true,iff_false]
    rintro ⟨x,hx,-⟩
    exact Table.not_mem_empty x hx
  | some n =>
    simp only [schedulableAttendees,Option.any_some,lists,List.any_eq_true,decide_eq_true_eq]
    rw [entered_iff]
    constructor
    · rintro (⟨x,hx,-⟩ | ⟨p,hp,-,hkey,-⟩)
      · exact absurd hx (Table.not_mem_empty x)
      · exact ⟨p,hp,hkey⟩
    · rintro ⟨p,hp,hkey⟩
      exact .inr ⟨p,hp,hserver n rfl p hp hkey,hkey,hne,horg⟩

end Attendees
section Addressed

variable {B} (hT : B.T.Lawful) {a : Bytes}

theorem addresses_nil : B.addresses []=[] := by
  have harrange : B.attendees.arrange []=[] := (B.attendees.perm []).eq_nil
  rw [addresses,harrange,List.map_nil]

theorem firstVEvent_mem {body : Bytes} {c : Icomp} (h : B.firstVEvent body=some c) :
    c∈componentsOf B.T body ∧ isEvent B.T c=true :=
  ⟨List.mem_of_find?_eq_some h,List.find?_some h⟩

variable {oldBody newBody : Bytes}

theorem attends_iff (h : B.Scheduled oldBody newBody a) (body : Bytes)
    (hbody : body∈[oldBody,newBody]) :
    (∃ x∈B.schedulableAttendees (B.firstVEvent body) (B.organizerOf oldBody newBody),
      x.1=a) ↔ (B.firstVEvent body).any (B.lists a)=true := by
  apply schedulable_iff h.addressed h.notOrganizer
  intro c hc
  exact h.byServer body hbody c (firstVEvent_mem hc).1

theorem unlisted_iff (h : B.Scheduled oldBody newBody a) (body : Bytes)
    (hbody : body∈[oldBody,newBody]) :
    (B.schedulableAttendees (B.firstVEvent body) (B.organizerOf oldBody newBody)).get a=none ↔
      (B.firstVEvent body).any (B.lists a)=false := by
  have hattends := attends_iff h body hbody
  rw [Table.get_eq_none,← Bool.not_eq_true,← hattends]
  simp only [not_exists,not_and,ne_eq]

include hT

theorem addressed_iff {rows : List (Bytes×Iline)}
    (hkey : ∀ x∈rows,x.1=B.normalizeCalAddr x.2.value) :
    (∃ r∈B.addresses rows,B.normalizeCalAddr r=a) ↔ ∃ x∈rows,x.1=a := by
  have htrim : ∀ v,B.normalizeCalAddr (B.T.trimSpace v)=B.normalizeCalAddr v := by
    intro v
    simp [normalizeCalAddr,stripMailto,hT.trim_trim]
  simp only [addresses,List.mem_map,(B.attendees.perm rows).mem_iff]
  constructor
  · rintro ⟨r,⟨x,hx,rfl⟩,hr⟩
    exact ⟨x,hx,(hkey x hx).trans ((htrim x.2.value).symm.trans hr)⟩
  · rintro ⟨x,hx,hxa⟩
    exact ⟨_,⟨x,hx,rfl⟩,(htrim x.2.value).trans ((hkey x hx).symm.trans hxa)⟩

theorem requested_iff (h : B.Scheduled oldBody newBody a) :
    let oldEv := B.firstVEvent oldBody
    let newEv := B.firstVEvent newBody
    let organizer := B.organizerOf oldBody newBody
    (∃ r∈B.requestRecipients oldEv newEv (B.schedulableAttendees oldEv organizer)
        (B.schedulableAttendees newEv organizer),B.normalizeCalAddr r=a) ↔
      newEv.any (B.lists a)=true ∧
        (oldEv.any (B.lists a)=false ∨ B.significantlyChanged oldEv newEv=true) := by
  intro oldEv newEv organizer
  have hold := unlisted_iff h oldBody (by simp)
  have hnew := attends_iff h newBody (by simp)
  have hnone : oldEv.isNone=true → oldEv.any (B.lists a)=false := by
    intro he
    rw [Option.isNone_iff_eq_none.mp he]
    rfl
  rw [requestRecipients,addressed_iff hT]
  · simp only [List.mem_filter,Bool.or_eq_true,Option.isNone_iff_eq_none]
    rw [← hnew,← hold]
    constructor
    · rintro ⟨x,⟨hx,hcase⟩,rfl⟩
      refine ⟨⟨x,hx,rfl⟩,?_⟩
      rcases hcase with hcase | hcase | hcase
      · exact .inl hcase
      · exact .inl (hold.mpr (hnone (by simp [hcase])))
      · exact .inr hcase
    · rintro ⟨⟨x,hx,rfl⟩,hcase⟩
      exact ⟨x,⟨hx,hcase.imp id .inr⟩,rfl⟩
  · intro x hx
    exact schedulable_key x (List.mem_filter.mp hx).1

theorem cancelled_iff (h : B.Scheduled oldBody newBody a) :
    let oldEv := B.firstVEvent oldBody
    let newEv := B.firstVEvent newBody
    let organizer := B.organizerOf oldBody newBody
    (∃ r∈B.removedAttendees (B.schedulableAttendees oldEv organizer)
        (B.schedulableAttendees newEv organizer),B.normalizeCalAddr r=a) ↔
      oldEv.any (B.lists a)=true ∧ newEv.any (B.lists a)=false := by
  intro oldEv newEv organizer
  have hold := attends_iff h oldBody (by simp)
  have hnew := unlisted_iff h newBody (by simp)
  rw [removedAttendees,addressed_iff hT]
  · simp only [List.mem_filter,Option.isNone_iff_eq_none]
    rw [← hold,← hnew]
    constructor
    · rintro ⟨x,⟨hx,hgone⟩,rfl⟩
      exact ⟨⟨x,hx,rfl⟩,hgone⟩
    · rintro ⟨⟨x,hx,rfl⟩,hgone⟩
      exact ⟨x,⟨hx,hgone⟩,rfl⟩
  · intro x hx
    exact schedulable_key x (List.mem_filter.mp hx).1

end Addressed

section Messages

variable {B} {owner oldBody newBody : Bytes}

theorem organizerOf_owner (h : B.Organizes owner oldBody newBody)
    (hev : ¬((B.firstVEvent oldBody).isNone ∧ (B.firstVEvent newBody).isNone)) :
    B.organizerOf oldBody newBody≠[] ∧
      B.addrMatchesOwner owner (B.organizerOf oldBody newBody)=true := by
  cases hnew : B.firstVEvent newBody with
  | some c =>
    obtain ⟨hc,hevent⟩ := firstVEvent_mem hnew
    have hname := h.named newBody (by simp) c hc hevent
    simp only [organizerOf,hnew,if_neg hname]
    exact ⟨hname,h.owned newBody (by simp) c hc hevent⟩
  | none =>
    have hnil : B.nodeOrganizer none=[] := rfl
    cases hold : B.firstVEvent oldBody with
    | none => exact absurd ⟨by rw [hold]; rfl,by rw [hnew]; rfl⟩ hev
    | some c =>
      obtain ⟨hc,hevent⟩ := firstVEvent_mem hold
      simp only [organizerOf,hnew,hold,if_pos hnil]
      exact ⟨h.named oldBody (by simp) c hc hevent,h.owned oldBody (by simp) c hc hevent⟩

theorem schedulingMessages_eq (h : B.Organizes owner oldBody newBody) :
    let oldEv := B.firstVEvent oldBody
    let newEv := B.firstVEvent newBody
    let organizer := B.organizerOf oldBody newBody
    let oldAtt := B.schedulableAttendees oldEv organizer
    let newAtt := B.schedulableAttendees newEv organizer
    let summary := B.eventSummary [newEv,oldEv]
    let requestTo := B.requestRecipients oldEv newEv oldAtt newAtt
    B.schedulingMessages owner oldBody newBody =
      (if requestTo=[] then []
        else [⟨lit "REQUEST",requestTo,B.withMethod newBody (lit "REQUEST"),summary⟩]) ++
        B.cancelMessages oldEv organizer summary (B.removedAttendees oldAtt newAtt) := by
  intro oldEv newEv organizer oldAtt newAtt summary requestTo
  have hrequest : newAtt.rows=[] → requestTo=[] := by
    intro hrows
    simp [requestTo,requestRecipients,hrows,addresses_nil]
  have hcancel : oldAtt.rows=[] →
      B.cancelMessages oldEv organizer summary (B.removedAttendees oldAtt newAtt)=[] := by
    intro hrows
    simp [removedAttendees,hrows,addresses_nil,cancelMessages]
  have hnoOld : oldEv=none → oldAtt.rows=[] := by
    intro he
    simp only [oldAtt,he]
    rfl
  have hnoNew : newEv=none → newAtt.rows=[] := by
    intro he
    simp only [newAtt,he]
    rfl
  by_cases hev : oldEv.isNone ∧ newEv.isNone
  · have hnone : B.schedulingMessages owner oldBody newBody=[] := if_pos hev
    obtain ⟨hold,hnew⟩ := hev
    rw [Option.isNone_iff_eq_none] at hold hnew
    rw [hnone,if_pos (hrequest (hnoNew hnew)),hcancel (hnoOld hold),List.append_nil]
  · obtain ⟨hname,howner⟩ := organizerOf_owner h hev
    have hmessages : B.schedulingMessages owner oldBody newBody =
        B.organizerMessages oldEv newEv newBody organizer := by
      rw [schedulingMessages,if_neg hev,if_neg hname,if_pos howner]
    rw [hmessages,organizerMessages]
    by_cases hatt : newAtt.rows=[] ∧ oldAtt.rows=[]
    · rw [if_pos hatt,if_pos (hrequest hatt.1),hcancel hatt.2,List.append_nil]
    · rw [if_neg hatt]
      cases hnew : newEv with
      | some c => simp [requestTo,oldAtt,newAtt,summary,hnew]
      | none =>
        have hall : B.removedAttendees oldAtt newAtt=B.attendeeAddresses oldAtt := by
          have hget : ∀ k,(newAtt.get k).isNone=true := by
            intro k
            rw [Option.isNone_iff_eq_none,Table.get_eq_none]
            intro r hr
            rw [← Table.mem_rows,hnoNew hnew] at hr
            cases hr
          simp [removedAttendees,attendeeAddresses,hget]
        rw [if_pos (hrequest (hnoNew hnew)),List.nil_append,hall]
        simp [oldAtt,summary,hnew]

variable {M : Meaning}

theorem componentsOf_eq (T : Strings) (body : Bytes) :
    componentsOf T body=((parseICalNode T body).map Comp.comps).getD [] := by
  by_cases hbody : body=[]
  · subst hbody
    rfl
  · rw [componentsOf,if_neg hbody]

theorem request_components (hT : B.T.Lawful) (htidy : Tidy B.T newBody) :
    componentsOf B.T (B.withMethod newBody (lit "REQUEST"))=componentsOf B.T newBody := by
  rw [componentsOf_eq,componentsOf_eq,parseICalNode_withMethod hT B rfl htidy (by decide),
    Option.map_map]
  rfl

section Recipients

variable (h : B.Organizes owner oldBody newBody) {m : ItipMsg}

include h

theorem mem_messages (hm : m∈B.schedulingMessages owner oldBody newBody) :
    let oldEv := B.firstVEvent oldBody
    let newEv := B.firstVEvent newBody
    let organizer := B.organizerOf oldBody newBody
    let oldAtt := B.schedulableAttendees oldEv organizer
    let newAtt := B.schedulableAttendees newEv organizer
    (m.method=lit "REQUEST" ∧ m.body=B.withMethod newBody (lit "REQUEST") ∧ newBody≠[] ∧
        m.recipients=B.requestRecipients oldEv newEv oldAtt newAtt) ∨
      (m.method=lit "CANCEL" ∧ m.recipients=B.removedAttendees oldAtt newAtt) := by
  intro oldEv newEv organizer oldAtt newAtt
  rw [schedulingMessages_eq h] at hm
  rcases List.mem_append.mp hm with hm | hm
  · left
    split_ifs at hm with hnone
    · cases hm
    rw [List.mem_singleton.mp hm]
    refine ⟨rfl,rfl,?_,rfl⟩
    rintro rfl
    apply hnone
    have hrows : (B.schedulableAttendees (B.firstVEvent []) organizer).rows=[] := rfl
    simp [requestRecipients,organizer,hrows,addresses_nil]
  · right
    simp only [cancelMessages] at hm
    split_ifs at hm
    · cases hm
    · rw [List.mem_singleton.mp hm]
      exact ⟨rfl,rfl⟩

variable (hT : B.T.Lawful) {a : Bytes} (ha : B.Scheduled oldBody newBody a)

include hT ha

theorem addressed_messages :
    (∃ m∈B.schedulingMessages owner oldBody newBody,B.Addresses m a) ↔
      ((B.firstVEvent newBody).any (B.lists a)=true ∧
        ((B.firstVEvent oldBody).any (B.lists a)=false ∨
          B.significantlyChanged (B.firstVEvent oldBody) (B.firstVEvent newBody)=true)) ∨
      ((B.firstVEvent oldBody).any (B.lists a)=true ∧
        (B.firstVEvent newBody).any (B.lists a)=false) := by
  have hrequested := requested_iff hT ha
  have hcancelled := cancelled_iff hT ha
  simp only at hrequested hcancelled
  rw [← hrequested,← hcancelled]
  constructor
  · rintro ⟨m,hm,haddr⟩
    rcases mem_messages h hm with ⟨-,-,-,hto⟩ | ⟨-,hto⟩
    · left
      rwa [Addresses,hto] at haddr
    · right
      rwa [Addresses,hto] at haddr
  · rw [schedulingMessages_eq h]
    rintro (⟨r,hr,hra⟩ | ⟨r,hr,hra⟩)
    · rw [if_neg (List.ne_nil_of_mem hr)]
      exact ⟨_,List.mem_append_left _ (List.mem_singleton_self _),r,hr,hra⟩
    · rw [cancelMessages,if_neg (List.ne_nil_of_mem hr)]
      exact ⟨_,List.mem_append_right _ (List.mem_singleton_self _),r,hr,hra⟩

end Recipients

end Messages

end Broker

def Broker.simple : Broker := ⟨.ascii,.asRead,⟨id,fun _ => .refl _⟩,fun user => lit "/" ++ user,[]⟩

def Meaning.seconds : Meaning where
  event _ c :=
    let time := fun name => (propsByName c (lit name)).head?.bind fun p => parseInt p.value
    ⟨(propsByName c (lit "RECURRENCE-ID")).head?.map fun p => parseInt p.value,time "DTSTART",false,
      none,time "DTEND",none,false,none,
      (propsByName c (lit "RDATE")).filterMap fun p => parseInt p.value,[]⟩

def vevent (times : List String) : List Bytes :=
  lit "BEGIN:VEVENT" :: lit "ORGANIZER:mailto:o" :: lit "ATTENDEE:mailto:a" ::
    (times.map lit++[lit "END:VEVENT"])

def vcalendar (events : List (List String)) : Bytes :=
  terminated (lit "BEGIN:VCALENDAR" :: (events.flatMap vevent++[lit "END:VCALENDAR"]))

def movable (held : String) : Bytes :=
  vcalendar [["DTSTART:0","RDATE:100"],["RECURRENCE-ID:100",held]]

section Check

def checked (body : Bytes) : Bool :=
  let lines := unfoldLines (physicalLines body)
  (physicalLines body).head?=some (lit "BEGIN:VCALENDAR") &&
    lines.head?=some (lit "BEGIN:VCALENDAR") &&
    unfoldLines ((physicalLines body).filter fun l => !Broker.isMethodLine .ascii l) =
      lines.filter (fun l => !Broker.isMethodLine .ascii l) &&
    lines.all (fun l => Broker.isMethodLine .ascii l=isMethod (contentLine .ascii l)) &&
    (componentsOf .ascii body).all fun c =>
      c.All (fun _ => True) (fun l => (!isMethod l)=true) &&
        Broker.simple.nodeOrganizer (some c)=lit "mailto:o" &&
        (propsByName c (lit "ATTENDEE")).all fun p =>
          Broker.simple.normalizeCalAddr p.value=lit "a" && !Broker.simple.scheduledByClient p

variable {body oldBody newBody : Bytes}

theorem checked_tidy (h : checked body=true) : Tidy .ascii body := by
  simp only [checked,Bool.and_eq_true,decide_eq_true_eq,List.all_eq_true] at h
  obtain ⟨⟨⟨⟨hphys,hlines⟩,hunfold⟩,hmethod⟩,hcomps⟩ := h
  obtain ⟨ps,hphys⟩ : ∃ ps,physicalLines body=lit "BEGIN:VCALENDAR"::ps :=
    ⟨_,List.eq_cons_of_mem_head? hphys⟩
  obtain ⟨ls,hlines⟩ : ∃ ls,unfoldLines (physicalLines body)=lit "BEGIN:VCALENDAR"::ls :=
    ⟨_,List.eq_cons_of_mem_head? hlines⟩
  rw [hlines] at hunfold hmethod
  rw [hphys] at hlines hunfold
  refine ⟨⟨[],_,ps,ls,hphys,by simp,by simp [unfoldLines],rfl,by decide,⟨_,rfl⟩,hlines,hunfold,
    hmethod⟩,?_⟩
  intro t ht c hc
  have hmem : c∈componentsOf .ascii body := by
    rw [Broker.componentsOf_eq,ht]
    exact hc
  exact (hcomps c hmem).1.1

theorem checked_organizes (hold : checked oldBody=true) (hnew : checked newBody=true) :
    Broker.simple.Organizes (lit "o") oldBody newBody := by
  have horganizer : ∀ body∈[oldBody,newBody],∀ c∈componentsOf Strings.ascii body,
      Broker.simple.nodeOrganizer (some c)=lit "mailto:o" := by
    intro body hbody c hc
    have h : checked body=true := by
      rcases List.mem_cons.mp hbody with rfl | hbody
      · exact hold
      · exact (List.mem_singleton.mp hbody) ▸ hnew
    simp only [checked,Bool.and_eq_true,decide_eq_true_eq,List.all_eq_true] at h
    exact (h.2 c hc).1.2
  constructor
  all_goals
    intro body hbody c hc _
    rw [horganizer body hbody c hc]
    decide

theorem checked_attendee (h : checked body=true) {c : Icomp}
    (hc : c∈componentsOf Strings.ascii body) {p : Iline}
    (hp : p∈propsByName c (lit "ATTENDEE")) :
    Broker.simple.normalizeCalAddr p.value=lit "a" ∧
      Broker.simple.scheduledByClient p=false := by
  simp only [checked,Bool.and_eq_true,decide_eq_true_eq,List.all_eq_true,Bool.not_eq_true'] at h
  exact (h.2 c hc).2 p hp

theorem checked_scheduled (hold : checked oldBody=true) (hnew : checked newBody=true)
    (horg : lit "a" ≠ Broker.simple.normalizeCalAddr (Broker.simple.organizerOf oldBody newBody)) :
    Broker.simple.Scheduled oldBody newBody (lit "a") := by
  refine ⟨by decide,horg,?_⟩
  intro body hbody c hc p hp _
  rcases List.mem_cons.mp hbody with rfl | hbody
  · exact (checked_attendee hold hc hp).2
  · obtain rfl := List.mem_singleton.mp hbody
    exact (checked_attendee hnew hc hp).2

theorem checked_gives {M : Meaning} (h : checked body=true) {a : Bytes} {x : Occasion}
    (hx : Broker.simple.Gives M (componentsOf Strings.ascii body) a x) : a=lit "a" := by
  obtain ⟨c,hc,-,hlists,-⟩ := hx
  obtain ⟨p,hp,hkey⟩ := List.any_eq_true.mp hlists
  rw [decide_eq_true_eq] at hkey
  exact hkey.symm.trans (checked_attendee h hc hp).1

end Check

theorem gives_iff_events {B : Broker} {M : Meaning} {comps : List Icomp} {a : Bytes}
    {x : Occasion} (h : comps.all (B.lists a)=true) :
    B.Gives M comps a x ↔ ∃ e∈M.events B.T comps,M.Holds B.T comps e x := by
  rw [List.all_eq_true] at h
  simp only [Broker.Gives,Meaning.events,List.mem_map,List.mem_filter]
  constructor
  · rintro ⟨c,hc,hevent,-,hholds⟩
    exact ⟨_,⟨c,⟨hc,hevent⟩,rfl⟩,hholds⟩
  · rintro ⟨e,⟨c,⟨hc,hevent⟩,rfl⟩,hholds⟩
    exact ⟨c,hc,hevent,h c hc,hholds⟩

end HermEX.Dav
