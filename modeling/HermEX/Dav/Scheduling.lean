import HermEX.Oxcical.Edits

namespace HermEX.Dav

open Framework Oxcical

abbrev Attendees := Table (Prod.fst : Bytes×Iline → Bytes)

/-- The order in which attendees are iterated. -/
structure AttendeeOrder where
  arrange : List (Bytes×Iline) → List (Bytes×Iline)
  perm : ∀ rows,(arrange rows).Perm rows

/-- What the scheduler takes from its surroundings. -/
structure Broker where
  T : Strings
  params : MapOrder
  attendees : AttendeeOrder
  principalPath : Bytes → Bytes
  now : Bytes

structure ItipMsg where
  method : Bytes
  recipients : List Bytes
  body : Bytes
  summary : Bytes

def parseICalNode (T : Strings) (raw : Bytes) : Option Icomp :=
  Builder.build (fun _ => true) ((contentLines raw).map (token T))

def isEvent (T : Strings) (c : Icomp) : Bool := T.equalFold c.name (lit "VEVENT")

def componentsOf (T : Strings) (body : Bytes) : List Icomp :=
  if body=[] then [] else ((parseICalNode T body).map Comp.comps).getD []

def propsByName (n : Icomp) (name : Bytes) : List Iline := n.props.filter fun p => p.name=name

def param (p : Iline) (key : Bytes) : Bytes := (Params.values p.params key).headD []

namespace Broker

variable (B : Broker)

def firstVEvent (body : Bytes) : Option Icomp := (componentsOf B.T body).find? (isEvent B.T)

variable (oldEv ev : Option Icomp)

def nodeProp (name : Bytes) : Bytes :=
  match ev with
  | none => []
  | some n => ((propsByName n name).head?.map fun p => B.T.trimSpace p.value).getD []

def nodeOrganizer : Bytes := B.nodeProp ev (lit "ORGANIZER")

def stripMailto (uri : Bytes) : Bytes :=
  let uri := B.T.trimSpace uri
  if 7≤uri.length ∧ B.T.equalFold (uri.take 7) (lit "mailto:") then uri.drop 7 else uri

def normalizeCalAddr (v : Bytes) : Bytes := B.T.toLower (B.stripMailto v)

def addrMatchesOwner (user val : Bytes) : Bool :=
  let val := B.T.trimSpace val
  B.T.equalFold val (lit "mailto:" ++ user) || val=B.principalPath user

def scheduledByClient (p : Iline) : Bool :=
  B.T.equalFold (param p (lit "SCHEDULE-AGENT")) (lit "CLIENT")

def enter (orgKey : Bytes) (out : Attendees) (p : Iline) : Attendees :=
  if B.scheduledByClient p then out
  else
    let key := B.normalizeCalAddr p.value
    if key=[] ∨ key=orgKey then out else (out.insert (key,p)).getD out

def schedulableAttendees (organizer : Bytes) : Attendees :=
  match ev with
  | none => .empty
  | some n => (propsByName n (lit "ATTENDEE")).foldl (B.enter (B.normalizeCalAddr organizer)) .empty

def significantChangeProps : List Bytes :=
  [lit "DTSTART",lit "DTEND",lit "DURATION",lit "DUE",lit "RRULE",lit "RDATE",lit "EXDATE",
    lit "STATUS"]

def joinPropValues (name : Bytes) : Bytes :=
  match ev with
  | none => []
  | some n =>
    let vals := ((propsByName n name).map fun p => B.T.trimSpace p.value).insertionSort
      fun a b => a≤b
    [0x2C].intercalate vals

def significantlyChanged (newEv : Option Icomp) : Bool :=
  significantChangeProps.any fun name => B.joinPropValues oldEv name≠B.joinPropValues newEv name

def addresses (att : List (Bytes×Iline)) : List Bytes :=
  (B.attendees.arrange att).map fun x => B.T.trimSpace x.2.value

def requestRecipients (newEv : Option Icomp) (oldAtt newAtt : Attendees) : List Bytes :=
  let significant := oldEv.isNone || B.significantlyChanged oldEv newEv
  B.addresses (newAtt.rows.filter fun x => (oldAtt.get x.1).isNone || significant)

def removedAttendees (oldAtt newAtt : Attendees) : List Bytes :=
  B.addresses (oldAtt.rows.filter fun x => (newAtt.get x.1).isNone)

def attendeeAddresses (att : Attendees) : List Bytes := B.addresses att.rows

def sequenceOf : Int := (parseInt (B.nodeProp ev (lit "SEQUENCE"))).getD 0

def eventSummary (evs : List (Option Icomp)) : Bytes :=
  ((evs.map fun ev => B.nodeProp ev (lit "SUMMARY")).find? fun s => s≠[]).getD []

def freshHead (method : String) : List Bytes :=
  [lit "BEGIN:VCALENDAR",lit "VERSION:2.0",lit "PRODID:-//hermEX//CalDAV//EN",
    lit "METHOD:" ++ lit method,lit "BEGIN:VEVENT"]

def cancelBody (organizer : Bytes) (cancelTo : List Bytes) : Bytes :=
  let summary := B.nodeProp ev (lit "SUMMARY")
  terminated (freshHead "CANCEL" ++ [lit "UID:" ++ B.nodeProp ev (lit "UID"),
    lit "DTSTAMP:" ++ B.now,lit "SEQUENCE:" ++ itoa ((B.sequenceOf ev+1).bmod (2^64)),
    lit "ORGANIZER:" ++ organizer] ++
    (((ev.map fun n => propsByName n (lit "DTSTART")).getD []).take 1).map
      (renderIline B.params) ++
    (if summary=[] then [] else [lit "SUMMARY:" ++ summary]) ++
    cancelTo.map (lit "ATTENDEE:" ++ ·) ++
    [lit "STATUS:CANCELLED",lit "END:VEVENT",lit "END:VCALENDAR"])

def cancelMessages (organizer summary : Bytes)
    (cancelTo : List Bytes) : List ItipMsg :=
  if cancelTo=[] then []
  else [⟨lit "CANCEL",cancelTo,B.cancelBody oldEv organizer cancelTo,summary⟩]

def isMethodLine (T : Strings) (line : Bytes) : Bool :=
  (lit "METHOD:").isPrefixOf (T.toUpper (T.trimSpace line))

def insertMethod (T : Strings) (method : Bytes) : List Bytes → List Bytes
  | [] => []
  | line::lines =>
    if T.equalFold (T.trimSpace line) (lit "BEGIN:VCALENDAR") then
      line::(lit "METHOD:" ++ method)::lines
    else line::insertMethod T method lines

def withMethod (body method : Bytes) : Bytes :=
  joinCRLF (insertMethod B.T method
    ((physicalLines body).filter fun line => !isMethodLine B.T line))

def organizerMessages (newEv : Option Icomp) (newBody organizer : Bytes) : List ItipMsg :=
  let newAtt := B.schedulableAttendees newEv organizer
  let oldAtt := B.schedulableAttendees oldEv organizer
  if newAtt.rows=[] ∧ oldAtt.rows=[] then []
  else
    let summary := B.eventSummary [newEv,oldEv]
    match newEv with
    | none => B.cancelMessages oldEv organizer summary (B.attendeeAddresses oldAtt)
    | some _ =>
      let requestTo := B.requestRecipients oldEv newEv oldAtt newAtt
      (if requestTo=[] then []
        else [⟨lit "REQUEST",requestTo,B.withMethod newBody (lit "REQUEST"),summary⟩]) ++
        B.cancelMessages oldEv organizer summary (B.removedAttendees oldAtt newAtt)

def ownerAttendeeProp (ownerKey : Bytes) : Option Iline :=
  ev.bind fun n => (propsByName n (lit "ATTENDEE")).find? fun p =>
    B.normalizeCalAddr p.value=ownerKey

def attendeePartstat (p : Iline) : Bytes :=
  let v := B.T.toUpper (param p (lit "PARTSTAT"))
  if v=[] then lit "NEEDS-ACTION" else v

def replyMessage (newEv oldEv : Option Icomp) (organizer owner partstat : Bytes) : ItipMsg :=
  let uid := B.nodeProp newEv (lit "UID")
  let uid := if uid=[] then B.nodeProp oldEv (lit "UID") else uid
  let seq := B.sequenceOf (if newEv.isNone then oldEv else newEv)
  let summary := B.eventSummary [newEv,oldEv]
  ⟨lit "REPLY",[organizer],terminated (freshHead "REPLY" ++ [lit "UID:" ++ uid,
    lit "DTSTAMP:" ++ B.now,lit "SEQUENCE:" ++ itoa seq,lit "ORGANIZER:" ++ organizer,
    lit "ATTENDEE;PARTSTAT=" ++ (partstat++(lit ":mailto:" ++ B.stripMailto owner))] ++
    (if summary=[] then [] else [lit "SUMMARY:" ++ summary]) ++
    [lit "END:VEVENT",lit "END:VCALENDAR"]),summary⟩

def attendeeMessages (owner organizer : Bytes) (oldEv newEv : Option Icomp) : List ItipMsg :=
  let ownerKey := B.normalizeCalAddr owner
  if newEv.isSome then
    match B.ownerAttendeeProp newEv ownerKey with
    | none => []
    | some att =>
      if B.scheduledByClient att then []
      else
        let newPart := B.attendeePartstat att
        let oldPart := ((B.ownerAttendeeProp oldEv ownerKey).map B.attendeePartstat).getD []
        if newPart=oldPart then [] else [B.replyMessage newEv oldEv organizer owner newPart]
  else if (B.ownerAttendeeProp oldEv ownerKey).isNone then []
  else [B.replyMessage none oldEv organizer owner (lit "DECLINED")]

def organizerOf (oldBody newBody : Bytes) : Bytes :=
  let organizer := B.nodeOrganizer (B.firstVEvent newBody)
  if organizer=[] then B.nodeOrganizer (B.firstVEvent oldBody) else organizer

def schedulingMessages (owner oldBody newBody : Bytes) : List ItipMsg :=
  let oldEv := B.firstVEvent oldBody
  let newEv := B.firstVEvent newBody
  if oldEv.isNone ∧ newEv.isNone then []
  else
    let organizer := B.organizerOf oldBody newBody
    if organizer=[] then []
    else if B.addrMatchesOwner owner organizer then
      B.organizerMessages oldEv newEv newBody organizer
    else B.attendeeMessages owner organizer oldEv newEv

end Broker
end HermEX.Dav
