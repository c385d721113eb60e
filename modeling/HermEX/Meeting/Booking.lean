import HermEX.Meeting.SeriesConflict
import HermEX.Oxcical.EditedEvents

namespace HermEX.Meeting

open Framework Mapi Oxcical

/-- How calendar texts are read and written. -/
structure ICalText where
  strings : Strings
  order : MapOrder
  reading : Reading

def ntSecond (t : Instant) : Int := (t-116444736000000000)/10000000

namespace ICalText

variable (X : ICalText)

def parse (raw : Bytes) : Option (List Event) := (parseICal X.strings raw).map X.reading.events

def package (I : ICal) : ICal :=
  {I.expanding X.parse with
    occurrenceInstant:=fun raw =>
      ((parseICal X.strings raw).bind (Edit.occurrenceInstantOf X.reading)).map ntOf
    mergeOverride:=Text.mergeOverride X.strings X.order X.reading
    cancelOccurrence:=fun stored instant =>
      Text.cancelOccurrence X.strings X.order X.reading stored (ntSecond instant)}

/-- The new text is read as the series with the update. -/
def Folds (stored update out : Bytes) : Prop :=
  X.parse out=(X.parse stored).bind fun s => (X.parse update).bind (Oxcical.mergeOverride s)

def Trims (stored : Bytes) (instant : Instant) (out : Bytes) : Prop :=
  X.parse out=(X.parse stored).bind fun s => Oxcical.cancelOccurrence s (ntSecond instant)

/-- Written as it was read, with times that need no zone of it. -/
structure Plain (cal : Icomp) : Prop where
  name : cal.name=lit "VCALENDAR"
  lines : cal.All (fun _ => True) (PlainLine X.strings X.order)
  zoneless : ∀ cal',∀ c∈cal.comps,X.reading.event cal' c=X.reading.event cal c

section Plain

variable {X} (hT : X.strings.Lawful) (hR : X.reading.Lawful) (I : ICal)

variable {stored update out : Bytes} {cal u e : Icomp}

include hT hR

theorem parse_written (hname : e.name=lit "VCALENDAR")
    (he : Fit X.strings X.order maxNestingDepth e) :
    X.parse (renderCalendar X.order e)=some (X.reading.events e) := by
  obtain ⟨d,hd,hsame⟩ := renderCalendar_same hT hname he
  rw [parse,hd,Option.map_some,hR.same d e hsame]

theorem folds_of_plain (hstored : parseICal X.strings stored=some cal)
    (hupdate : parseICal X.strings update=some u) (hcal : X.Plain cal) (hu : X.Plain u)
    (hout : (X.package I).mergeOverride stored update=some out) : X.Folds stored update out := by
  have hmerge : (Edit.mergeOverride X.strings X.reading cal u).map (renderCalendar X.order) =
      some out := by
    simpa only [package,Text.mergeOverride,hstored,hupdate,Option.bind_some] using hout
  obtain ⟨e,he,rfl⟩ := Option.map_eq_some_iff.mp hmerge
  have hfit := (fit_of_plain (parseICal_readable hT hstored) hcal.lines).merged
    (fit_of_plain (parseICal_readable hT hupdate) hu.lines) he
  obtain ⟨_,-,htargets⟩ := mergeOverride_targets he
  rw [Folds,parse_written hT hR (htargets.1.trans hcal.name) hfit,parse,hstored,parse,hupdate]
  exact (hR.mergeOverride he (hcal.zoneless e) (hu.zoneless e)).symm

theorem trims_of_plain {instant : Instant} (hstored : parseICal X.strings stored=some cal)
    (hcal : X.Plain cal)
    (hexdate : ∀ allDay,(X.reading.time cal (Edit.dtLine X.reading (lit "EXDATE")
      (ntSecond instant) allDay)).map Prod.fst=some (ntSecond instant))
    (hout : (X.package I).cancelOccurrence stored instant=some out) :
    X.Trims stored instant out := by
  have hcancel : (Edit.cancelOccurrence X.reading cal (ntSecond instant)).map
      (renderCalendar X.order)=some out := by
    simpa only [package,Text.cancelOccurrence,hstored,Option.bind_some] using hout
  obtain ⟨e,he,rfl⟩ := Option.map_eq_some_iff.mp hcancel
  have hfit := (fit_of_plain (parseICal_readable hT hstored) hcal.lines).excluded hT he
  rw [Trims,parse_written hT hR ((cancelOccurrence_targets he).1.trans hcal.name) hfit,parse,
    hstored]
  exact (hR.cancelOccurrence he hexdate).symm

end Plain

end ICalText

/-- What AutoProcess has decided and not filed yet. -/
structure Decision where
  message : Nat
  response : Int32
  seen : Table Item.id

structure Desk where
  box : Mailbox
  pending : List Decision

inductive Action where
  | deliver (l : Letter)
  | decide (message : Nat)
  | file (message : Nat) (now : UInt64)

namespace Desk

variable (I : ICal) (T : Strings)

def step (d : Desk) : Action → Desk
  | .deliver l =>
    match d.box.mail.insert l with
    | none => d
    | some mail => {d with box:={d.box with mail:=mail}}
  | .decide message =>
    match d.box.autoRequest message with
    | none => d
    | some req =>
      let decision := ⟨message,d.box.decideResponse I req,d.box.calendar⟩
      {d with pending:=d.pending++[decision]}
  | .file message now =>
    match d.pending.find? fun x => x.message=message with
    | none => d
    | some x =>
      let box := d.box.respondAutomatically I T message x.response
        (x.response≠responseTentative) now
      ⟨box,d.pending.eraseP fun x => x.message=message⟩

end Desk

section Occupies

variable (X : ICalText) (tags : Tags) (props : PropertyValues)

def Occupies (p q : Int) : Prop :=
  if boolVal props tags.recur=true then
    ∃ raw cal x,props.get prIcalOriginal=some (.bytes raw) ∧ X.parse raw=some cal ∧
      Occurrence cal x ∧ p=nanos x.span.start ∧ q=nanos x.span.finish
  else
    ∃ a b,ntTime props tags.start=some a ∧ ntTime props tags.finish=some b ∧
      p=ntNanos a ∧ q=ntNanos b

def Accepted : Prop := longVal props tags.resp=responseAccepted

instance : Decidable (Accepted tags props) :=
  inferInstanceAs (Decidable (longVal props tags.resp=responseAccepted))

def Clear (props' : PropertyValues) : Prop :=
  ∀ p q a b,Occupies X tags props p q → Occupies X tags props' a b → min q b ≤ max p a

end Occupies

/-- No two accepted items of different meetings take the same time. -/
def SinglyBooked (X : ICalText) (m : Mailbox) : Prop :=
  ∀ i∈m.calendar,∀ j∈m.calendar,m.uidOf i.props≠m.uidOf j.props →
    Accepted m.tags i.props → Accepted m.tags j.props → Clear X m.tags i.props j.props

namespace Mailbox

section Free

variable (X : ICalText) (I : ICal) (m : Mailbox)

def free (uid : GoString) (a b : Instant) : Bool :=
  (m.calendar.rows.all fun item => !m.blocksWindow item.props uid a b) &&
    !m.seriesConflict I uid a b

def Tells (uid : GoString) (a b : Instant) : Prop :=
  ∀ item∈m.calendar,boolVal item.props m.tags.recur=true → m.uidOf item.props≠uid →
    ∀ raw cal master s,item.props.get prIcalOriginal=some (.bytes raw) →
      X.parse raw=some cal → Oxcical.master cal=some master → master.seriesShape=some s →
      ∀ t,Plain cal master s (ntNanos a) (ntNanos b) t → ntNanos a≤nanos t ∧
        s.Scanned master (ntNanos b) t

variable {X I m}

theorem free_clear {uid : GoString} {a b : Instant} (hfree : m.free (X.package I) uid a b=true)
    (htells : m.Tells X uid a b) {item : Item} (hitem : item∈m.calendar)
    (huid : m.uidOf item.props≠uid)
    (hbusy : busyStatusOccupies (longVal item.props m.tags.busy)=true) {p q : Int}
    (hocc : Occupies X m.tags item.props p q) : min q (ntNanos b) ≤ max p (ntNanos a) := by
  simp only [free,Bool.and_eq_true,List.all_eq_true,Bool.not_eq_true'] at hfree
  by_contra hmeet
  have hlong : p<q := by omega
  have hbefore : p<ntNanos b := by omega
  have hafter : ntNanos a<q := by omega
  cases hrecur : boolVal item.props m.tags.recur with
  | true =>
    rw [Occupies,if_pos hrecur] at hocc
    obtain ⟨raw,cal,x,hraw,hcal,⟨master,s,hm,hs,hx⟩,rfl,rfl⟩ := hocc
    have hover : x.span.overlaps (ntNanos a) (ntNanos b)=true := by
      simp [Span.overlaps,overlapsRange,hlong,hbefore,hafter]
    have hplain := htells item hitem hrecur huid raw cal master s hraw hcal hm hs
    obtain ⟨out,hout,-,hmem⟩ := instancesIn_shown hm hs (ntNanos a) (ntNanos b)
    have hx' : x∈out := (hmem x).mpr (hx.shown hover hplain)
    have hoccupies : seriesOccupies (X.package I) item.props a b=true :=
      (seriesOccupies_expanding I X.parse a b hraw hcal hout).mpr (List.ne_nil_of_mem hx')
    have hconflict : m.seriesConflict (X.package I) uid a b=true := by
      refine List.any_eq_true.mpr ⟨item,hitem,?_⟩
      simp [hrecur,huid,hbusy,hoccupies]
    rw [hfree.2] at hconflict
    cases hconflict
  | false =>
    rw [Occupies,if_neg (by simp [hrecur])] at hocc
    obtain ⟨c,e,hc,he,rfl,rfl⟩ := hocc
    unfold ntNanos at hbefore hafter
    have hstart : @LT.lt Int _ c b := by omega
    have hfinish : @LT.lt Int _ a e := by omega
    have hblocks := hfree.1 item hitem
    simp [blocksWindow,huid,hrecur,hbusy,hc,he,hstart,hfinish] at hblocks

end Free

def Early (u : UInt64) : Prop := u.toNat<2^63

instance (u : UInt64) : Decidable (Early u) := inferInstanceAs (Decidable (u.toNat<2^63))

variable {u v : UInt64}

theorem toInt_toInt64 (h : Early u) : u.toInt64.toInt=u.toNat := by
  have hbits : u.toInt64.toInt=u.toBitVec.toInt := rfl
  rw [hbits,BitVec.toInt_eq_toNat_cond]
  unfold Early at h
  simp only [UInt64.toNat_toBitVec]
  omega

theorem toInt64_lt (hu : Early u) (hv : Early v) : u.toInt64<v.toInt64 ↔ u.toNat<v.toNat := by
  rw [Int64.lt_iff_toInt_lt,toInt_toInt64 hu,toInt_toInt64 hv]
  omega

theorem toInt64_le (hu : Early u) (hv : Early v) : u.toInt64≤v.toInt64 ↔ u.toNat≤v.toNat := by
  rw [Int64.le_iff_toInt_le,toInt_toInt64 hu,toInt_toInt64 hv]
  omega

variable {I : ICal} {m : Mailbox}

theorem mem_listFolderObjectsInWindow {item : Item} {uid : GoString} (hu : Early u) (hv : Early v)
    (hitem : item∈m.calendar)
    (hearly : ∀ tag∈[m.tags.start,m.tags.finish],∀ w,sysTime item.props tag=some w → Early w)
    (hblocks : m.blocksWindow item.props uid u.toNat v.toNat=true) :
    item∈m.listFolderObjectsInWindow u v := by
  refine List.mem_filter.mpr ⟨hitem,?_⟩
  simp only [blocksWindow] at hblocks
  split_ifs at hblocks
  cases hs : sysTime item.props m.tags.start with
  | none => rfl
  | some s =>
    cases hf : sysTime item.props m.tags.finish with
    | none => simp [ntTime,hf] at hblocks
    | some f =>
      have hs' := hearly _ (by simp) s hs
      have hf' := hearly _ (by simp) f hf
      simp only [ntTime,hs,hf,Option.map_some,Bool.and_eq_true,decide_eq_true_eq] at hblocks
      have hstart : s.toNat<v.toNat := Int.ofNat_lt.mp hblocks.1
      have hfinish : u.toNat<f.toNat := Int.ofNat_lt.mp hblocks.2
      simp only [Bool.and_eq_true,decide_eq_true_eq]
      exact ⟨(toInt64_lt hs' hv).mpr hstart,(toInt64_le hu hf').mpr hfinish.le⟩

theorem free_of_no_conflict {req : Letter} (hs : sysTime req.props m.tags.start=some u)
    (hf : sysTime req.props m.tags.finish=some v) (hu : Early u) (hv : Early v)
    (hearly : ∀ item∈m.calendar,∀ tag∈[m.tags.start,m.tags.finish],
      ∀ w,sysTime item.props tag=some w → Early w) (h : m.hasConflict I req=false) :
    m.free I (m.uidOf req.props) u.toNat v.toNat=true := by
  simp only [hasConflict,hs,hf,Bool.or_eq_false_iff] at h
  simp only [free,Bool.and_eq_true,List.all_eq_true,Bool.not_eq_true']
  refine ⟨?_,h.2⟩
  intro item hitem
  by_contra hblocks
  rw [Bool.not_eq_false] at hblocks
  have hmem := mem_listFolderObjectsInWindow hu hv hitem (hearly item hitem) hblocks
  have hnone := List.any_eq_false.mp h.1 item hmem
  exact hnone hblocks

end Mailbox
end HermEX.Meeting
