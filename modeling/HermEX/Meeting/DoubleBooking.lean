import HermEX.Meeting.Booking
import HermEX.Meeting.Organizer

namespace HermEX.Meeting

open Framework Mapi Oxcical

variable {tag : PropTag}

namespace Tags

variable (t : Tags)

def reads : List PropTag := [t.uid,t.start,t.finish,t.recur,prIcalOriginal]

def stamps : List PropTag := [prMessageClass,t.resp,t.reply,t.state,t.busy]

def Apart : Prop := (t.reads++(t.stamps++(inboundCruft++[t.appointmentRecur]))).Nodup

variable {t} (h : t.Apart)

include h

theorem Apart.reads_ne {other : PropTag} (hr : tag∈t.reads)
    (ho : other∈t.stamps ∨ other∈inboundCruft ∨ other=t.appointmentRecur) :
    tag≠other := by
  have hd := (List.nodup_append.mp h).2.2
  apply hd tag hr other
  simp only [List.mem_append,List.mem_singleton]
  exact ho

theorem Apart.stamps_ne (hs : tag∈t.stamps) : tag≠t.appointmentRecur := by
  have hd := (List.nodup_append.mp (List.nodup_append.mp h).2.1).2.2
  apply hd tag hs
  simp

theorem Apart.resp_ne : t.resp≠t.reply ∧ t.resp≠t.state ∧ t.resp≠t.busy := by
  have hn := (List.nodup_append.mp (List.nodup_append.mp h).2.1).1
  simp only [stamps,List.nodup_cons,List.mem_cons,not_or] at hn
  exact ⟨hn.2.1.1,hn.2.1.2.1,hn.2.1.2.2.1⟩

end Tags

attribute [local simp] Tags.reads Tags.stamps

theorem get_stripInboundCruft (props : PropertyValues) (tag : PropTag) (h : tag∉inboundCruft) :
    (stripInboundCruft props).get tag=props.get tag := by
  induction props with
  | nil => rfl
  | cons x xs ih =>
    obtain ⟨a,b⟩ := x
    simp only [stripInboundCruft,PropertyValues.get] at ih ⊢
    by_cases ha : a∈inboundCruft
    · have hne : tag≠a := fun he => h (he ▸ ha)
      rw [List.filter_cons_of_neg (by simpa using ha),ih,PropertyValues.lookup_cons,if_neg hne]
    · rw [List.filter_cons_of_pos (by simpa using ha),PropertyValues.lookup_cons,
        PropertyValues.lookup_cons,ih]

def filedProps (tags : Tags) (req : Letter) (response : Int32) (now : UInt64) : PropertyValues :=
  (((((stripInboundCruft req.props).set prMessageClass (.string (lit "IPM.Appointment"))).set
    tags.resp (.int32 response)).set tags.reply (.uint64 now)).set tags.state
    (.int32 (asfMeeting ||| asfReceived))).set tags.busy (.int32 (meetingBusy response))

theorem Mailbox.file_eq (I : ICal) (m : Mailbox) (req : Letter) (response : Int32) (now : UInt64) :
    m.file I req response now =
      match m.findCalendarByUID I (m.uidOf req.props) with
      | none => m.createItem (filedProps m.tags req response now)
      | some existing => (m.foldOccurrence I existing.id req).getD
          (m.modifyItem existing.id (filedProps m.tags req response now)) := rfl

/-- An appointment that a response filed over `old`. -/
structure Filed (tags : Tags) (req : Letter) (response : Int32) (old props : PropertyValues) :
    Prop where
  reads : ∀ tag∈tags.reads,props.get tag=(req.props.get tag).or (old.get tag)
  resp : props.get tags.resp=some (.int32 response)
  busy : props.get tags.busy=some (.int32 (meetingBusy response))

attribute [local simp] PropertyValues.get_set

section Filed

variable {tags : Tags} {req : Letter} {response : Int32} {now : UInt64}

theorem filedProps_reads (h : tags.Apart) (ht : tag∈tags.reads) :
    (filedProps tags req response now).get tag=req.props.get tag := by
  have hne : ∀ other∈tags.stamps,tag≠other := fun other ho => h.reads_ne ht (.inl ho)
  have hcruft : tag∉inboundCruft := fun hc => h.reads_ne ht (.inr (.inl hc)) rfl
  simp only [filedProps,PropertyValues.get_set]
  rw [if_neg (hne _ (by simp)),if_neg (hne _ (by simp)),
    if_neg (hne _ (by simp)),if_neg (hne _ (by simp)),
    if_neg (hne _ (by simp)),get_stripInboundCruft _ _ hcruft]

theorem filedProps_resp (h : tags.Apart) :
    (filedProps tags req response now).get tags.resp=some (.int32 response) := by
  obtain ⟨hreply,hstate,hbusy⟩ := h.resp_ne
  simp [filedProps,hreply,hstate,hbusy]

theorem filedProps_busy :
    (filedProps tags req response now).get tags.busy = some (.int32 (meetingBusy response)) := by
  simp [filedProps]

theorem filedProps_distinct (h : PropertyValues.Distinct req.props) :
    PropertyValues.Distinct (filedProps tags req response now) := by
  have hstrip : PropertyValues.Distinct (stripInboundCruft req.props) :=
    (List.filter_sublist.map Prod.fst).nodup h
  exact ((((hstrip.set _ _).set _ _).set _ _).set _ _).set _ _

theorem filed_new (req : Letter) (response : Int32) (now : UInt64) (h : tags.Apart) :
    Filed tags req response [] (filedProps tags req response now) := by
  refine ⟨fun tag ht => ?_,filedProps_resp h,filedProps_busy⟩
  rw [filedProps_reads h ht]
  simp [PropertyValues.get]

theorem filed_over (response : Int32) (now : UInt64) (h : tags.Apart)
    (hd : PropertyValues.Distinct req.props) (old : PropertyValues) :
    Filed tags req response old (old.setAll (filedProps tags req response now)) := by
  have hget : ∀ tag,(old.setAll (filedProps tags req response now)).get tag =
      ((filedProps tags req response now).get tag).or (old.get tag) := by
    intro tag
    rw [PropertyValues.get_setAll,(filedProps_distinct hd).reverse_lookup]
  refine ⟨fun tag ht => ?_,?_,?_⟩
  · rw [hget,filedProps_reads h ht]
  · rw [hget,filedProps_resp h]
    rfl
  · rw [hget,filedProps_busy]
    rfl

end Filed

structure Sound (X : ICalText) (tags : Tags) (props : PropertyValues) : Prop where
  busy : Accepted tags props → busyStatusOccupies (longVal props tags.busy)=true
  early : ∀ tag∈[tags.start,tags.finish],∀ u,sysTime props tag=some u → Mailbox.Early u
  single : ∀ raw cal,props.get prIcalOriginal=some (.bytes raw) → X.parse raw=some cal →
    OneMaster cal

structure Orderly (X : ICalText) (m : Mailbox) : Prop where
  sound : ∀ i∈m.calendar,Sound X m.tags i.props
  booked : SinglyBooked X m

/-- It takes no time that `old` does not take. -/
structure Below (X : ICalText) (tags : Tags) (old props : PropertyValues) : Prop where
  uid : propStr props tags.uid=propStr old tags.uid
  accepted : Accepted tags props → Accepted tags old
  occupies : ∀ p q,Occupies X tags props p q → Occupies X tags old p q

section Writes

variable {X : ICalText} {tags : Tags} {x y x' y' : PropertyValues}

theorem Below.refl (props : PropertyValues) : Below X tags props props := ⟨rfl,id,fun _ _ h => h⟩

theorem Clear.symm (h : Clear X tags x y) : Clear X tags y x := by
  intro p q a b hy hx
  have hxy := h a b p q hx hy
  rwa [min_comm,max_comm] at hxy

theorem Clear.below (h : Clear X tags x y) (hx : Below X tags x x') (hy : Below X tags y y') :
    Clear X tags x' y' :=
  fun p q a b hp ha => h p q a b (hx.occupies p q hp) (hy.occupies a b ha)

theorem Orderly.write {m m' : Mailbox} (h : Orderly X m) (htags : m'.tags=m.tags)
    (New : Item → Prop) (hsame : ∀ i j,New i → New j → m.uidOf i.props=m.uidOf j.props)
    (hitems : ∀ i∈m'.calendar,i∈m.calendar ∨ New i)
    (hsound : ∀ i,New i → Sound X m.tags i.props)
    (hnew : ∀ i,New i → ∀ j∈m.calendar,m.uidOf i.props≠m.uidOf j.props →
      Accepted m.tags i.props → Accepted m.tags j.props → Clear X m.tags i.props j.props) :
    Orderly X m' := by
  constructor
  · intro i hi
    rw [htags]
    exact (hitems i hi).elim (h.sound i) (hsound i)
  · intro i hi j hj huid hia hja
    simp only [Mailbox.uidOf,htags] at huid hia hja ⊢
    rcases hitems i hi with hi | hi <;> rcases hitems j hj with hj | hj
    · exact h.booked i hi j hj huid hia hja
    · exact (hnew j hj i hi huid.symm hja hia).symm
    · exact hnew i hi j hj huid hia hja
    · exact absurd (hsame i j hi hj) huid

theorem Orderly.shrink {m m' : Mailbox} (h : Orderly X m) (htags : m'.tags=m.tags)
    (hitems : ∀ i∈m'.calendar,∃ j∈m.calendar,Below X m.tags j.props i.props)
    (hsound : ∀ i∈m'.calendar,Sound X m.tags i.props) : Orderly X m' := by
  constructor
  · rw [htags]
    exact hsound
  · intro i hi j hj huid hia hja
    simp only [Mailbox.uidOf,htags] at huid hia hja ⊢
    obtain ⟨i₀,hi₀,hbi⟩ := hitems i hi
    obtain ⟨j₀,hj₀,hbj⟩ := hitems j hj
    rw [hbi.uid,hbj.uid] at huid
    exact (h.booked i₀ hi₀ j₀ hj₀ huid (hbi.accepted hia) (hbj.accepted hja)).below hbi hbj

end Writes

/-- As the importer writes it: a series is its text, an occurrence has the event's span. -/
structure Imported (X : ICalText) (tags : Tags) (props : PropertyValues) : Prop where
  distinct : PropertyValues.Distinct props
  early : ∀ tag∈[tags.start,tags.finish],∀ u,sysTime props tag=some u → Mailbox.Early u
  series : boolVal props tags.recur=true → ∃ raw,props.get prIcalOriginal=some (.bytes raw)
  single : ∀ raw cal,props.get prIcalOriginal=some (.bytes raw) → X.parse raw=some cal →
    OneMaster cal
  override : ∀ raw cal t c,props.get prIcalOriginal=some (.bytes raw) →
    X.parse raw=some cal → occurrenceInstantOf cal=some t → c∈cal →
    c.dtstart.map ntOf=ntTime props tags.start ∧
      (c.dtstart.map c.eventEnd).map ntOf=ntTime props tags.finish

def Mailbox.folds (I : ICal) (m : Mailbox) (existing : Nat) (req : Letter) : Bool :=
  m.isOccurrenceRequest I req &&
    ((icalOf (m.itemProps existing)).isSome && (icalOf req.props).isSome || m.isSeries existing)

/-- When an acceptance decided on `seen` may be filed. -/
structure Judged (X : ICalText) (I : ICal) (m : Mailbox) (seen : Table Item.id) (req : Letter) :
    Prop where
  current : m.calendar=seen
  timed : ∃ u v,sysTime req.props m.tags.start=some u ∧
    sysTime req.props m.tags.finish=some v ∧ m.Tells X (m.uidOf req.props) u.toNat v.toNat ∧
    -- an occurrence outside the window that was tested is free as well
    (boolVal req.props m.tags.recur=true → ∀ raw cal x,
      req.props.get prIcalOriginal=some (.bytes raw) → X.parse raw=some cal →
      Occurrence cal x →
      (ntNanos u.toNat≤nanos x.span.start ∧ nanos x.span.finish≤ntNanos v.toNat) ∨
        (m.free (X.package I) (m.uidOf req.props) (ntOf x.span.start) (ntOf x.span.finish)=true ∧
          m.Tells X (m.uidOf req.props) (ntOf x.span.start) (ntOf x.span.finish)))
  kept : boolVal req.props m.tags.recur=false → ∀ existing,
    m.findCalendarByUID (X.package I) (m.uidOf req.props)=some existing →
    boolVal existing.props m.tags.recur=true → m.folds (X.package I) existing.id req=true
  folded : ∀ existing stored update out,
    m.findCalendarByUID (X.package I) (m.uidOf req.props)=some existing →
    icalOf existing.props=some stored → icalOf req.props=some update →
    (X.package I).mergeOverride stored update=some out → X.Folds stored update out

/-- When a refusal may be filed: the rest is read as such. -/
def Trimmed (X : ICalText) (I : ICal) (m : Mailbox) (req : Letter) : Prop :=
  ∀ existing stored out,m.findCalendarByUID (X.package I) (m.uidOf req.props)=some existing →
    icalOf existing.props=some stored →
    (X.package I).cancelOccurrence stored (Mailbox.occurrenceInstant (X.package I) req)=some out →
    X.Trims stored (Mailbox.occurrenceInstant (X.package I) req) out

variable {old props : PropertyValues}

section Accept

variable {X : ICalText} {I : ICal} {m : Mailbox} {req : Letter}

variable {j e : Item} {u : UInt64} {tag : PropTag} {uid : GoString}

theorem ntNanos_ntOf (t : Int) : ntNanos (ntOf t)=nanos t := by
  unfold ntNanos ntOf nanos
  omega

section Judged

variable {seen : Table Item.id} (h : Judged X I m seen req) (hm : Orderly X m)
  (hreq : Imported X m.tags req.props) (hno : m.hasConflict (X.package I) req=false)
  (hj : j∈m.calendar) (huid : m.uidOf j.props≠m.uidOf req.props) (hacc : Accepted m.tags j.props)

include h hm hreq hno hj huid hacc

theorem Judged.window {v : UInt64} (hu : sysTime req.props m.tags.start=some u)
    (hv : sysTime req.props m.tags.finish=some v) {p q : Int}
    (hocc : Occupies X m.tags j.props p q) : min q (ntNanos v.toNat) ≤ max p (ntNanos u.toNat) := by
  obtain ⟨u',v',hu',hv',htells,-⟩ := h.timed
  obtain rfl : u'=u := Option.some.inj (hu'.symm.trans hu)
  obtain rfl : v'=v := Option.some.inj (hv'.symm.trans hv)
  have hfree := Mailbox.free_of_no_conflict hu hv (hreq.early _ (by simp) u' hu)
    (hreq.early _ (by simp) v' hv) (fun i hi => (hm.sound i hi).early) hno
  exact Mailbox.free_clear hfree htells hj huid ((hm.sound j hj).busy hacc) hocc

theorem Judged.clear : Clear X m.tags req.props j.props := by
  obtain ⟨u,v,hu,hv,-,hothers⟩ := h.timed
  intro p q a b hreqocc hocc
  have hwindow := h.window hm hreq hno hj huid hacc hu hv hocc
  cases hrecur : boolVal req.props m.tags.recur with
  | true =>
    rw [Occupies,if_pos hrecur] at hreqocc
    obtain ⟨raw,cal,x,hraw,hcal,hx,rfl,rfl⟩ := hreqocc
    rcases hothers hrecur raw cal x hraw hcal hx with ⟨hlow,hhigh⟩ | ⟨hfree,htells⟩
    · omega
    · have hown := Mailbox.free_clear hfree htells hj huid ((hm.sound j hj).busy hacc) hocc
      rw [ntNanos_ntOf,ntNanos_ntOf] at hown
      omega
  | false =>
    rw [Occupies,if_neg (by simp [hrecur])] at hreqocc
    obtain ⟨c,e,hc,he,rfl,rfl⟩ := hreqocc
    simp only [ntTime,hu,Option.map_some,Option.some.injEq] at hc
    simp only [ntTime,hv,Option.map_some,Option.some.injEq] at he
    subst hc he
    omega

end Judged

theorem sysTime_eq_some :
    sysTime props tag=some u ↔ props.get tag=some (.uint64 u) := by
  unfold sysTime
  split <;> simp_all

theorem Filed.occupies {tags : Tags} {response : Int32} (h : Filed tags req response old props)
    (hreq : Imported X tags req.props) {v : UInt64} (hu : sysTime req.props tags.start=some u)
    (hv : sysTime req.props tags.finish=some v)
    (hold : boolVal req.props tags.recur=false → boolVal old tags.recur=false) {p q : Int}
    (hocc : Occupies X tags props p q) : Occupies X tags req.props p q := by
  have hrecur : boolVal props tags.recur=boolVal req.props tags.recur := by
    have hget := h.reads tags.recur (by simp)
    cases hr : req.props.get tags.recur with
    | some w => simp [boolVal,hget,hr]
    | none =>
      have hfalse : boolVal req.props tags.recur=false := by simp [boolVal,hr]
      have hold' := hold hfalse
      simp only [boolVal] at hold'
      simp [boolVal,hget,hold']
  simp only [Occupies,hrecur] at hocc ⊢
  split_ifs at hocc ⊢ with hr
  · obtain ⟨raw,cal,x,hraw,hrest⟩ := hocc
    obtain ⟨raw',hraw'⟩ := hreq.series hr
    rw [h.reads _ (by simp),hraw'] at hraw
    obtain rfl : raw'=raw := by simpa using hraw
    exact ⟨raw',cal,x,hraw',hrest⟩
  · obtain ⟨a,b,ha,hb,hrest⟩ := hocc
    have hs : sysTime props tags.start=sysTime req.props tags.start := by
      rw [hu]
      exact sysTime_eq_some.mpr (by
        rw [h.reads _ (by simp),sysTime_eq_some.mp hu]; rfl)
    have hf : sysTime props tags.finish=sysTime req.props tags.finish := by
      rw [hv]
      exact sysTime_eq_some.mpr (by
        rw [h.reads _ (by simp),sysTime_eq_some.mp hv]; rfl)
    simp only [ntTime,hs,hf] at ha hb
    exact ⟨a,b,ha,hb,hrest⟩

theorem Filed.sound {tags : Tags} (h : Filed tags req responseAccepted old props)
    (hreq : Imported X tags req.props) (hold : Sound X tags old) : Sound X tags props := by
  constructor
  · intro _
    have hbusy : longVal props tags.busy=meetingBusy responseAccepted := by simp [longVal,h.busy]
    rw [hbusy]
    decide
  · intro tag ht w hw
    rw [sysTime_eq_some,h.reads tag (by simp at ht ⊢; tauto)] at hw
    cases hr : req.props.get tag with
    | some value =>
      rw [hr] at hw
      exact hreq.early tag ht w (sysTime_eq_some.mpr (hr.trans hw))
    | none =>
      rw [hr] at hw
      exact hold.early tag ht w (sysTime_eq_some.mpr hw)
  · intro raw cal hraw hcal
    rw [h.reads _ (by simp)] at hraw
    cases hr : req.props.get prIcalOriginal with
    | some value =>
      rw [hr] at hraw
      exact hreq.single raw cal (hr.trans hraw) hcal
    | none =>
      rw [hr] at hraw
      exact hold.single raw cal hraw hcal

theorem sound_nil : Sound X m.tags [] := by
  constructor
  · intro h
    cases h
  · intro tag _ u hu
    exact absurd (sysTime_eq_some.mp hu) (by simp [PropertyValues.get])
  · intro raw cal h
    cases h

theorem mem_createItem {i : Item} (h : i∈(m.createItem props).calendar) :
    i∈m.calendar ∨ i.props=props := by
  unfold Mailbox.createItem at h
  cases hi : m.calendar.insert ⟨m.nextID,props,[]⟩ with
  | none =>
    rw [hi] at h
    exact .inl h
  | some calendar =>
    rw [hi] at h
    rcases ((Table.insert_eq_some hi).2 i).mp h with h | rfl
    · exact .inl h
    · exact .inr rfl

theorem createItem_tags (props : PropertyValues) : (m.createItem props).tags=m.tags := by
  unfold Mailbox.createItem
  split <;> rfl

theorem mem_modifyItem {id : Nat} {i : Item} (h : i∈(m.modifyItem id props).calendar) :
    i∈m.calendar ∨ ∃ j∈m.calendar,j.id=id ∧ i.props=j.props.setAll props := by
  simp only [Mailbox.modifyItem,Mailbox.updateItem,Table.mem_updateWhere] at h
  obtain ⟨j,hj,rfl⟩ := h
  by_cases hid : j.id=id
  · exact .inr ⟨j,hj,hid,by simp [hid]⟩
  · exact .inl (by simpa [hid] using hj)

theorem findObjectByProperty_get {value : Value} (h : m.findObjectByProperty tag value=some e) :
    e.props.get tag=some value := by
  have hf := (List.mem_insertionSort _).mp (List.mem_of_head? h)
  simpa using (List.mem_filter.mp hf).2

theorem findObjectByProperty_isSome {value : Value} (hj : j∈m.calendar)
    (h : j.props.get tag=some value) : (m.findObjectByProperty tag value).isSome=true := by
  unfold Mailbox.findObjectByProperty
  generalize hl : (m.calendar.rows.filter fun item => item.props.get tag=some value).insertionSort
    (fun a b => a.id≤b.id)=l
  have hmem : j∈l := by
    rw [← hl,List.mem_insertionSort,List.mem_filter]
    exact ⟨hj,by simpa using h⟩
  cases l with
  | nil => cases hmem
  | cons a as => rfl

theorem uidOf_eq (hne : uid≠[]) :
    m.uidOf props=uid ↔ props.get m.tags.uid=some (.string uid) := by
  simp only [Mailbox.uidOf,propStr]
  split
  · simp_all
  · constructor
    · intro h
      exact absurd h.symm hne
    · simp_all

theorem findCalendarByUID_other (h : m.findCalendarByUID I uid=some e) (hj : j∈m.calendar)
    (hne : m.uidOf j.props≠m.uidOf e.props) : m.uidOf j.props≠uid := by
  intro he
  unfold Mailbox.findCalendarByUID at h
  split_ifs at h with hnil
  have hjget := (uidOf_eq hnil).mp he
  have hsome := findObjectByProperty_isSome hj hjget
  cases hfound : m.findObjectByProperty m.tags.uid (.string uid) with
  | none => rw [hfound] at hsome; cases hsome
  | some e' =>
    rw [hfound] at h
    cases h
    have heget := (uidOf_eq hnil).mpr (findObjectByProperty_get hfound)
    exact hne (he.trans heget.symm)

theorem findCalendarByUID_ne_nil (h : m.findCalendarByUID I uid=some e) : uid≠[] := by
  rintro rfl
  simp [Mailbox.findCalendarByUID] at h

end Accept

structure Replaced (tags : Tags) (ical : Bytes) (old props : PropertyValues) : Prop where
  body : props.get prIcalOriginal=some (.bytes ical)
  rest : ∀ tag∈tags.reads++tags.stamps,tag≠prIcalOriginal → props.get tag=old.get tag

section Replace

variable {X : ICalText} {I : ICal} {m : Mailbox}

theorem withRecurrence_replaced (h : m.tags.Apart) (old : PropertyValues) (ical : Bytes) :
    Replaced m.tags ical old
      (old.setAll (m.withRecurrence I [(prIcalOriginal,.bytes ical)] ical)) := by
  have hblob : prIcalOriginal≠m.tags.appointmentRecur :=
    h.reads_ne (by simp) (.inr (.inr rfl))
  have hget : ∀ tag,tag≠m.tags.appointmentRecur →
      (old.setAll (m.withRecurrence I [(prIcalOriginal,.bytes ical)] ical)).get tag =
        if tag=prIcalOriginal then some (.bytes ical) else old.get tag := by
    intro tag ht
    unfold Mailbox.withRecurrence
    split
    · simp [PropertyValues.setAll]
    · simp [PropertyValues.set,if_neg hblob,PropertyValues.setAll,if_neg ht]
  constructor
  · rw [hget _ hblob,if_pos rfl]
  · intro tag ht hne
    have hother : tag≠m.tags.appointmentRecur := by
      rcases List.mem_append.mp ht with hr | hs
      · exact h.reads_ne hr (.inr (.inr rfl))
      · exact h.stamps_ne hs
    rw [hget _ hother,if_neg hne]

variable {tags : Tags} {old props : PropertyValues} {raw out : Bytes}

theorem Replaced.congr (h : tags.Apart) {ical : Bytes} (hr : Replaced tags ical old props) :
    propStr props tags.uid=propStr old tags.uid ∧
      (Accepted tags props ↔ Accepted tags old) ∧
      longVal props tags.busy=longVal old tags.busy ∧
      (∀ tag∈[tags.start,tags.finish],sysTime props tag=sysTime old tag) ∧
      boolVal props tags.recur=boolVal old tags.recur := by
  have hn := (List.nodup_append.mp h).1
  simp only [Tags.reads,List.nodup_cons,List.mem_cons,not_or] at hn
  obtain ⟨⟨-,-,-,huid,-⟩,⟨-,-,hstart,-⟩,⟨-,hfinish,-⟩,⟨hrecur,-⟩,-⟩ := hn
  have hstamp : ∀ tag∈tags.stamps,tag≠prIcalOriginal := by
    intro tag ht
    exact (h.reads_ne (by simp) (.inl ht)).symm
  have hres : props.get tags.resp=old.get tags.resp :=
    hr.rest _ (by simp) (hstamp _ (by simp))
  have hbusy : props.get tags.busy=old.get tags.busy :=
    hr.rest _ (by simp) (hstamp _ (by simp))
  refine ⟨?_,?_,?_,?_,?_⟩
  · simp [propStr,hr.rest tags.uid (by simp) huid]
  · simp [Accepted,longVal,hres]
  · simp [longVal,hbusy]
  · intro tag ht
    simp only [List.mem_cons,List.not_mem_nil,or_false] at ht
    rcases ht with rfl | rfl
    · simp only [sysTime,hr.rest tags.start (by simp) hstart]
    · simp only [sysTime,hr.rest tags.finish (by simp) hfinish]
  · simp [boolVal,hr.rest tags.recur (by simp) hrecur]

theorem Replaced.occupies (h : tags.Apart) (hr : Replaced tags out old props)
    (hraw : old.get prIcalOriginal=some (.bytes raw)) (Adds : Instance → Prop)
    (hread : ∀ new,X.parse out=some new → ∃ cal,X.parse raw=some cal ∧
      ∀ x,Occurrence new x → Occurrence cal x ∨ Adds x) {p q : Int}
    (hocc : Occupies X tags props p q) :
    Occupies X tags old p q ∨ ∃ x,Adds x ∧ p=nanos x.span.start ∧ q=nanos x.span.finish := by
  obtain ⟨-,-,-,htimes,hrecur⟩ := hr.congr h
  simp only [Occupies,hrecur] at hocc ⊢
  split_ifs at hocc ⊢ with hb
  · obtain ⟨raw',new,x,hraw',hnew,hx,hp,hq⟩ := hocc
    rw [hr.body] at hraw'
    obtain rfl : out=raw' := by simpa using hraw'
    obtain ⟨cal,hcal,hadds⟩ := hread new hnew
    rcases hadds x hx with hold | hadds
    · exact .inl ⟨raw,cal,x,hraw,hcal,hold,hp,hq⟩
    · exact .inr ⟨x,hadds,hp,hq⟩
  · simp only [ntTime,htimes tags.start (by simp),htimes tags.finish (by simp)] at hocc
    exact .inl hocc

theorem Replaced.sound (h : tags.Apart) (hr : Replaced tags out old props) (hold : Sound X tags old)
    (hone : ∀ new,X.parse out=some new → OneMaster new) : Sound X tags props := by
  obtain ⟨-,hacc,hbusy,htimes,-⟩ := hr.congr h
  constructor
  · intro ha
    rw [hbusy]
    exact hold.busy (hacc.mp ha)
  · intro tag ht u hu
    rw [htimes tag ht] at hu
    exact hold.early tag ht u hu
  · intro raw' cal' hraw' hcal'
    rw [hr.body] at hraw'
    obtain rfl : out=raw' := by simpa using hraw'
    exact hone cal' hcal'

end Replace

section File

variable {X : ICalText} {I : ICal} {m : Mailbox} {req : Letter}

variable {e : Item} {id : Nat} {m' : Mailbox} {seen : Table Item.id}

theorem icalOf_eq_some {raw : Bytes} (h : icalOf props=some raw) :
    props.get prIcalOriginal=some (.bytes raw) := by
  unfold icalOf at h
  split at h
  · rename_i raw' hraw
    split_ifs at h
    rw [hraw,Option.some.inj h]
  · cases h

theorem itemProps_of_mem (h : e∈m.calendar) : m.itemProps e.id=e.props := by
  simp [Mailbox.itemProps,Table.get_key h]

theorem folds_of_none (h : m.foldOccurrence I id req=none) : m.folds I id req=false := by
  unfold Mailbox.foldOccurrence at h
  split at h
  · rename_i hno
    simp only [Bool.not_eq_true'] at hno
    simp [Mailbox.folds,hno]
  · cases hs : icalOf (m.itemProps id) with
    | none =>
      simp only [hs] at h
      split_ifs at h with hseries
      simp [Mailbox.folds,hs,hseries]
    | some stored =>
      cases hu : icalOf req.props with
      | none =>
        simp only [hs,hu] at h
        split_ifs at h with hseries
        simp [Mailbox.folds,hu,hseries]
      | some update =>
        simp only [hs,hu] at h
        split at h <;> cases h

theorem Filed.uid (h : Filed m.tags req responseAccepted old props)
    (hold : old=[] ∨ m.uidOf req.props≠[]) : m.uidOf props=m.uidOf req.props := by
  have hget := h.reads m.tags.uid (by simp)
  rcases hold with rfl | hne
  · have hsame : props.get m.tags.uid=req.props.get m.tags.uid := by
      simpa [PropertyValues.get] using hget
    simp [Mailbox.uidOf,propStr,hsame]
  · have hreq := (uidOf_eq hne).mp rfl
    apply (uidOf_eq hne).mpr
    rw [hget,hreq]
    rfl

theorem Imported.override_span (hreq : Imported X m.tags req.props) {update : Bytes}
    {u : List Event} (hraw : req.props.get prIcalOriginal=some (.bytes update))
    (hparse : X.parse update=some u) {x : Instance} {c : Event} (hc : c∈u)
    (hinstant : occurrenceInstantOf u=some x.instant) {dur : Int}
    (hspan : x.span=overrideSpan c x.instant dur) {a b : UInt64}
    (ha : sysTime req.props m.tags.start=some a) (hb : sysTime req.props m.tags.finish=some b) :
    nanos x.span.start=ntNanos a.toNat ∧ nanos x.span.finish=ntNanos b.toNat := by
  obtain ⟨hs,hf⟩ := hreq.override update u x.instant c hraw hparse hinstant hc
  simp only [ntTime,ha,hb,Option.map_some,Option.map_eq_some_iff] at hs hf
  obtain ⟨s,hs,hs'⟩ := hs
  obtain ⟨f,⟨s',hs'',rfl⟩,hf'⟩ := hf
  obtain rfl : s=s' := Option.some.inj (hs.symm.trans hs'')
  rw [hspan,overrideSpan,hs,← hs',← hf',ntNanos_ntOf,ntNanos_ntOf]
  exact ⟨rfl,rfl⟩

theorem mem_replaceSeries (h : m.tags.Apart) {i : Item} (he : e∈m.calendar) {ical : Bytes}
    (hi : i∈(m.replaceSeries I e.id ical).calendar) :
    i∈m.calendar ∨ Replaced m.tags ical e.props i.props := by
  rcases mem_modifyItem hi with hi | ⟨j,hj,hid,hi⟩
  · exact .inl hi
  · rw [Table.eq_of_key hj he hid] at hi
    rw [hi]
    exact .inr (withRecurrence_replaced h e.props ical)

section Accepted

variable (hm : Orderly X m) (hreq : Imported X m.tags req.props) (hj : Judged X I m seen req)
  (hno : m.hasConflict (X.package I) req=false)

include hm hreq hj hno

theorem Orderly.filed (hfiled : Filed m.tags req responseAccepted old props)
    (hsound : Sound X m.tags old)
    (hold : boolVal req.props m.tags.recur=false → boolVal old m.tags.recur=false)
    (huid : old=[] ∨ m.uidOf req.props≠[]) (htags : m'.tags=m.tags)
    (hitems : ∀ i∈m'.calendar,i∈m.calendar ∨ i.props=props) : Orderly X m' := by
  obtain ⟨u,v,hu,hv,-,-⟩ := hj.timed
  apply hm.write htags (fun i => i.props=props)
  · intro i j hi hj
    rw [hi,hj]
  · exact hitems
  · intro i hi
    rw [hi]
    exact hfiled.sound hreq hsound
  · intro i hi j hmem hne _ hacc
    rw [hi,hfiled.uid huid] at hne
    have hclear := hj.clear hm hreq hno hmem hne.symm hacc
    rw [hi]
    intro p q a b hocc
    exact hclear p q a b (hfiled.occupies hreq hu hv hold hocc)

variable (h : m.tags.Apart) (now : UInt64)

include h

theorem Orderly.create :
    Orderly X (m.createItem (filedProps m.tags req responseAccepted now)) := by
  apply hm.filed hreq hj hno (filed_new req responseAccepted now h) sound_nil
  · simp [boolVal,PropertyValues.get]
  · exact .inl rfl
  · exact createItem_tags _
  · exact fun i hi => mem_createItem hi

theorem Orderly.update (he : m.findCalendarByUID (X.package I) (m.uidOf req.props)=some e)
    (hfold : m.foldOccurrence (X.package I) e.id req=none) :
    Orderly X (m.modifyItem e.id (filedProps m.tags req responseAccepted now)) := by
  have hmem := Mailbox.findCalendarByUID_mem he
  apply hm.filed hreq hj hno (filed_over responseAccepted now h hreq.distinct e.props)
    (hm.sound e hmem)
  · intro hr
    by_contra hrecur
    rw [Bool.not_eq_false] at hrecur
    have hfolds := hj.kept hr e he hrecur
    rw [folds_of_none hfold] at hfolds
    cases hfolds
  · exact .inr (findCalendarByUID_ne_nil he)
  · rfl
  · intro i hi
    rcases mem_modifyItem hi with hi | ⟨j,hj,hid,hi⟩
    · exact .inl hi
    · rw [Table.eq_of_key hj hmem hid] at hi
      exact .inr hi

theorem Orderly.fold (he : m.findCalendarByUID (X.package I) (m.uidOf req.props)=some e)
    (hfold : m.foldOccurrence (X.package I) e.id req=some m') : Orderly X m' := by
  have hmem := Mailbox.findCalendarByUID_mem he
  rcases foldOccurrence_cases hfold with rfl | ⟨stored,update,out,hical,hreqIcal,hmerged,rfl⟩
  · exact hm
  rw [itemProps_of_mem hmem] at hical
  have hstored := icalOf_eq_some hical
  have hupdate := icalOf_eq_some hreqIcal
  have hread : ∀ new,X.parse out=some new → ∃ cal u,X.parse stored=some cal ∧
      X.parse update=some u ∧ mergeOverride cal u=some new := by
    intro new hnew
    rw [hj.folded e stored update out he hical hreqIcal hmerged,Option.bind_eq_some_iff] at hnew
    obtain ⟨cal,hcal,hnew⟩ := hnew
    obtain ⟨u,hu,hnew⟩ := Option.bind_eq_some_iff.mp hnew
    exact ⟨cal,u,hcal,hu,hnew⟩
  obtain ⟨a,b,ha,hb,-,-⟩ := hj.timed
  -- the merged override is the window that was tested
  have hadds : ∀ new,X.parse out=some new → ∃ cal,X.parse stored=some cal ∧ ∀ x,Occurrence new x →
      Occurrence cal x ∨
        (nanos x.span.start=ntNanos a.toNat ∧ nanos x.span.finish=ntNanos b.toNat) := by
    intro new hnew
    obtain ⟨cal,u,hcal,hu,hmerge⟩ := hread new hnew
    refine ⟨cal,hcal,fun x hx => (mergeOverride_occurrence hmerge hx).imp_right ?_⟩
    rintro ⟨o,ho,hinstant,dur,hspan⟩
    exact hreq.override_span hupdate hu ho hinstant hspan ha hb
  apply hm.write (replaceSeries_confined e.id _).tags
    (fun i => Replaced m.tags out e.props i.props)
  · intro i j hi hj
    exact (hi.congr h).1.trans (hj.congr h).1.symm
  · exact fun i hi => mem_replaceSeries h hmem hi
  · refine fun i hi => hi.sound h (hm.sound e hmem) fun new hnew => ?_
    obtain ⟨cal,u,hcal,-,hmerge⟩ := hread new hnew
    exact ((hm.sound e hmem).single stored cal hstored hcal).merge hmerge
  · intro i hrep j hjmem hne hiacc hjacc
    obtain ⟨huid,hacc,-,-,-⟩ := hrep.congr h
    have hne' : m.uidOf j.props≠m.uidOf e.props := by
      rw [Mailbox.uidOf,huid] at hne
      exact hne.symm
    have hother := findCalendarByUID_other he hjmem hne'
    intro p q c d hocc hjocc
    rcases hrep.occupies h hstored _ hadds hocc with hocc | ⟨x,⟨hstart,hfinish⟩,rfl,rfl⟩
    · exact hm.booked e hmem j hjmem hne'.symm (hacc.mp hiacc) hjacc p q c d hocc hjocc
    · have hwindow := hj.window hm hreq hno hjmem hother hjacc ha hb hjocc
      omega

theorem Orderly.file :
    Orderly X (m.file (X.package I) req responseAccepted now) := by
  rw [Mailbox.file_eq]
  cases he : m.findCalendarByUID (X.package I) (m.uidOf req.props) with
  | none => exact hm.create hreq hj hno h now
  | some e =>
    cases hfold : m.foldOccurrence (X.package I) e.id req with
    | none =>
      simp only [hfold]
      exact hm.update hreq hj hno h now he hfold
    | some m' =>
      simp only [hfold]
      exact hm.fold hreq hj hno h he hfold

end Accepted

variable {tags : Tags} {old props : PropertyValues}

theorem occupies_of_reads (h : ∀ tag∈tags.reads,props.get tag=old.get tag) {p q : Int}
    (hocc : Occupies X tags props p q) : Occupies X tags old p q := by
  have hrecur : boolVal props tags.recur=boolVal old tags.recur := by
    simp [boolVal,h tags.recur (by simp)]
  have hstart : ntTime props tags.start=ntTime old tags.start := by
    simp [ntTime,sysTime,h tags.start (by simp)]
  have hfinish : ntTime props tags.finish=ntTime old tags.finish := by
    simp [ntTime,sysTime,h tags.finish (by simp)]
  rwa [Occupies,hrecur,hstart,hfinish,h prIcalOriginal (by simp)] at hocc

theorem below_of_same (h : ∀ tag∈tags.reads++tags.stamps,props.get tag=old.get tag) :
    Below X tags old props := by
  constructor
  · simp [propStr,h tags.uid (by simp)]
  · simp [Accepted,longVal,h tags.resp (by simp)]
  · exact fun p q => occupies_of_reads fun tag ht => h tag (List.mem_append_left _ ht)

theorem sound_of_same (h : ∀ tag∈tags.reads++tags.stamps,props.get tag=old.get tag)
    (hold : Sound X tags old) : Sound X tags props := by
  constructor
  · have hbusy := hold.busy
    simpa [Accepted,longVal,h tags.resp (by simp),h tags.busy (by simp)] using hbusy
  · intro tag ht u hu
    rw [sysTime,h tag (by simp at ht ⊢; tauto)] at hu
    exact hold.early tag ht u hu
  · intro raw cal hraw
    rw [h _ (by simp)] at hraw
    exact hold.single raw cal hraw

theorem Orderly.cancel (hm : Orderly X m) (h : m.tags.Apart) (htrimmed : Trimmed X I m req)
    (hfound : m.findCalendarByUID (X.package I) (m.uidOf req.props)=some e)
    (hc : m.cancelOccurrence (X.package I) e.id req=some m') : Orderly X m' := by
  have he := Mailbox.findCalendarByUID_mem hfound
  rcases cancelOccurrence_cases hc with rfl | ⟨blob,rfl⟩ | ⟨stored,out,hical,hcancel,rfl⟩
  · exact hm
  · have hsame : ∀ i∈(m.modifyItem e.id [(m.tags.appointmentRecur,.bytes blob)]).calendar,
        ∃ j∈m.calendar,∀ tag∈m.tags.reads++m.tags.stamps,i.props.get tag=j.props.get tag := by
      intro i hi
      rcases mem_modifyItem hi with hi | ⟨j,hj,-,hi⟩
      · exact ⟨i,hi,fun _ _ => rfl⟩
      · refine ⟨j,hj,fun tag ht => ?_⟩
        have hne : tag≠m.tags.appointmentRecur := by
          rcases List.mem_append.mp ht with hr | hs
          · exact h.reads_ne hr (.inr (.inr rfl))
          · exact h.stamps_ne hs
        rw [hi]
        simp [PropertyValues.setAll,hne]
    apply hm.shrink (Confined.modifyItem e.id _).tags
    · intro i hi
      obtain ⟨j,hj,hij⟩ := hsame i hi
      exact ⟨j,hj,below_of_same hij⟩
    · intro i hi
      obtain ⟨j,hj,hij⟩ := hsame i hi
      exact sound_of_same hij (hm.sound j hj)
  · rw [itemProps_of_mem he] at hical
    have hstored := icalOf_eq_some hical
    have hread : ∀ new,X.parse out=some new → ∃ cal,X.parse stored=some cal ∧ OneMaster cal ∧
        cancelOccurrence cal (ntSecond (Mailbox.occurrenceInstant (X.package I) req))=some new := by
      intro new hnew
      rw [htrimmed e stored out hfound hical hcancel,Option.bind_eq_some_iff] at hnew
      obtain ⟨cal,hcal,hnew⟩ := hnew
      exact ⟨cal,hcal,(hm.sound e he).single stored cal hstored hcal,hnew⟩
    apply hm.shrink (replaceSeries_confined e.id _).tags
    · intro i hi
      rcases mem_replaceSeries h he hi with hi | hrep
      · exact ⟨i,hi,Below.refl _⟩
      obtain ⟨huid,hacc,-,-,-⟩ := hrep.congr h
      refine ⟨e,he,huid,hacc.mp,fun p q hocc => ?_⟩
      refine (hrep.occupies h hstored (fun _ => False) ?_ hocc).resolve_right (by simp)
      intro new hnew
      obtain ⟨cal,hcal,hone,hnew⟩ := hread new hnew
      exact ⟨cal,hcal,fun x hx => .inl (cancelOccurrence_occurrence hone hnew hx)⟩
    · intro i hi
      rcases mem_replaceSeries h he hi with hi | hrep
      · exact hm.sound i hi
      · refine hrep.sound h (hm.sound e he) fun new hnew => ?_
        obtain ⟨cal,-,hone,hnew⟩ := hread new hnew
        exact hone.cancel hnew

theorem Orderly.removeAppointment (hm : Orderly X m) (h : m.tags.Apart)
    (htrimmed : Trimmed X I m req) : Orderly X (m.removeAppointment (X.package I) req) := by
  unfold Mailbox.removeAppointment
  cases he : m.findCalendarByUID (X.package I) (m.uidOf req.props) with
  | none => exact hm
  | some e =>
    cases hc : m.cancelOccurrence (X.package I) e.id req with
    | some m' =>
      simp only [hc]
      exact hm.cancel h htrimmed he hc
    | none =>
      simp only [hc]
      have hitems : ∀ i∈(m.deleteObject e.id).calendar,i∈m.calendar := by
        intro i hi
        exact (Table.mem_deleteWhere.mp hi).1
      apply hm.shrink (Confined.deleteObject e.id).tags
      · exact fun i hi => ⟨i,hitems i hi,Below.refl _⟩
      · exact fun i hi => hm.sound i (hitems i hi)

end File

section Run

variable {X : ICalText} {I : ICal} {T : Strings} {m : Mailbox} {req : Letter}

def SameRest (m m' : Mailbox) : Prop := m'.cfg=m.cfg ∧ m'.tags=m.tags ∧ m'.mail=m.mail

variable (message : Nat) {m' : Mailbox} {l : Letter} {d : Desk}

theorem file_sameRest (response : Int32) (now : UInt64) :
    SameRest m (m.file (X.package I) req response now) := by
  rw [Mailbox.file_eq]
  cases he : m.findCalendarByUID (X.package I) (m.uidOf req.props) with
  | none =>
    simp only [Mailbox.createItem]
    split <;> exact ⟨rfl,rfl,rfl⟩
  | some e =>
    cases hfold : m.foldOccurrence (X.package I) e.id req with
    | none =>
      simp only [hfold]
      exact ⟨rfl,rfl,rfl⟩
    | some m' =>
      simp only [hfold]
      rcases foldOccurrence_cases hfold with rfl | ⟨_,_,_,-,-,-,rfl⟩ <;> exact ⟨rfl,rfl,rfl⟩

theorem removeAppointment_sameRest : SameRest m (m.removeAppointment (X.package I) req) := by
  unfold Mailbox.removeAppointment
  cases he : m.findCalendarByUID (X.package I) (m.uidOf req.props) with
  | none => exact ⟨rfl,rfl,rfl⟩
  | some e =>
    cases hc : m.cancelOccurrence (X.package I) e.id req with
    | none =>
      simp only [hc]
      exact ⟨rfl,rfl,rfl⟩
    | some m' =>
      simp only [hc]
      rcases cancelOccurrence_cases hc with rfl | ⟨_,rfl⟩ | ⟨_,_,-,-,rfl⟩ <;> exact ⟨rfl,rfl,rfl⟩

def responseStamps (tags : Tags) (response : Int32) (now : UInt64) : PropertyValues :=
  [(tags.resp,.int32 response),(tags.reply,.uint64 now),
    (tags.state,.int32 (asfMeeting ||| asfReceived)),(tags.busy,.int32 (meetingBusy response))]

def Mailbox.settle (I : ICal) (m : Mailbox) (req : Letter) (response : Int32) (now : UInt64) :
    Mailbox :=
  if response=responseDeclined then m.removeAppointment I req else m.file I req response now

theorem settle_sameRest (req : Letter) (response : Int32) (now : UInt64) :
    SameRest m (m.settle (X.package I) req response now) := by
  unfold Mailbox.settle
  split_ifs
  · exact removeAppointment_sameRest
  · exact file_sameRest response now

theorem respondAutomatically_cases (response : Int32) (send : Bool) (now : UInt64) :
    m.respondAutomatically I T message response send now=m ∨
      ∃ req,m.mail.get message=some req ∧
        let settled := (m.modifyLetter message (responseStamps m.tags response now)).settle I req
          response now
        let m' := m.respondAutomatically I T message response send now
        m'.calendar=settled.calendar ∧ SameRest settled m' := by
  cases h : m.openAnswerable I T message with
  | error e => exact .inl (by simp [Mailbox.respondAutomatically,h])
  | ok req =>
    refine .inr ⟨req,openAnswerable_eq_ok h,?_⟩
    have hnotify : ∀ (b : Mailbox),(b.notifyOrganizer req response).calendar=b.calendar ∧
        SameRest b (b.notifyOrganizer req response) := by
      intro b
      simp only [Mailbox.notifyOrganizer]
      split_ifs <;> exact ⟨rfl,rfl,rfl,rfl⟩
    have heq : m.respondAutomatically I T message response send now =
        let settled := (m.modifyLetter message (responseStamps m.tags response now)).settle I req
          response now
        if send then settled.notifyOrganizer req response else settled := by
      simp only [Mailbox.respondAutomatically,h]
      rfl
    simp only [heq]
    split_ifs
    · exact hnotify _
    · exact ⟨rfl,rfl,rfl,rfl⟩

theorem stamped_reads (h : m.tags.Apart) (props : PropertyValues) (response : Int32) (now : UInt64)
    (ht : tag∈m.tags.reads) :
    (props.setAll (responseStamps m.tags response now)).get tag=props.get tag := by
  have hne : ∀ other∈m.tags.stamps,tag≠other := fun other ho => h.reads_ne ht (.inl ho)
  simp only [responseStamps,PropertyValues.setAll,List.foldl_cons,List.foldl_nil,
    PropertyValues.get_set]
  rw [if_neg (hne _ (by simp)),if_neg (hne _ (by simp)),
    if_neg (hne _ (by simp)),if_neg (hne _ (by simp))]

theorem Imported.congr {tags : Tags} (h : Imported X tags old) (hd : PropertyValues.Distinct props)
    (hr : ∀ tag∈tags.reads,props.get tag=old.get tag) :
    Imported X tags props := by
  have hstart : sysTime props tags.start=sysTime old tags.start := by
    simp [sysTime,hr tags.start (by simp)]
  have hfinish : sysTime props tags.finish=sysTime old tags.finish := by
    simp [sysTime,hr tags.finish (by simp)]
  have hrecur : boolVal props tags.recur=boolVal old tags.recur := by
    simp [boolVal,hr tags.recur (by simp)]
  have hical : props.get prIcalOriginal=old.get prIcalOriginal := hr _ (by simp)
  refine ⟨hd,?_,?_,?_,?_⟩
  · intro tag ht u hu
    simp only [List.mem_cons,List.not_mem_nil,or_false] at ht
    rcases ht with rfl | rfl
    · exact h.early _ (by simp) u (hstart ▸ hu)
    · exact h.early _ (by simp) u (hfinish ▸ hu)
  · rw [hrecur,hical]
    exact h.series
  · rw [hical]
    exact h.single
  · simp only [ntTime,hstart,hfinish,hical]
    exact h.override

theorem hasConflict_congr {l' : Letter} (hcal : m'.calendar=m.calendar) (htags : m'.tags=m.tags)
    (hr : ∀ tag∈m.tags.reads,l'.props.get tag=l.props.get tag) :
    m'.hasConflict I l'=m.hasConflict I l := by
  obtain ⟨cfg,tags,calendar,mail,nextID,sent⟩ := m
  obtain ⟨cfg',tags',calendar',mail',nextID',sent'⟩ := m'
  obtain rfl : calendar'=calendar := hcal
  obtain rfl : tags'=tags := htags
  simp only [Mailbox.hasConflict,sysTime,Mailbox.uidOf,propStr,
    hr _ (show tags'.start∈tags'.reads by simp),
    hr _ (show tags'.finish∈tags'.reads by simp),
    hr _ (show tags'.uid∈tags'.reads by simp)]
  rfl

def Decision.Stands (X : ICalText) (I : ICal) (m : Mailbox) (x : Decision) : Prop :=
  ∃ req,m.mail.get x.message=some req ∧ (x.response=responseDeclined ∨
    (x.response=responseAccepted ∧ ({m with calendar:=x.seen}).hasConflict (X.package I) req=false))

structure DeskInv (X : ICalText) (I : ICal) (d : Desk) : Prop where
  orderly : Orderly X d.box
  declines : d.box.cfg.declineConflict=true
  apart : d.box.tags.Apart
  letters : ∀ l∈d.box.mail,Imported X d.box.tags l.props
  decided : ∀ x∈d.pending,x.Stands X I d.box

theorem get_modifyLetter (n : Nat) (props : PropertyValues) :
    (m.modifyLetter message props).mail.get n=(m.mail.get n).map fun l =>
      if l.id=message then {l with props:=l.props.setAll props} else l := by
  simp only [Mailbox.modifyLetter]
  rw [Table.get_updateWhere]
  simp

theorem mem_modifyLetter {message : Nat} (h : l∈(m.modifyLetter message props).mail) :
    l∈m.mail ∨ ∃ l₀∈m.mail,l.props=l₀.props.setAll props := by
  simp only [Mailbox.modifyLetter,Table.mem_updateWhere] at h
  obtain ⟨l₀,hl₀,rfl⟩ := h
  by_cases hid : l₀.id=message
  · exact .inr ⟨l₀,hl₀,by simp [hid]⟩
  · exact .inl (by simpa [hid] using hl₀)

theorem Decision.Stands.stamped (h : m.tags.Apart) {x : Decision} (hx : x.Stands X I m)
    (message : Nat) (response : Int32) (now : UInt64) (htags : m'.tags=m.tags)
    (hmail : m'.mail=(m.modifyLetter message (responseStamps m.tags response now)).mail) :
    x.Stands X I m' := by
  obtain ⟨req,hreq,hresp⟩ := hx
  have hget := get_modifyLetter (m := m) message x.message (responseStamps m.tags response now)
  rw [hreq,Option.map_some,← hmail] at hget
  refine ⟨_,hget,?_⟩
  rcases hresp with hresp | ⟨hresp,hno⟩
  · exact .inl hresp
  · refine .inr ⟨hresp,?_⟩
    rw [← hno]
    apply hasConflict_congr
    · rfl
    · exact htags
    · intro tag ht
      split_ifs
      · exact stamped_reads h _ _ _ ht
      · rfl

theorem Orderly.congr (h : Orderly X m) (hcal : m'.calendar=m.calendar) (htags : m'.tags=m.tags) :
    Orderly X m' := by
  constructor
  · rw [hcal,htags]
    exact h.sound
  · simp only [SinglyBooked,Mailbox.uidOf,hcal,htags]
    exact h.booked

/-- Mail is imported, and what is filed is as judged. -/
def Desk.Proper (X : ICalText) (I : ICal) (d : Desk) : Action → Prop
  | .deliver l => Imported X d.box.tags l.props
  | .decide _ => True
  | .file message _ => ∀ x req,d.pending.find? (fun x => x.message=message)=some x →
      d.box.mail.get message=some req →
      (x.response=responseAccepted → Judged X I d.box x.seen req) ∧
        (x.response=responseDeclined → Trimmed X I d.box req)

theorem deliver_inv (h : DeskInv X I d) (hl : Imported X d.box.tags l.props) :
    DeskInv X I (d.step I T (.deliver l)) := by
  simp only [Desk.step]
  cases hi : d.box.mail.insert l with
  | none => exact h
  | some mail =>
    obtain ⟨hfresh,hmem⟩ := Table.insert_eq_some hi
    refine ⟨h.orderly.congr rfl rfl,h.declines,h.apart,?_,?_⟩
    · intro l' hl'
      rcases (hmem l').mp hl' with hl' | rfl
      · exact h.letters l' hl'
      · exact hl
    · intro x hx
      obtain ⟨req,hreq,hresp⟩ := h.decided x hx
      have hne : x.message≠l.id := by
        obtain ⟨hr,hk⟩ := Table.get_eq_some.mp hreq
        rw [← hk]
        exact hfresh req hr
      refine ⟨req,?_,hresp⟩
      rw [Table.get_of_mem_insert hfresh hmem,if_neg hne]
      exact hreq

theorem decide_inv (h : DeskInv X I d) (message : Nat) :
    DeskInv X I (d.step (X.package I) T (.decide message)) := by
  simp only [Desk.step]
  cases hreq : d.box.autoRequest message with
  | none => exact h
  | some req =>
    have hget : d.box.mail.get message=some req := by
      simp only [Mailbox.autoRequest] at hreq
      split_ifs at hreq
      exact (Option.filter_eq_some_iff.mp hreq).1
    refine ⟨h.orderly,h.declines,h.apart,h.letters,?_⟩
    intro x hx
    rcases List.mem_append.mp hx with hx | hx
    · exact h.decided x hx
    · obtain rfl := List.mem_singleton.mp hx
      refine ⟨req,hget,?_⟩
      simp only [Mailbox.decideResponse,h.declines]
      cases hc : d.box.hasConflict (X.package I) req with
      | true => simp
      | false =>
        by_cases hr : (d.box.cfg.declineRecurring && boolVal req.props d.box.tags.recur)=true
        · exact .inl (by simp [hr])
        · exact .inr ⟨by simp [hr],rfl⟩

theorem Judged.congr {seen : Table Item.id} (h : Judged X I m seen req)
    (hcal : m'.calendar=m.calendar) (htags : m'.tags=m.tags) : Judged X I m' seen req := by
  obtain ⟨cfg,tags,calendar,mail,nextID,sent⟩ := m
  obtain ⟨cfg',tags',calendar',mail',nextID',sent'⟩ := m'
  obtain rfl : calendar'=calendar := hcal
  obtain rfl : tags'=tags := htags
  exact ⟨h.current,h.timed,h.kept,h.folded⟩

theorem Orderly.settle (hm : Orderly X m) (h : m.tags.Apart)
    (hreq : Imported X m.tags req.props) {x : Decision} (hx : x.response=responseDeclined ∨
      (x.response=responseAccepted ∧
        ({m with calendar:=x.seen}).hasConflict (X.package I) req=false))
    (hj : x.response=responseAccepted → Judged X I m x.seen req)
    (htrimmed : x.response=responseDeclined → Trimmed X I m req) (now : UInt64) :
    Orderly X (m.settle (X.package I) req x.response now) := by
  unfold Mailbox.settle
  split_ifs with hd
  · exact hm.removeAppointment h (htrimmed hd)
  · obtain ⟨hresp,hno⟩ := hx.resolve_left hd
    have hjudged := hj hresp
    rw [← hjudged.current] at hno
    rw [hresp]
    exact hm.file hreq hjudged hno h now

theorem file_inv (h : DeskInv X I d) {message : Nat} {now : UInt64}
    (hp : d.Proper X I (.file message now)) :
    DeskInv X I (d.step (X.package I) T (.file message now)) := by
  simp only [Desk.step]
  cases hx : d.pending.find? fun x => x.message=message with
  | none => exact h
  | some x =>
    have hpending : ∀ y∈d.pending.eraseP fun x => x.message=message,y∈d.pending :=
      fun y hy => List.mem_of_mem_eraseP hy
    have hmessage : x.message=message := by simpa using List.find?_some hx
    rcases respondAutomatically_cases (I := X.package I) (T := T) (m := d.box) message x.response
      (x.response≠responseTentative) now with hsame | ⟨req,hreq,hcal,hrest⟩
    · simp only [hsame]
      exact ⟨h.orderly,h.declines,h.apart,h.letters,fun y hy => h.decided y (hpending y hy)⟩
    · generalize hm' : d.box.respondAutomatically (X.package I) T message x.response
        (x.response≠responseTentative) now=m' at hcal hrest
      simp only [hm']
      obtain ⟨hcfg,htags,hmail⟩ := hrest
      obtain ⟨hcfg₀,htags₀,hmail₀⟩ := settle_sameRest req x.response now
      have htags' : m'.tags=d.box.tags := htags.trans htags₀
      have hmail' := hmail.trans hmail₀
      have hletter : Imported X d.box.tags req.props := h.letters req (Table.get_eq_some.mp hreq).1
      have hstands := h.decided x (List.mem_of_find?_eq_some hx)
      have hsettled : Orderly X ((d.box.modifyLetter message
          (responseStamps d.box.tags x.response now)).settle (X.package I) req x.response now) := by
        have hstamped : Orderly X (d.box.modifyLetter message
            (responseStamps d.box.tags x.response now)) := h.orderly.congr rfl rfl
        obtain ⟨req',hreq',hresp⟩ := hstands
        rw [hmessage,hreq] at hreq'
        cases hreq'
        obtain ⟨hjudged,htrimmed⟩ := hp x req hx hreq
        exact hstamped.settle h.apart hletter hresp
          (fun haccepted => (hjudged haccepted).congr rfl rfl) (fun hdeclined => htrimmed hdeclined) now
      refine ⟨hsettled.congr hcal htags,?_,?_,?_,?_⟩
      · rw [hcfg,hcfg₀]
        exact h.declines
      · rw [htags']
        exact h.apart
      · intro l hl
        rw [hmail'] at hl
        rw [htags']
        rcases mem_modifyLetter hl with hl | ⟨l₀,hl₀,hprops⟩
        · exact h.letters l hl
        · have hbefore := h.letters l₀ hl₀
          rw [hprops]
          exact hbefore.congr (hbefore.distinct.setAll _)
            fun tag ht => stamped_reads h.apart _ _ _ ht
      · intro y hy
        exact (h.decided y (hpending y hy)).stamped h.apart message x.response now htags' hmail'

theorem step_inv (h : DeskInv X I d) {a : Action} (hp : d.Proper X I a) :
    DeskInv X I (d.step (X.package I) T a) := by
  cases a with
  | deliver l => exact deliver_inv (T := T) h hp
  | decide message => exact decide_inv h message
  | file message now => exact file_inv h hp

end Run

section Once

variable {X : ICalText} {I : ICal} {T : Strings}

theorem proper_once {d : Desk} {l : Letter} (now : UInt64) (hp : d.pending=[])
    (hfresh : d.box.mail.get l.id=none) (hl : Imported X d.box.tags l.props)
    (hj : Judged X I d.box d.box.calendar l)
    (hresp : d.box.decideResponse (X.package I) l≠responseDeclined) :
    Meets (Desk.step (X.package I) T) (Desk.Proper X I) d
      [.deliver l,.decide l.id,.file l.id now] := by
  refine ⟨hl,trivial,?_,trivial⟩
  obtain ⟨mail,hmail⟩ : ∃ mail,d.box.mail.insert l=some mail :=
    ⟨_,by rw [Table.insert,dif_pos hfresh]⟩
  obtain ⟨hother,hmem⟩ := Table.insert_eq_some hmail
  have hget : mail.get l.id=some l := by rw [Table.get_of_mem_insert hother hmem,if_pos rfl]
  intro x req hx hreq
  simp only [Desk.step,hmail] at hx hreq ⊢
  cases hauto : ({d.box with mail:=mail}).autoRequest l.id with
  | none =>
    simp only [hauto,hp] at hx
    cases hx
  | some req' =>
    obtain rfl : l=req' := by
      simp only [Mailbox.autoRequest,hget] at hauto
      split_ifs at hauto
      exact Option.some.inj (Option.filter_eq_some_iff.mp hauto).1
    simp only [hauto,hp] at hx hreq ⊢
    obtain rfl : l=req := Option.some.inj (hget.symm.trans hreq)
    simp only [List.nil_append,List.find?_cons,decide_true,Option.some.injEq] at hx
    rw [← hx]
    exact ⟨fun _ => hj.congr rfl rfl,fun hdeclined => absurd hdeclined hresp⟩

end Once

def secondsText : ICalText := ⟨.ascii,.asRead,.seconds⟩

def calendarText (lines : List String) : Bytes :=
  terminated (lit "BEGIN:VCALENDAR" :: lit "BEGIN:VEVENT" ::
    (lines.map lit++[lit "END:VEVENT",lit "END:VCALENDAR"]))

theorem plain_text (raw : Bytes) (h : (parseICal .ascii raw).any (fun cal =>
      cal.name=lit "VCALENDAR" ∧ cal.All (fun _ => True) (PlainLine .ascii .asRead))=true) :
    ∃ cal,parseICal .ascii raw=some cal ∧ secondsText.Plain cal := by
  cases hcal : parseICal .ascii raw with
  | none =>
    rw [hcal] at h
    cases h
  | some cal =>
    rw [hcal] at h
    obtain ⟨hname,hlines⟩ := of_decide_eq_true h
    exact ⟨cal,rfl,hname,hlines,fun _ _ _ => rfl⟩

def roomRequest (id : Nat) (uid : GoString) (start finish : UInt64) (recurring : Bool)
    (text : Bytes) : Letter :=
  ⟨id,[(prMessageClass,.string requestClass),
    (prSentRepresentingSmtpAddress,.string (lit "boss@a.org")),(storeTags.uid,.string uid),
    (storeTags.start,.uint64 start),(storeTags.finish,.uint64 finish),
    (storeTags.recur,.bool recurring),(prIcalOriginal,.bytes text)],
    some (lit "METHOD:REQUEST")⟩

theorem roomRequest_imported (id : Nat) (uid : GoString) {start finish : UInt64}
    (recurring : Bool) {text : Bytes} (cal : List Event)
    (hs : Mailbox.Early start) (hf : Mailbox.Early finish)
    (htext : secondsText.parse text=some cal) (hone : OneMaster cal)
    (hover : ∀ t c,occurrenceInstantOf cal=some t → c∈cal → c.dtstart.map ntOf=some ↑start.toNat ∧
      (c.dtstart.map c.eventEnd).map ntOf=some ↑finish.toNat) :
    Imported secondsText storeTags (roomRequest id uid start finish recurring text).props := by
  have hstart : sysTime (roomRequest id uid start finish recurring text).props storeTags.start =
      some start := rfl
  have hfinish : sysTime (roomRequest id uid start finish recurring text).props
      storeTags.finish=some finish := rfl
  have hraw : (roomRequest id uid start finish recurring text).props.get prIcalOriginal =
      some (.bytes text) := rfl
  constructor
  · have hkeys : (roomRequest id uid start finish recurring text).props.map Prod.fst =
      [prMessageClass,prSentRepresentingSmtpAddress,storeTags.uid,storeTags.start,
        storeTags.finish,storeTags.recur,prIcalOriginal] := rfl
    rw [PropertyValues.Distinct,hkeys]
    decide
  · intro tag ht u hu
    simp only [List.mem_cons,List.not_mem_nil,or_false] at ht
    rcases ht with rfl | rfl
    · rwa [← Option.some.inj (hstart.symm.trans hu)]
    · rwa [← Option.some.inj (hfinish.symm.trans hu)]
  · exact fun _ => ⟨text,hraw⟩
  · intro raw cal' hraw' hcal'
    obtain rfl : text=raw := by simpa [hraw] using hraw'
    obtain rfl : cal=cal' := Option.some.inj (htext.symm.trans hcal')
    exact hone
  · intro raw cal' t c hraw' hcal' ht hc
    obtain rfl : text=raw := by simpa [hraw] using hraw'
    obtain rfl : cal=cal' := Option.some.inj (htext.symm.trans hcal')
    simpa only [ntTime,hstart,hfinish,Option.map_some] using hover t c ht hc

def room : Mailbox := {acceptingMailbox with cfg:=⟨true,false,true,false⟩}

def morningsText : Bytes :=
  calendarText ["DTSTART:32400","DTEND:39600","RRULE:FREQ=DAILY;COUNT=2"]

def mornings (id : Nat) (uid : GoString) : Letter :=
  roomRequest id uid 116445060000000000 116445132000000000 true morningsText

def noon : Event := ⟨some (some 118800),some 129600,false,none,some 133200,none,false,none,[],[]⟩

def noonText : Bytes := calendarText ["RECURRENCE-ID:118800","DTSTART:129600","DTEND:133200"]

def toNoon : Letter :=
  roomRequest 101 (lit "m1") 116446032000000000 116446068000000000 false noonText

def freed : Letter :=
  roomRequest 102 (lit "m2") 116445924000000000 116445960000000000 false
    (calendarText ["DTSTART:118800","DTEND:122400"])

def single : Event := ⟨none,some 118800,false,none,some 122400,none,false,none,[],[]⟩

/-- A series, a morning of it moved, and a meeting in the freed time. -/
def oneByOne : List Action :=
  ([.deliver (mornings 100 (lit "m1")),.decide 100,.file 100 1] : List Action) ++
    (([.deliver toNoon,.decide 101,.file 101 2] : List Action) ++
      ([.deliver freed,.decide 102,.file 102 3] : List Action))

theorem storeTags_apart : storeTags.Apart := by
  rw [Tags.Apart]
  decide

def morningsItem : Item := ⟨1,filedProps storeTags (mornings 100 (lit "m1")) responseAccepted 1,[]⟩

def movedText : Bytes :=
  terminated [lit "BEGIN:VCALENDAR",lit "BEGIN:VEVENT",lit "DTSTART:32400",lit "DTEND:39600",
    lit "RRULE:FREQ=DAILY;COUNT=2",lit "END:VEVENT",lit "BEGIN:VEVENT",
    lit "RECURRENCE-ID:118800",lit "DTSTART:129600",lit "DTEND:133200",lit "END:VEVENT",
    lit "END:VCALENDAR"]

def movedItem : Item :=
  {morningsItem with props:=morningsItem.props.setAll [(prIcalOriginal,.bytes movedText)]}

def booked (actions : List Action) : Desk :=
  runSteps (Desk.step (secondsText.package plainICal) .ascii) ⟨room,[]⟩ actions

def afterMornings : Desk := booked [.deliver (mornings 100 (lit "m1")),.decide 100,.file 100 1]

def afterMove : Desk :=
  runSteps (Desk.step (secondsText.package plainICal) .ascii) afterMornings
    [.deliver toNoon,.decide 101,.file 101 2]

theorem afterMornings_rows : afterMornings.box.calendar.rows=[morningsItem] := by decide +kernel

theorem afterMove_rows : afterMove.box.calendar.rows=[movedItem] := by decide +kernel

theorem judged_mornings :
    Judged secondsText plainICal room room.calendar (mornings 100 (lit "m1")) := by
  have hnone : ∀ i,i∉room.calendar := fun i hi => absurd hi List.not_mem_nil
  have htells : ∀ a b,room.Tells secondsText (lit "m1") a b := fun a b i hi => absurd hi (hnone i)
  constructor
  · rfl
  · refine ⟨_,_,rfl,rfl,htells _ _,fun _ raw cal x _ _ _ => .inr ⟨rfl,htells _ _⟩⟩
  · intro h
    cases h
  · intro existing _ _ _ he
    cases he

theorem judged_toNoon :
    Judged secondsText plainICal afterMornings.box afterMornings.box.calendar toNoon := by
  have hfound : afterMornings.box.findCalendarByUID (secondsText.package plainICal)
    (afterMornings.box.uidOf toNoon.props)=some morningsItem := by decide +kernel
  constructor
  · rfl
  · refine ⟨_,_,rfl,rfl,?_,?_⟩
    · intro i hi _ hne
      rw [← Table.mem_rows,afterMornings_rows,List.mem_singleton] at hi
      subst hi
      exact absurd (by decide +kernel) hne
    · intro h
      cases h
  · intro _ e he _
    obtain rfl : morningsItem=e := Option.some.inj (hfound.symm.trans he)
    decide +kernel
  · intro e stored update out he hstored hupdate hout
    obtain rfl : morningsItem=e := Option.some.inj (hfound.symm.trans he)
    obtain rfl : morningsText=stored := Option.some.inj hstored
    obtain rfl : noonText=update := Option.some.inj hupdate
    obtain ⟨cal,hcal,hplain⟩ := plain_text morningsText (by decide +kernel)
    obtain ⟨u,hu,hplain'⟩ := plain_text noonText (by decide +kernel)
    exact ICalText.folds_of_plain Strings.ascii_lawful Reading.seconds_lawful plainICal hcal hu hplain
      hplain' hout

theorem judged_freed :
    Judged secondsText plainICal afterMove.box afterMove.box.calendar freed := by
  have hfound : afterMove.box.findCalendarByUID (secondsText.package plainICal)
    (afterMove.box.uidOf freed.props)=none := by decide +kernel
  constructor
  · rfl
  · refine ⟨_,_,rfl,rfl,?_,?_⟩
    · intro i hi _ _ raw cal m s hraw hcal hm hs t ht
      rw [← Table.mem_rows,afterMove_rows,List.mem_singleton] at hi
      subst hi
      have hget : movedItem.props.get prIcalOriginal=some (.bytes movedText) := rfl
      obtain rfl : movedText=raw := by simpa [hget] using hraw
      have hmoved : secondsText.parse movedText=some [twoMornings,noon] := rfl
      obtain rfl : [twoMornings,noon]=cal := Option.some.inj (hmoved.symm.trans hcal)
      obtain rfl : twoMornings=m := Option.some.inj hm
      obtain rfl : twoMorningsSeries=s := Option.some.inj hs
      have hdef := ht.defined.resolve_right (by simp [twoMornings])
      have hmem := twoMornings_defines hdef
      simp only [List.mem_cons,List.not_mem_nil,or_false] at hmem
      rcases hmem with rfl | rfl
      · exact absurd ht.overlaps (by decide)
      · have hnoon : (overridesOf [twoMornings,noon]).at 118800=some noon := rfl
        cases hnoon.symm.trans ht.plain
    · intro h
      cases h
  · intro _ e he
    rw [hfound] at he
    cases he
  · intro e _ _ _ he
    rw [hfound] at he
    cases he

def early : Letter :=
  roomRequest 100 (lit "m1") 116445060000000000 116445096000000000 false
    (calendarText ["DTSTART:32400","DTEND:36000"])
def between : Letter :=
  roomRequest 101 (lit "m2") 116445078000000000 116445114000000000 false
    (calendarText ["DTSTART:34200","DTEND:37800"])

def sideBySide : List Action :=
  [.deliver early,.deliver between,.decide 100,.decide 101,.file 100 1,.file 101 2]

def secondMorning : Letter :=
  roomRequest 100 (lit "m1") 116445960000000000 116445978000000000 false
    (calendarText ["DTSTART:122400","DTEND:124200"])

def seriesSecond : List Action :=
  [.deliver secondMorning,.decide 100,.file 100 1,.deliver (mornings 101 (lit "m2")),.decide 101,
    .file 101 2]

theorem not_singlyBooked {X : ICalText} {m : Mailbox} {i j : Item} {p q a b : Int}
    (hrows : m.calendar.rows=[i,j]) (huid : m.uidOf i.props≠m.uidOf j.props)
    (hi : Accepted m.tags i.props) (hj : Accepted m.tags j.props)
    (hp : Occupies X m.tags i.props p q) (ha : Occupies X m.tags j.props a b)
    (hmeet : max p a < min q b) : ¬SinglyBooked X m := by
  intro h
  have hmem : ∀ k∈[i,j],k∈m.calendar := by
    intro k hk
    rw [← Table.mem_rows,hrows]
    exact hk
  have hclear := h i (hmem i (by simp)) j (hmem j (by simp)) huid hi hj p q a b hp ha
  omega

end HermEX.Meeting
