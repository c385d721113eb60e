import HermEX.Oxcical.Rewrite

namespace HermEX.Oxcical

open Framework

/-- The times of a calendar, and how they are written. -/
structure Reading where
  time : Icomp → Iline → Option (Int×Bool)
  event : Icomp → Icomp → Event
  formatICalUTC : Int → Bytes
  formatICalDate : Int → Bytes
  formatICalUTC_line : ∀ t,0x0A∉formatICalUTC t
  formatICalDate_line : ∀ t,0x0A∉formatICalDate t

def splitFirst {α : Type} (p : α → Bool) : List α → Option (List α×α×List α)
  | [] => none
  | x::xs => if p x then some ([],x,xs) else (splitFirst p xs).map fun y => (x::y.1,y.2)

def splitLast {α : Type} (p : α → Bool) (xs : List α) : Option (List α×α×List α) :=
  (splitFirst p xs.reverse).map fun y => (y.2.2.reverse,y.2.1,y.1.reverse)

theorem splitFirst_eq_some {α : Type} {p : α → Bool} {xs a b : List α} {x : α}
    (h : splitFirst p xs=some (a,x,b)) : xs=a++x::b ∧ p x=true := by
  induction xs generalizing a with
  | nil => cases h
  | cons y xs ih =>
    simp only [splitFirst] at h
    split_ifs at h with hy
    · simp only [Option.some.injEq,Prod.mk.injEq] at h
      obtain ⟨rfl,rfl,rfl⟩ := h
      exact ⟨rfl,hy⟩
    · obtain ⟨⟨a',x',b'⟩,hs,heq⟩ := Option.map_eq_some_iff.mp h
      simp only [Prod.mk.injEq] at heq
      obtain ⟨rfl,rfl,rfl⟩ := heq
      obtain ⟨rfl,hp⟩ := ih hs
      exact ⟨rfl,hp⟩

theorem splitLast_eq_some {α : Type} {p : α → Bool} {xs a b : List α} {x : α}
    (h : splitLast p xs=some (a,x,b)) : xs=a++x::b ∧ p x=true := by
  obtain ⟨⟨a',x',b'⟩,hs,heq⟩ := Option.map_eq_some_iff.mp h
  simp only [Prod.mk.injEq] at heq
  obtain ⟨rfl,rfl,rfl⟩ := heq
  obtain ⟨hrev,hp⟩ := splitFirst_eq_some hs
  have hxs := congrArg List.reverse hrev
  simp only [List.reverse_reverse,List.reverse_append,List.reverse_cons] at hxs
  exact ⟨by simpa using hxs,hp⟩

def isVEvent (c : Icomp) : Bool := c.name=lit "VEVENT"

def prop (c : Icomp) (name : Bytes) : Option Iline := c.props.find? fun l => l.name=name

def unescapeValue : Bytes → Bytes
  | [] => []
  | [b] => [b]
  | b::c::bs =>
    if b=0x5C then (if c=0x6E ∨ c=0x4E then 0x0A else c)::unescapeValue bs
    else b::unescapeValue (c::bs)

def propText (c : Icomp) (name : Bytes) : Bytes :=
  ((prop c name).map fun l => unescapeValue l.value).getD []

def setProp (c : Icomp) (name value : Bytes) : Icomp :=
  .mk c.name ((c.props.filter fun l => l.name≠name)++[⟨name,.empty,value⟩]) c.comps

def Reading.events (R : Reading) (cal : Icomp) : List Event :=
  (cal.comps.filter isVEvent).map (R.event cal)

def withComps (cal : Icomp) (comps : List Icomp) : Icomp := .mk cal.name cal.props comps

namespace Edit

variable (T : Strings) (R : Reading)

def dtLine (name : Bytes) (t : Int) (allDay : Bool) : Iline :=
  if allDay then ⟨name,.single (lit "VALUE",[lit "DATE"]),R.formatICalDate t⟩
  else ⟨name,.empty,R.formatICalUTC t⟩

def isSeriesMaster (c : Icomp) : Bool :=
  isVEvent c && (prop c (lit "RECURRENCE-ID")).isNone && (prop c (lit "RRULE")).isSome

def overrideInstant (cal c : Icomp) : Option Int :=
  if isVEvent c then (prop c (lit "RECURRENCE-ID")).bind fun l => (R.time cal l).map Prod.fst
  else none

def isOverrideAt (cal : Icomp) (instant : Int) (c : Icomp) : Bool :=
  overrideInstant R cal c=some instant

def others (cal : Icomp) (instant : Int) (cs : List Icomp) : List Icomp :=
  cs.filter fun c => !isOverrideAt R cal instant c

def occurrenceInstantOf (cal : Icomp) : Option Int :=
  match cal.comps.filter isVEvent with
  | [c] => overrideInstant R cal c
  | _ => none

def missingFrom (known : List Bytes) : List Icomp → List Icomp
  | [] => []
  | c::cs =>
    let id := T.toUpper (propText c (lit "TZID"))
    if c.name=lit "VTIMEZONE" ∧ id≠[] ∧ known.contains id=false then
      c::missingFrom (id::known) cs
    else missingFrom known cs

def missingTimezones (stored update : Icomp) : List Icomp :=
  missingFrom T ((stored.comps.filter fun c => c.name=lit "VTIMEZONE").map fun c =>
    T.toUpper (propText c (lit "TZID"))) update.comps

def mergeOverride (stored update : Icomp) : Option Icomp :=
  if !stored.comps.any isSeriesMaster then none
  else (occurrenceInstantOf R update).bind fun instant =>
    (update.comps.find? (isOverrideAt R update instant)).map fun override =>
      withComps stored
        (others R stored instant stored.comps++(missingTimezones T stored update++[override]))

def isAllDay (cal c : Icomp) : Bool :=
  ((prop c (lit "DTSTART")).bind (R.time cal)).any Prod.snd

def withExdate (cal m : Icomp) (instant : Int) : Icomp :=
  if (R.event cal m).exdates.contains instant then m
  else .mk m.name (m.props++[dtLine R (lit "EXDATE") instant (isAllDay R cal m)]) m.comps

def cancelOccurrence (cal : Icomp) (instant : Int) : Option Icomp :=
  (splitLast isSeriesMaster cal.comps).map fun x =>
    withComps cal (others R cal instant x.1 ++
      withExdate R cal x.2.1 instant::others R cal instant x.2.2)

def hasInstance (cal : Icomp) (instant : Int) : Bool :=
  let events := R.events cal
  match (master events).bind fun m => m.seriesShape.map fun s => (m,s) with
  | none => false
  | some x =>
    seriesInstants x.1 x.2 x.1.exdates (nanos instant) (nanos (instant+1))≠[] &&
      (instanceSpan ((overridesOf events).at instant) instant x.2.dur).isSome

def instanceTimeLines : List Bytes :=
  [lit "DTSTART",lit "DTEND",lit "DURATION",lit "DTSTAMP",lit "RECURRENCE-ID",lit "RRULE",
    lit "RDATE",lit "EXDATE"]

def instanceComp (now : Int) (m : Icomp) (override : Option Icomp) (instant dur : Int)
    (allDay : Bool) : Icomp :=
  match override with
  | some c => c
  | none =>
    .mk (lit "VEVENT") ((m.props.filter fun l => !instanceTimeLines.contains l.name) ++
      [dtLine R (lit "DTSTAMP") now false,dtLine R (lit "RECURRENCE-ID") instant allDay,
        dtLine R (lit "DTSTART") instant allDay,dtLine R (lit "DTEND") (instant+dur) allDay])
      m.comps

def cancelInstance (now : Int) (cal : Icomp) (instant : Int) : Option Icomp :=
  if !hasInstance R cal instant then none
  else (splitLast isSeriesMaster cal.comps).bind fun x =>
    (R.event cal x.2.1).seriesShape.map fun s =>
      let ev := instanceComp R now x.2.1 (cal.comps.find? (isOverrideAt R cal instant)) instant
        s.dur (isAllDay R cal x.2.1)
      withComps cal
        (others R cal instant cal.comps++[setProp ev (lit "STATUS") (lit "CANCELLED")])

def primaryEvent (comps : List Icomp) : Option (List Icomp×Icomp×List Icomp) :=
  (splitLast isSeriesMaster comps).or
    (splitFirst (fun c => isVEvent c && (prop c (lit "RECURRENCE-ID")).isNone) comps)

def setSequence (cal : Icomp) (seq : Int) (instant : Option Int) : Option Icomp :=
  let target := match instant with
    | none => primaryEvent cal.comps
    | some t => splitFirst (isOverrideAt R cal t) cal.comps
  target.map fun x => withComps cal (x.1++setProp x.2.1 (lit "SEQUENCE") (itoa seq)::x.2.2)

end Edit

namespace Text

variable (T : Strings) (order : MapOrder) (R : Reading)

def mergeOverride (stored update : Bytes) : Option Bytes :=
  (parseICal T stored).bind fun s => (parseICal T update).bind fun u =>
    (Edit.mergeOverride T R s u).map (renderCalendar order)

def cancelOccurrence (stored : Bytes) (instant : Int) : Option Bytes :=
  (parseICal T stored).bind fun cal => (Edit.cancelOccurrence R cal instant).map
    (renderCalendar order)

def cancelInstance (now : Int) (stored : Bytes) (instant : Int) : Option Bytes :=
  (parseICal T stored).bind fun cal => (Edit.cancelInstance R now cal instant).map
    (renderCalendar order)

def setSequence (ical : Bytes) (seq : Int) (instant : Option Int) : Option Bytes :=
  (parseICal T ical).bind fun cal => (Edit.setSequence R cal seq instant).map (renderCalendar order)

end Text

/-- At most `n` levels, and read back as it was. -/
structure Fit (T : Strings) (order : MapOrder) (n : Nat) (c : Icomp) : Prop where
  all : c.All (NameShape T) fun l => PropertyShape T l ∧ PlainLine T order l
  height : c.height≤n

section Fit

variable {T : Strings} {order : MapOrder} {n : Nat} {c : Icomp}

theorem fit_of_plain (h : Readable T c) (hplain : c.All (fun _ => True) (PlainLine T order)) :
    Fit T order maxNestingDepth c :=
  ⟨(h.all.and hplain).mono (fun _ hn => hn.1) fun _ hl => hl,h.height⟩

theorem Fit.comp (h : Fit T order (n+1) c) {d : Icomp} (hd : d∈c.comps) : Fit T order n d := by
  obtain ⟨hall,hheight⟩ := h
  rw [← c.eta,Comp.all_mk] at hall
  rw [← c.eta,Comp.height] at hheight
  have hle := Comp.height_le_heights hd
  exact ⟨hall.2.2 d hd,by omega⟩

theorem Fit.line (h : Fit T order n c) {l : Iline} (hl : l∈c.props) :
    PropertyShape T l ∧ PlainLine T order l := by
  have hall := h.all
  rw [← c.eta,Comp.all_mk] at hall
  exact hall.2.1 l hl

theorem Fit.withComps (h : Fit T order (n+1) c) {comps : List Icomp}
    (hcomps : ∀ d∈comps,Fit T order n d) : Fit T order (n+1) (withComps c comps) := by
  have hall := h.all
  rw [← c.eta,Comp.all_mk] at hall
  have hle := Comp.heights_le fun d hd => (hcomps d hd).height
  refine ⟨Comp.all_mk.mpr ⟨hall.1,hall.2.1,fun d hd => (hcomps d hd).all⟩,?_⟩
  rw [Oxcical.withComps,Comp.height]
  omega

theorem Fit.withProps (h : Fit T order n c) {name : Bytes} (hname : NameShape T name)
    {props : List Iline} (hprops : ∀ l∈props,PropertyShape T l ∧ PlainLine T order l) :
    Fit T order n (.mk name props c.comps) := by
  have hall := h.all
  have hheight := h.height
  rw [← c.eta,Comp.all_mk] at hall
  rw [← c.eta,Comp.height] at hheight
  refine ⟨Comp.all_mk.mpr ⟨hname,hprops,hall.2.2⟩,?_⟩
  rw [Comp.height]
  exact hheight

theorem Fit.name (h : Fit T order n c) : NameShape T c.name := by
  have hall := h.all
  rw [← c.eta,Comp.all_mk] at hall
  exact hall.1

theorem Fit.setProp (h : Fit T order n c) {name value : Bytes}
    (hl : PropertyShape T ⟨name,.empty,value⟩ ∧ PlainLine T order ⟨name,.empty,value⟩) :
    Fit T order n (setProp c name value) := by
  apply h.withProps h.name
  intro l hmem
  rcases List.mem_append.mp hmem with hmem | hmem
  · exact h.line (List.mem_filter.mp hmem).1
  · exact (List.mem_singleton.mp hmem) ▸ hl

variable (hT : T.Lawful)

include hT

theorem line_of_text {l : Iline} {s : Bytes} (hs : 0x0A∉s) (hread : contentLine T s=l)
    (hwrite : renderIline order l=s) (hbegin : l.name≠lit "BEGIN")
    (hend : l.name≠lit "END") : PropertyShape T l ∧ PlainLine T order l := by
  have hshape : Shape T l := hread ▸ contentLine_shape hT hs
  refine ⟨⟨hshape,hbegin,hend⟩,?_⟩
  apply (reread_iff hT hshape).mp
  rw [hwrite,hread]

theorem line_of_word {w value : Bytes} (hw : Word w=true) (hvalue : 0x0A∉value)
    (hbegin : w≠lit "BEGIN") (hend : w≠lit "END") :
    PropertyShape T ⟨w,.empty,value⟩ ∧ PlainLine T order ⟨w,.empty,value⟩ := by
  have hnone : order.arrange []=[] := (order.perm []).eq_nil
  refine line_of_text hT (s := w++0x3A::value) ?_ (contentLine_word hT hw value) ?_ hbegin hend
  · have hlf := word_not_mem hw (b := 0x0A) (by simp)
    simp [hlf,hvalue]
  · simp [renderIline,Iline.left,Iline.pairs,Table.empty,hnone]

theorem dtLine_fit (R : Reading) {w : Bytes} (hw : Word w=true) (t : Int) (allDay : Bool)
    (hbegin : w≠lit "BEGIN") (hend : w≠lit "END") :
    PropertyShape T (Edit.dtLine R w t allDay) ∧ PlainLine T order (Edit.dtLine R w t allDay) := by
  cases allDay with
  | false => exact line_of_word hT hw (R.formatICalUTC_line t) hbegin hend
  | true =>
    have hone : order.arrange [(lit "VALUE",[lit "DATE"])]=[(lit "VALUE",[lit "DATE"])] :=
      List.perm_singleton.mp (order.perm _)
    have hread := contentLine_written hT hw [(lit "VALUE",lit "DATE")] (by
      intro x hx
      rw [List.mem_singleton.mp hx]
      decide) (R.formatICalDate t)
    refine line_of_text hT ?_ hread ?_ hbegin hend
    · have hlf := word_not_mem hw (b := 0x0A) (by simp)
      have hvalue : (0x0A : UInt8)∉lit "VALUE" ++ 0x3D::lit "DATE" := by decide
      have hdate := R.formatICalDate_line t
      simp only [List.flatMap_cons,List.flatMap_nil,List.append_nil,List.mem_append,
        List.mem_cons,not_or] at hvalue ⊢
      exact ⟨⟨hlf,by decide,hvalue⟩,by decide,hdate⟩
    · simp [renderIline,Iline.left,Iline.pairs,Edit.dtLine,Table.single,hone]

theorem renderCalendar_same (hname : c.name=lit "VCALENDAR")
    (h : Fit T order maxNestingDepth c) :
    ∃ d,parseICal T (renderCalendar order c)=some d ∧ Same d c := by
  have hreadable : Readable T c := ⟨h.all.mono (fun _ hn => hn) fun _ hl => hl.1,h.height⟩
  have hplain : c.All (fun _ => True) (PlainLine T order) :=
    h.all.mono (fun _ _ => trivial) fun _ hl => hl.2
  have hrender : renderCalendar order c=writeLines (writeComponent order c) := by
    rw [← c.eta,hname]
    rfl
  rw [hrender]
  have hread := parseICal_written hT order hreadable
  exact ⟨_,hread,(same_written_iff hT order hreadable hread).mpr hplain⟩

end Fit
def Targets (t e : Icomp) (target : Icomp → Bool) : Prop :=
  e.name=t.name ∧ e.props=t.props ∧ ∃ kept : List Icomp,kept.Sublist t.comps ∧
    kept.Sublist e.comps ∧ ∀ c∈t.comps,c∈kept ∨ target c=true

section Edits

variable {T : Strings} {order : MapOrder} {R : Reading} {n : Nat} {t e : Icomp}

variable {instant seq : Int}

theorem targets_replaced {pre post : List Icomp} {c d : Icomp} {target : Icomp → Bool}
    (ht : t.comps=pre++c::post) (hc : target c=true) :
    Targets t (withComps t (pre++d::post)) target := by
  have hsub : ∀ x,(pre++post).Sublist (pre++x::post) :=
    fun x => (List.Sublist.refl pre).append (List.sublist_cons_self x post)
  refine ⟨rfl,rfl,pre++post,ht ▸ hsub c,hsub d,?_⟩
  intro x hx
  rw [ht] at hx
  simp only [List.mem_append,List.mem_cons] at hx ⊢
  rcases hx with hx | rfl | hx
  · exact .inl (.inl hx)
  · exact .inr hc
  · exact .inl (.inr hx)

theorem targets_others (added : List Icomp) :
    Targets t (withComps t (Edit.others R t instant t.comps++added))
      (Edit.isOverrideAt R t instant) := by
  refine ⟨rfl,rfl,_,List.filter_sublist,List.sublist_append_left _ _,?_⟩
  intro c hc
  cases hover : Edit.isOverrideAt R t instant c with
  | true => exact .inr rfl
  | false => exact .inl (List.mem_filter.mpr ⟨hc,by simp [hover]⟩)

theorem mergeOverride_targets {u : Icomp} (h : Edit.mergeOverride T R t u=some e) :
    ∃ instant,Edit.occurrenceInstantOf R u=some instant ∧
      Targets t e (Edit.isOverrideAt R t instant) := by
  unfold Edit.mergeOverride at h
  split_ifs at h
  obtain ⟨instant,hinstant,hrest⟩ := Option.bind_eq_some_iff.mp h
  obtain ⟨override,-,rfl⟩ := Option.map_eq_some_iff.mp hrest
  exact ⟨instant,hinstant,targets_others _⟩

theorem cancelOccurrence_targets (h : Edit.cancelOccurrence R t instant=some e) :
    Targets t e fun c => Edit.isOverrideAt R t instant c || Edit.isSeriesMaster c := by
  obtain ⟨⟨pre,m,post⟩,hsplit,rfl⟩ := Option.map_eq_some_iff.mp h
  obtain ⟨hcomps,hm⟩ := splitLast_eq_some hsplit
  refine ⟨rfl,rfl,Edit.others R t instant pre++Edit.others R t instant post,?_,?_,?_⟩
  · rw [hcomps]
    exact List.filter_sublist.append (List.filter_sublist.trans (List.sublist_cons_self m post))
  · exact (List.Sublist.refl _).append (List.sublist_cons_self _ _)
  · intro c hc
    rw [hcomps] at hc
    cases hover : Edit.isOverrideAt R t instant c with
    | true => exact .inr (by simp [hover])
    | false =>
      have hmem : ∀ cs,c∈cs → c∈Edit.others R t instant cs :=
        fun cs hcs => List.mem_filter.mpr ⟨hcs,by simp [hover]⟩
      rcases List.mem_append.mp hc with hc | hc
      · exact .inl (List.mem_append_left _ (hmem pre hc))
      · rcases List.mem_cons.mp hc with rfl | hc
        · exact .inr (by simp [hm])
        · exact .inl (List.mem_append_right _ (hmem post hc))

theorem cancelInstance_targets {now : Int} (h : Edit.cancelInstance R now t instant=some e) :
    Targets t e (Edit.isOverrideAt R t instant) := by
  unfold Edit.cancelInstance at h
  split_ifs at h
  obtain ⟨x,-,hrest⟩ := Option.bind_eq_some_iff.mp h
  obtain ⟨s,-,rfl⟩ := Option.map_eq_some_iff.mp hrest
  exact targets_others _

def Edit.sequenced (R : Reading) (t : Icomp) (instant : Option Int) (c : Icomp) : Bool :=
  match instant with
  | none => isVEvent c && (prop c (lit "RECURRENCE-ID")).isNone
  | some i => Edit.isOverrideAt R t i c

theorem primaryEvent_eq_some {comps pre post : List Icomp} {c : Icomp}
    (h : Edit.primaryEvent comps=some (pre,c,post)) :
    comps=pre++c::post ∧ (isVEvent c && (prop c (lit "RECURRENCE-ID")).isNone)=true := by
  rcases Option.or_eq_some_iff.mp h with h | ⟨-,h⟩
  · obtain ⟨hcomps,hc⟩ := splitLast_eq_some h
    simp only [Edit.isSeriesMaster,Bool.and_eq_true] at hc
    exact ⟨hcomps,by simp [hc]⟩
  · exact splitFirst_eq_some h

theorem setSequence_cases {instant : Option Int} (h : Edit.setSequence R t seq instant=some e) :
    ∃ pre c post,t.comps=pre++c::post ∧ Edit.sequenced R t instant c=true ∧
      e=withComps t (pre++setProp c (lit "SEQUENCE") (itoa seq)::post) := by
  obtain ⟨⟨pre,c,post⟩,htarget,rfl⟩ := Option.map_eq_some_iff.mp h
  cases instant with
  | none =>
    obtain ⟨hcomps,hc⟩ := primaryEvent_eq_some htarget
    exact ⟨pre,c,post,hcomps,hc,rfl⟩
  | some i =>
    obtain ⟨hcomps,hc⟩ := splitFirst_eq_some htarget
    exact ⟨pre,c,post,hcomps,hc,rfl⟩

theorem setSequence_targets {instant : Option Int} (h : Edit.setSequence R t seq instant=some e) :
    Targets t e (Edit.sequenced R t instant) := by
  obtain ⟨pre,c,post,hcomps,hc,rfl⟩ := setSequence_cases h
  exact targets_replaced hcomps hc

theorem mem_missingFrom {known : List Bytes} {cs : List Icomp} {c : Icomp}
    (h : c∈Edit.missingFrom T known cs) : c∈cs ∧ c.name=lit "VTIMEZONE" := by
  induction cs generalizing known with
  | nil => cases h
  | cons d cs ih =>
    simp only [Edit.missingFrom] at h
    split_ifs at h with hd
    · rcases List.mem_cons.mp h with rfl | h
      · exact ⟨List.mem_cons_self,hd.1⟩
      · exact (ih h).imp_left (List.mem_cons_of_mem d)
    · exact (ih h).imp_left (List.mem_cons_of_mem d)

theorem Fit.merged {u : Icomp} (ht : Fit T order (n+1) t) (hu : Fit T order (n+1) u)
    (h : Edit.mergeOverride T R t u=some e) : Fit T order (n+1) e := by
  unfold Edit.mergeOverride at h
  split_ifs at h
  obtain ⟨instant,-,hrest⟩ := Option.bind_eq_some_iff.mp h
  obtain ⟨override,hoverride,rfl⟩ := Option.map_eq_some_iff.mp hrest
  apply ht.withComps
  intro d hd
  rcases List.mem_append.mp hd with hd | hd
  · exact ht.comp (List.mem_filter.mp hd).1
  · rcases List.mem_append.mp hd with hd | hd
    · exact hu.comp (mem_missingFrom hd).1
    · rw [List.mem_singleton.mp hd]
      exact hu.comp (List.mem_of_find?_eq_some hoverride)

variable (hT : T.Lawful)

include hT

theorem Fit.excluded (ht : Fit T order (n+1) t) (h : Edit.cancelOccurrence R t instant=some e) :
    Fit T order (n+1) e := by
  obtain ⟨⟨pre,m,post⟩,hsplit,rfl⟩ := Option.map_eq_some_iff.mp h
  obtain ⟨hcomps,-⟩ := splitLast_eq_some hsplit
  have hin : ∀ d∈pre++m::post,Fit T order n d := fun d hd => ht.comp (hcomps ▸ hd)
  have hm : Fit T order n m := hin m (by simp)
  apply ht.withComps
  intro d hd
  rcases List.mem_append.mp hd with hd | hd
  · exact hin d (List.mem_append_left _ (List.mem_filter.mp hd).1)
  · rcases List.mem_cons.mp hd with rfl | hd
    · unfold Edit.withExdate
      split_ifs
      · exact hm
      · apply hm.withProps hm.name
        intro l hl
        rcases List.mem_append.mp hl with hl | hl
        · exact hm.line hl
        · rw [List.mem_singleton.mp hl]
          exact dtLine_fit hT R (by decide) _ _ (by decide) (by decide)
    · exact hin d (by simp [(List.mem_filter.mp hd).1])

theorem Fit.instanceComp {m : Icomp} (hm : Fit T order n m) {override : Option Icomp}
    (hover : ∀ c,override=some c → Fit T order n c) (now instant dur : Int) (allDay : Bool) :
    Fit T order n (Edit.instanceComp R now m override instant dur allDay) := by
  cases override with
  | some c => exact hover c rfl
  | none =>
    have hvevent : NameShape T (lit "VEVENT") := by
      obtain ⟨htrim,hupper⟩ := word_fixed hT (w := lit "VEVENT") (by decide)
      exact ⟨by rw [htrim,hupper],by decide⟩
    apply hm.withProps hvevent
    intro l hl
    rcases List.mem_append.mp hl with hl | hl
    · exact hm.line (List.mem_filter.mp hl).1
    · simp only [List.mem_cons,List.not_mem_nil,or_false] at hl
      rcases hl with rfl | rfl | rfl | rfl
      all_goals exact dtLine_fit hT R (by decide) _ _ (by decide) (by decide)

theorem Fit.cancelled (ht : Fit T order (n+1) t) {now : Int}
    (h : Edit.cancelInstance R now t instant=some e) : Fit T order (n+1) e := by
  unfold Edit.cancelInstance at h
  split_ifs at h
  obtain ⟨⟨pre,m,post⟩,hsplit,hrest⟩ := Option.bind_eq_some_iff.mp h
  obtain ⟨s,-,rfl⟩ := Option.map_eq_some_iff.mp hrest
  obtain ⟨hcomps,-⟩ := splitLast_eq_some hsplit
  have hm : Fit T order n m := ht.comp (hcomps ▸ List.mem_append_right pre List.mem_cons_self)
  apply ht.withComps
  intro d hd
  rcases List.mem_append.mp hd with hd | hd
  · exact ht.comp (List.mem_filter.mp hd).1
  · rw [List.mem_singleton.mp hd]
    apply (hm.instanceComp hT (fun c hc => ht.comp (List.mem_of_find?_eq_some hc)) _ _ _ _).setProp
    exact line_of_word hT (by decide) (by decide) (by decide) (by decide)

omit hT in
theorem itoa_line (k : Int) : 0x0A∉itoa k := by
  have hdigits : ∀ m : Nat,0x0A∉formatNat m := by
    intro m hmem
    have hall := (formatFrom_digits (m+1) m [] (Nat.lt_succ_self m) rfl).2.1
    have hdigit := List.all_eq_true.mp hall _ hmem
    exact absurd hdigit (by decide)
  unfold itoa
  split_ifs
  · simp [hdigits]
  · exact hdigits _

theorem Fit.sequenced (ht : Fit T order (n+1) t) {instant : Option Int}
    (h : Edit.setSequence R t seq instant=some e) : Fit T order (n+1) e := by
  obtain ⟨pre,c,post,hcomps,-,rfl⟩ := setSequence_cases h
  have hin : ∀ d∈pre++c::post,Fit T order n d := fun d hd => ht.comp (hcomps ▸ hd)
  apply ht.withComps
  intro d hd
  rcases List.mem_append.mp hd with hd | hd
  · exact hin d (by simp [hd])
  · rcases List.mem_cons.mp hd with rfl | hd
    · apply (hin c (by simp)).setProp
      exact line_of_word hT (by decide) (itoa_line seq) (by decide) (by decide)
    · exact hin d (by simp [hd])

end Edits
/-- Rewriting keeps the object; a function changes its target only. -/
structure Keeps (T : Strings) (order : MapOrder) (R : Reading) (raw : Bytes) (t : Icomp) :
    Prop where
  whole : ∃ d,parseICal T (renderCalendar order t)=some d ∧ Same d t
  merge : ∀ update u out,parseICal T update=some u → u.All (fun _ => True) (PlainLine T order) →
    Text.mergeOverride T order R raw update=some out →
    ∃ instant e d,Edit.occurrenceInstantOf R u=some instant ∧
      Edit.mergeOverride T R t u=some e ∧ Targets t e (Edit.isOverrideAt R t instant) ∧
      parseICal T out=some d ∧ Same d e
  exclude : ∀ instant out,Text.cancelOccurrence T order R raw instant=some out →
    ∃ e d,Edit.cancelOccurrence R t instant=some e ∧
      Targets t e (fun c => Edit.isOverrideAt R t instant c || Edit.isSeriesMaster c) ∧
      parseICal T out=some d ∧ Same d e
  cancel : ∀ now instant out,Text.cancelInstance T order R now raw instant=some out →
    ∃ e d,Edit.cancelInstance R now t instant=some e ∧
      Targets t e (Edit.isOverrideAt R t instant) ∧ parseICal T out=some d ∧ Same d e
  sequence : ∀ seq instant out,Text.setSequence T order R raw seq instant=some out →
    ∃ e d,Edit.setSequence R t seq instant=some e ∧
      Targets t e (Edit.sequenced R t instant) ∧ parseICal T out=some d ∧ Same d e

/-- Rewriting keeps just the VCALENDARs whose lines are read back. -/
theorem rewriting_keeps_iff {T : Strings} (hT : T.Lawful) (order : MapOrder) (R : Reading)
    {raw : Bytes} {t : Icomp} (h : parseICal T raw = some t) :
    Keeps T order R raw t ↔
      t.name = lit "VCALENDAR" ∧ t.All (fun _ => True) (PlainLine T order) := by
  have hreadable := parseICal_readable hT h
  constructor
  · intro hkeeps
    obtain ⟨d,hd,hsame⟩ := hkeeps.whole
    have hrender : renderCalendar order t =
        writeLines (writeComponent order (.mk (lit "VCALENDAR") t.props t.comps)) := rfl
    have hname : t.name=lit "VCALENDAR" := by
      have hvcal : Readable T (.mk (lit "VCALENDAR") t.props t.comps) := by
        obtain ⟨htrim,hupper⟩ := word_fixed hT (w := lit "VCALENDAR") (by decide)
        have hall := hreadable.all
        have hheight := hreadable.height
        rw [← t.eta,Comp.all_mk] at hall
        rw [← t.eta,Comp.height] at hheight
        exact ⟨Comp.all_mk.mpr ⟨⟨by rw [htrim,hupper],by decide⟩,hall.2⟩,hheight⟩
      rw [hrender,parseICal_written hT order hvcal] at hd
      obtain rfl := Option.some.inj hd
      rw [Same,← t.eta,Comp.map_map,Comp.map_mk,Comp.map_mk] at hsame
      simp only [Comp.mk.injEq] at hsame
      exact hsame.1.symm
    refine ⟨hname,?_⟩
    rw [hrender,← hname,Comp.eta] at hd
    exact (same_written_iff hT order hreadable hd).mp hsame
  · rintro ⟨hname,hplain⟩
    have ht := fit_of_plain hreadable hplain
    have hread : ∀ {e : Icomp} {out : Bytes},e.name=t.name → Fit T order maxNestingDepth e →
        renderCalendar order e=out → ∃ d,parseICal T out=some d ∧ Same d e := by
      intro e out hen he hout
      exact hout ▸ renderCalendar_same hT (hen.trans hname) he
    refine ⟨renderCalendar_same hT hname ht,?_,?_,?_,?_⟩
    · intro update u out hu hup hout
      simp only [Text.mergeOverride,h,hu,Option.bind_some] at hout
      obtain ⟨e,he,hout⟩ := Option.map_eq_some_iff.mp hout
      obtain ⟨instant,hinstant,htargets⟩ := mergeOverride_targets he
      have hfe := ht.merged (fit_of_plain (parseICal_readable hT hu) hup) he
      obtain ⟨d,hd,hsame⟩ := hread htargets.1 hfe hout
      exact ⟨instant,e,d,hinstant,he,htargets,hd,hsame⟩
    · intro instant out hout
      simp only [Text.cancelOccurrence,h,Option.bind_some] at hout
      obtain ⟨e,he,hout⟩ := Option.map_eq_some_iff.mp hout
      have htargets := cancelOccurrence_targets he
      obtain ⟨d,hd,hsame⟩ := hread htargets.1 (ht.excluded hT he) hout
      exact ⟨e,d,he,htargets,hd,hsame⟩
    · intro now instant out hout
      simp only [Text.cancelInstance,h,Option.bind_some] at hout
      obtain ⟨e,he,hout⟩ := Option.map_eq_some_iff.mp hout
      have htargets := cancelInstance_targets he
      obtain ⟨d,hd,hsame⟩ := hread htargets.1 (ht.cancelled hT he) hout
      exact ⟨e,d,he,htargets,hd,hsame⟩
    · intro seq instant out hout
      simp only [Text.setSequence,h,Option.bind_some] at hout
      obtain ⟨e,he,hout⟩ := Option.map_eq_some_iff.mp hout
      have htargets := setSequence_targets he
      obtain ⟨d,hd,hsame⟩ := hread htargets.1 (ht.sequenced hT he) hout
      exact ⟨e,d,he,htargets,hd,hsame⟩

def MapOrder.asRead : MapOrder := ⟨id,fun _ => .rfl⟩

def Reading.timeless : Reading where
  time _ _ := none
  event _ _ := ⟨none,none,false,none,none,none,false,none,[],[]⟩
  formatICalUTC _ := []
  formatICalDate _ := []
  formatICalUTC_line _ := List.not_mem_nil
  formatICalDate_line _ := List.not_mem_nil

def oneLine (line : String) : Bytes :=
  terminated [lit "BEGIN:VCALENDAR",lit "BEGIN:VEVENT",lit line,lit "END:VEVENT",
    lit "END:VCALENDAR"]

theorem rewriting_keeps_iff_attendee :
    ∃ t,parseICal .ascii (oneLine "ATTENDEE;CN=Jane;ROLE=CHAIR:mailto:j@a.org") = some t ∧
      Keeps .ascii .asRead .timeless (oneLine "ATTENDEE;CN=Jane;ROLE=CHAIR:mailto:j@a.org") t := by
  have hgood : (parseICal .ascii (oneLine "ATTENDEE;CN=Jane;ROLE=CHAIR:mailto:j@a.org")).any
      (fun t => t.name=lit "VCALENDAR" ∧ t.All (fun _ => True) (PlainLine .ascii .asRead))=true := by
    decide +kernel
  cases ht : parseICal .ascii (oneLine "ATTENDEE;CN=Jane;ROLE=CHAIR:mailto:j@a.org") with
  | none =>
    rw [ht] at hgood
    exact absurd hgood (by simp)
  | some t =>
    rw [ht] at hgood
    exact ⟨t,rfl,(rewriting_keeps_iff Strings.ascii_lawful .asRead .timeless ht).mpr
      (of_decide_eq_true hgood)⟩

def eventValues (c : Icomp) : List (List Bytes) := c.comps.map fun d => d.props.map (·.value)

/-- A name with a colon is written without its quotes. -/
theorem rewriting_loses_quotes :
    ∃ t,parseICal .ascii (oneLine "ATTENDEE;CN=\"Doe: Jane\":mailto:j@a.org") = some t ∧
      ¬Keeps .ascii .asRead .timeless (oneLine "ATTENDEE;CN=\"Doe: Jane\":mailto:j@a.org") t := by
  have hread : (parseICal .ascii (oneLine "ATTENDEE;CN=\"Doe: Jane\":mailto:j@a.org")).map
      eventValues=some [[lit "mailto:j@a.org"]] := by
    decide +kernel
  obtain ⟨t,ht,hvalues⟩ := Option.map_eq_some_iff.mp hread
  have hreread : ((parseICal .ascii (oneLine "ATTENDEE;CN=\"Doe: Jane\":mailto:j@a.org")).bind
      fun t => parseICal .ascii (renderCalendar .asRead t)).map eventValues =
        some [[lit " Jane:mailto:j@a.org"]] := by
    decide +kernel
  refine ⟨t,ht,?_⟩
  intro hkeeps
  obtain ⟨d,hd,hsame⟩ := hkeeps.whole
  have hview : ∀ c : Icomp,((c.map Iline.view).comps.map fun d => d.props.map (·.2.2)) =
      eventValues c := by
    intro c
    simp [eventValues,Iline.view]
  have hboth : eventValues d=eventValues t := by rw [← hview d,← hview t,hsame]
  rw [ht,Option.bind_some,hd,Option.map_some,hboth,hvalues] at hreread
  exact absurd hreread (by decide)

end HermEX.Oxcical
