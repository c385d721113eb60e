import HermEX.Oxcical.Edits
import HermEX.Oxcical.Override
import HermEX.Recurrence.RRule

namespace HermEX.Oxcical

open Framework

/-- How an event depends on its lines and the calendar. -/
structure Reading.Lawful (R : Reading) : Prop where
  recurrenceID : ∀ cal c,(R.event cal c).recurrenceID =
    (prop c (lit "RECURRENCE-ID")).map fun l => (R.time cal l).map Prod.fst
  rrule : ∀ cal c,(R.event cal c).rrule.isSome=(prop c (lit "RRULE")).isSome
  exdate : ∀ cal c l t,l.name=lit "EXDATE" → (R.time cal l).map Prod.fst=some t →
    R.event cal (.mk c.name (c.props++[l]) c.comps) =
      {R.event cal c with exdates:=(R.event cal c).exdates++[t]}
  zones : ∀ cal cal' : Icomp,(cal.comps.filter fun c => c.name=lit "VTIMEZONE") =
    (cal'.comps.filter fun c => c.name=lit "VTIMEZONE") → R.event cal=R.event cal'
  same : ∀ cal cal',Same cal cal' → R.events cal=R.events cal'

theorem splitFirst_first {α : Type} {p : α → Bool} {xs a b : List α} {x : α}
    (h : splitFirst p xs=some (a,x,b)) : ∀ y∈a,p y=false := by
  induction xs generalizing a with
  | nil => cases h
  | cons z xs ih =>
    simp only [splitFirst] at h
    split_ifs at h with hz
    · simp only [Option.some.injEq,Prod.mk.injEq] at h
      obtain ⟨rfl,-,-⟩ := h
      simp
    · obtain ⟨⟨a',x',b'⟩,hs,heq⟩ := Option.map_eq_some_iff.mp h
      simp only [Prod.mk.injEq] at heq
      obtain ⟨rfl,rfl,rfl⟩ := heq
      intro y hy
      rcases List.mem_cons.mp hy with rfl | hy
      · simpa using hz
      · exact ih hs y hy

theorem splitLast_last {α : Type} {p : α → Bool} {xs a b : List α} {x : α}
    (h : splitLast p xs=some (a,x,b)) : ∀ y∈b,p y=false := by
  obtain ⟨⟨a',x',b'⟩,hs,heq⟩ := Option.map_eq_some_iff.mp h
  simp only [Prod.mk.injEq] at heq
  obtain ⟨rfl,rfl,rfl⟩ := heq
  intro y hy
  exact splitFirst_first hs y (List.mem_reverse.mp hy)

theorem excludeInMaster_append (instant : Int) {m : Event} (hm : m.isMaster=true)
    (before : List Event) {after : List Event} (hafter : after.any Event.isMaster=false) :
    excludeInMaster instant (before++m::after)=before++m.exclude instant::after := by
  induction before with
  | nil => simp [excludeInMaster,hm,hafter]
  | cons c cs ih =>
    have hmore : (cs++m::after).any Event.isMaster=true := by simp [hm]
    simp only [List.cons_append,excludeInMaster,hmore,ih]
    simp

theorem timezones_others (R : Reading) (cal : Icomp) (instant : Int) (cs : List Icomp) :
    ((Edit.others R cal instant cs).filter fun c => c.name=lit "VTIMEZONE") =
      cs.filter fun c => c.name=lit "VTIMEZONE" := by
  rw [Edit.others,List.filter_filter]
  apply List.filter_congr
  intro c _
  by_cases hc : c.name=lit "VTIMEZONE"
  · have hevent : isVEvent c=false := by
      rw [isVEvent,hc]
      decide
    simp [hc,Edit.isOverrideAt,Edit.overrideInstant,hevent]
  · simp [hc]

namespace Reading.Lawful

variable {T : Strings} {R : Reading} {t u e : Icomp} {instant : Int}

variable (hR : R.Lawful)

include hR

theorem isOverrideAt (cal : Icomp) {c : Icomp} (hc : isVEvent c=true) :
    (R.event cal c).isOverrideAt instant=Edit.isOverrideAt R cal instant c := by
  simp only [Event.isOverrideAt,Edit.isOverrideAt,Edit.overrideInstant,hR.recurrenceID,hc,if_true]
  cases prop c (lit "RECURRENCE-ID") <;> simp

theorem isMaster (cal : Icomp) {c : Icomp} (hc : isVEvent c=true) :
    (R.event cal c).isMaster=Edit.isSeriesMaster c := by
  simp [Event.isMaster,Edit.isSeriesMaster,hR.recurrenceID,hR.rrule,hc]

theorem any_isMaster (cal : Icomp) (cs : List Icomp) :
    ((cs.filter isVEvent).map (R.event cal)).any Event.isMaster=cs.any Edit.isSeriesMaster := by
  induction cs with
  | nil => rfl
  | cons c cs ih =>
    cases hc : isVEvent c with
    | true => simp [hc,hR.isMaster cal hc,ih]
    | false => simp [hc,ih,Edit.isSeriesMaster]

theorem others (cal : Icomp) (cs : List Icomp) :
    ((Edit.others R cal instant cs).filter isVEvent).map (R.event cal) =
      ((cs.filter isVEvent).map (R.event cal)).filter fun c => !c.isOverrideAt instant := by
  rw [Edit.others,List.filter_map,List.filter_filter,List.filter_filter]
  congr 1
  apply List.filter_congr
  intro c _
  cases hc : isVEvent c with
  | true => simp [hR.isOverrideAt cal hc]
  | false => simp

theorem occurrenceInstantOf :
    Oxcical.occurrenceInstantOf (R.events u)=Edit.occurrenceInstantOf R u := by
  have hone : ∀ c,isVEvent c=true →
      (R.event u c).recurrenceID.join=Edit.overrideInstant R u c := by
    intro c hc
    simp only [Edit.overrideInstant,hR.recurrenceID,hc,if_true]
    cases prop c (lit "RECURRENCE-ID") <;> simp
  unfold Edit.occurrenceInstantOf Reading.events
  cases hcs : u.comps.filter isVEvent with
  | nil => rfl
  | cons c cs =>
    have hc : isVEvent c=true := (List.mem_filter.mp (hcs ▸ List.mem_cons_self)).2
    cases cs with
    | nil => exact hone c hc
    | cons d ds => rfl

theorem find (cs : List Icomp) :
    ((cs.filter isVEvent).map (R.event u)).find? (Event.isOverrideAt instant) =
      (cs.find? (Edit.isOverrideAt R u instant)).map (R.event u) := by
  induction cs with
  | nil => rfl
  | cons c cs ih =>
    cases hc : isVEvent c with
    | true =>
      have hover : (R.event u c).isOverrideAt instant=_ := hR.isOverrideAt u hc
      cases ho : Edit.isOverrideAt R u instant c <;> simp [hc,ho,hover,ih]
    | false =>
      have ho : Edit.isOverrideAt R u instant c=false := by
        simp [Edit.isOverrideAt,Edit.overrideInstant,hc]
      simp [hc,ho,ih]

theorem mergeOverride (h : Edit.mergeOverride T R t u=some e)
    (hstored : ∀ c∈t.comps,R.event e c=R.event t c)
    (hupdate : ∀ c∈u.comps,R.event e c=R.event u c) :
    Oxcical.mergeOverride (R.events t) (R.events u)=some (R.events e) := by
  unfold Edit.mergeOverride at h
  split_ifs at h with hany
  obtain ⟨instant,hinstant,hrest⟩ := Option.bind_eq_some_iff.mp h
  obtain ⟨override,hfind,rfl⟩ := Option.map_eq_some_iff.mp hrest
  have hzones : (Edit.missingTimezones T t u).filter isVEvent=[] := by
    rw [List.filter_eq_nil_iff]
    intro c hc hevent
    rw [isVEvent,(mem_missingFrom hc).2] at hevent
    exact absurd hevent (by decide)
  have hover : isVEvent override=true := by
    have hat := List.find?_some hfind
    by_contra hc
    simp [Edit.isOverrideAt,Edit.overrideInstant,hc] at hat
  have hnew : ((u.comps.filter isVEvent).map (R.event u)).find? (Event.isOverrideAt instant)=_ :=
    hR.find u.comps
  rw [hfind,Option.map_some] at hnew
  rw [Oxcical.mergeOverride,hR.occurrenceInstantOf,hinstant,Option.bind_some,Reading.events,
    Reading.events,hR.any_isMaster,if_neg hany,hnew,Option.map_some,← hR.others,Reading.events]
  generalize hcal : withComps t _=cal at hstored hupdate ⊢
  have hcomps : cal.comps =
      Edit.others R t instant t.comps++(Edit.missingTimezones T t u++[override]) := by
    rw [← hcal]
    rfl
  rw [hcomps,List.filter_append,List.filter_append,hzones,List.nil_append,
    List.filter_singleton,hover,List.map_append]
  congr 2
  · apply List.map_congr_left
    intro c hc
    exact (hstored c (List.mem_filter.mp (List.mem_filter.mp hc).1).1).symm
  · simp [hupdate override (List.mem_of_find?_eq_some hfind)]

theorem withExdate {m : Icomp}
    (hexdate : (R.time t (Edit.dtLine R (lit "EXDATE") instant (Edit.isAllDay R t m))).map Prod.fst
      =some instant) :
    R.event t (Edit.withExdate R t m instant)=(R.event t m).exclude instant := by
  unfold Edit.withExdate Event.exclude
  split_ifs
  · rfl
  · refine hR.exdate t m _ instant ?_ hexdate
    cases Edit.isAllDay R t m <;> rfl

theorem cancelOccurrence (h : Edit.cancelOccurrence R t instant=some e)
    (hexdate : ∀ allDay,
      (R.time t (Edit.dtLine R (lit "EXDATE") instant allDay)).map Prod.fst=some instant) :
    Oxcical.cancelOccurrence (R.events t) instant=some (R.events e) := by
  obtain ⟨⟨pre,m,post⟩,hsplit,rfl⟩ := Option.map_eq_some_iff.mp h
  obtain ⟨hcomps,hm⟩ := splitLast_eq_some hsplit
  have hlast := splitLast_last hsplit
  have hevent : isVEvent m=true := by
    simp only [Edit.isSeriesMaster,Bool.and_eq_true] at hm
    exact hm.1.1
  have hmaster : (R.event t m).isMaster=true := by rw [hR.isMaster t hevent,hm]
  have hwithout : (R.events t).filter (fun c => !c.isOverrideAt instant) =
      ((Edit.others R t instant pre).filter isVEvent).map (R.event t) ++
        R.event t m::((Edit.others R t instant post).filter isVEvent).map (R.event t) := by
    have hkept : (R.event t m).isOverrideAt instant=false := by
      simp only [Event.isMaster,Bool.and_eq_true,Option.isNone_iff_eq_none] at hmaster
      simp [Event.isOverrideAt,hmaster.1]
    rw [hR.others,hR.others,Reading.events,hcomps]
    simp [hevent,hkept]
  have hany : (R.events t).any Event.isMaster=true := by
    rw [Reading.events,hR.any_isMaster,hcomps]
    simp [hm]
  have hafter : (((Edit.others R t instant post).filter isVEvent).map (R.event t)).any
      Event.isMaster=false := by
    rw [hR.any_isMaster,List.any_eq_false]
    intro c hc
    simp [hlast c (List.mem_filter.mp hc).1]
  have hname : isVEvent (Edit.withExdate R t m instant)=true := by
    unfold Edit.withExdate
    split_ifs
    · exact hevent
    · exact hevent
  generalize hcal : withComps t _=cal
  have hnew : cal.comps=Edit.others R t instant pre ++
      Edit.withExdate R t m instant::Edit.others R t instant post := by
    rw [← hcal]
    rfl
  have hzones : R.event cal=R.event t := by
    have hzone : ∀ c,isVEvent c=true → (decide (c.name=lit "VTIMEZONE"))=false := by
      intro c hc
      rw [isVEvent,decide_eq_true_eq] at hc
      rw [hc]
      decide
    apply hR.zones
    rw [hnew,hcomps,List.filter_append,List.filter_append,List.filter_cons_of_neg,
      List.filter_cons_of_neg,timezones_others,timezones_others]
    · simp [hzone _ hevent]
    · simp [hzone _ hname]
  rw [Oxcical.cancelOccurrence,hany,hwithout,excludeInMaster_append instant hmaster _ hafter,
    ← hR.withExdate (hexdate _),Reading.events,hzones,hnew]
  simp [hname]

end Reading.Lawful

def Event.ofSeconds (values : Bytes → List Bytes) : Event :=
  let time := fun name => (values (lit name)).head?.bind parseInt
  ⟨(values (lit "RECURRENCE-ID")).head?.map parseInt,time "DTSTART",false,none,time "DTEND",none,
    false,(values (lit "RRULE")).head?.map (parseRRule .ascii),[],
    (values (lit "EXDATE")).filterMap parseInt⟩

def Reading.seconds : Reading where
  time _ l := (parseInt l.value).map fun t => (t,false)
  event _ c := .ofSeconds fun name => (c.props.filter fun l => l.name=name).map (·.value)
  formatICalUTC := itoa
  formatICalDate := itoa
  formatICalUTC_line := itoa_line
  formatICalDate_line := itoa_line

theorem Reading.seconds_lawful : Reading.seconds.Lawful where
  recurrenceID cal c := by
    simp [seconds,Event.ofSeconds,prop,Function.comp_def]
  rrule cal c := by simp [seconds,Event.ofSeconds,prop]
  exdate cal c l t hl ht := by
    have hvalue : parseInt l.value=some t := by simpa [seconds,Function.comp_def] using ht
    have hother : ∀ name,lit "EXDATE" ≠ name → [l].filter (fun l => l.name=name)=[] := by
      intro name hname
      simp [hl,hname]
    have hprops : (Comp.mk c.name (c.props++[l]) c.comps).props=c.props++[l] := rfl
    simp only [seconds,Event.ofSeconds,hprops,List.filter_append,
      hother (lit "RECURRENCE-ID") (by decide),hother (lit "DTSTART") (by decide),
      hother (lit "DTEND") (by decide),hother (lit "RRULE") (by decide),List.append_nil]
    simp [hl,hvalue]
  zones cal cal' h := rfl
  same cal cal' h := by
    have hview : ∀ c : Icomp,Reading.seconds.events c =
        ((c.map Iline.view).comps.filter fun d => d.name=lit "VEVENT").map fun d =>
          .ofSeconds fun name => (d.props.filter fun x => x.1=name).map (·.2.2) := by
      intro c
      have hname : ∀ d : Icomp,(d.map Iline.view).name=d.name := by
        rintro ⟨n,ps,cs⟩
        rfl
      rw [events,Comp.comps_map,List.filter_map,List.map_map]
      have hsame : ((fun d : Comp Bytes (Bytes×(Bytes → List Bytes)×Bytes) =>
          decide (d.name=lit "VEVENT")) ∘ Comp.map Iline.view)=isVEvent := by
        funext d
        simp [hname,isVEvent]
      rw [hsame]
      apply List.map_congr_left
      intro d _
      simp only [seconds,Function.comp_apply,Comp.props_map,List.filter_map,List.map_map]
      rfl
    rw [hview,hview,h]

end HermEX.Oxcical
