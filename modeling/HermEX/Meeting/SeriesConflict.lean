import HermEX.Meeting.AutoProcess
import HermEX.Oxcical.Expansion

namespace HermEX.Meeting

open Framework Mapi Oxcical

def ntNanos (t : Instant) : Int := 100*(t-116444736000000000)

def ntOf (t : Int) : Instant := 10000000*t+116444736000000000

def ICal.expanding (I : ICal) (parseICal : Bytes → Option (List Event)) : ICal :=
  {I with
    occurrencesIn:=fun raw reqStart reqEnd => (parseICal raw).bind fun cal =>
      (Oxcical.occurrencesIn cal (ntNanos reqStart) (ntNanos reqEnd)).map fun spans =>
        spans.map fun x => (ntOf x.start,ntOf x.finish)}

theorem seriesOccupies_expanding (I : ICal) (parseICal : Bytes → Option (List Event))
    (reqStart reqEnd : Instant) {props : PropertyValues} {raw : Bytes} {cal : List Event}
    {out : List Instance} (hprops : props.get prIcalOriginal=some (.bytes raw))
    (hparse : parseICal raw=some cal)
    (hout : instancesIn cal (ntNanos reqStart) (ntNanos reqEnd)=some out) :
    Mailbox.seriesOccupies (I.expanding parseICal) props reqStart reqEnd=true ↔ out≠[] := by
  simp [Mailbox.seriesOccupies,hprops,ICal.expanding,hparse,Oxcical.occurrencesIn,hout]

section Finds

variable (cal : List Event) (m : Event) (s : Series) (rangeStart rangeEnd : Int)

/-- The expansion is exact, and a request meets every occurrence in the window. -/
def FindsOccurrences : Prop :=
  Exact cal m s rangeStart rangeEnd ∧
    ∀ (I : ICal) (parseICal : Bytes → Option (List Event)) (props : PropertyValues) (raw : Bytes)
      (reqStart reqEnd : Instant) (x : Instance),
      props.get prIcalOriginal=some (.bytes raw) → parseICal raw=some cal →
      ntNanos reqStart=rangeStart → ntNanos reqEnd=rangeEnd →
      Occurs m s cal x → x.span.overlaps rangeStart rangeEnd=true →
      Mailbox.seriesOccupies (I.expanding parseICal) props reqStart reqEnd=true

end Finds

theorem series_found_iff {cal : List Event} {m : Event} {s : Series} {rangeStart rangeEnd : Int}
    (hm : master cal = some m) (hs : m.seriesShape = some s) (hutc : s.zone = utc)
    (hreached : s.Reached rangeEnd) (hfits : s.Fits rangeEnd) :
    FindsOccurrences cal m s rangeStart rangeEnd ↔ Findable cal m s rangeStart rangeEnd := by
  rw [← exact_iff_findable hm hs hutc hreached hfits]
  constructor
  · exact And.left
  · intro hexact
    refine ⟨hexact,?_⟩
    rintro I parseICal props raw reqStart reqEnd x hprops hparse rfl rfl hx hover
    obtain ⟨out,hout,-,hmem⟩ := hexact
    apply (seriesOccupies_expanding I parseICal reqStart reqEnd hprops hparse hout).mpr
    exact List.ne_nil_of_mem ((hmem x).mpr ⟨hx,hover⟩)

def twoMorningsRule : Recurrence := ⟨.daily,1,2,none,[],0,0,0⟩

def twoMornings : Event :=
  ⟨none,some 32400,false,none,some 39600,none,false,some (some twoMorningsRule),[],[]⟩

def twoMorningsSeries : Series := ⟨32400,false,utc,7200,some twoMorningsRule⟩

theorem twoMornings_bounded (n : Nat) :
    twoMorningsRule.bounded (periods (twoMorningsRule.period 32400) 0 (n+2)) = [32400,118800] := by
  rw [periods_succ,periods_succ]
  simp [twoMorningsRule,Recurrence.period,Recurrence.bounded]

theorem twoMornings_defines {t : Int} (h : twoMorningsRule.Defines utc 32400 t) :
    t∈[32400,118800] := by
  obtain ⟨n,h⟩ := (Recurrence.defines_utc t).mp h
  rcases n with _ | _ | n
  · simp [periods,Recurrence.bounded] at h
  · exact List.mem_append_left [118800] h
  · rwa [twoMornings_bounded] at h

theorem twoMornings_reached (rangeEnd : Int) : twoMorningsSeries.Reached rangeEnd := by
  intro rule t hrule h _
  cases hrule
  exact (twoMornings_bounded 4094).symm ▸ twoMornings_defines h

theorem twoMornings_fits (rangeEnd : Int) : twoMorningsSeries.Fits rangeEnd := by
  intro rule hrule i hi
  cases hrule
  have hi : i<4096 := hi.1
  have hextent : twoMorningsRule.extent 32400 i=(32400+86400*(i : Int),32400+86400*(i : Int)) := by
    simp [Recurrence.extent,twoMorningsRule]
  simp only [twoMorningsSeries,hextent,Recurrence.InRange]
  omega

/-- A request for the first day meets the first morning. -/
theorem series_found_iff_first_day :
    FindsOccurrences [twoMornings] twoMornings twoMorningsSeries 0 (nanos 86400) := by
  apply (series_found_iff rfl rfl rfl (twoMornings_reached _) (twoMornings_fits _)).mpr
  constructor
  · intro t ht
    have hdef := ht.defined.resolve_right (by simp [twoMornings])
    have hmem := twoMornings_defines hdef
    simp only [List.mem_cons,List.not_mem_nil,or_false] at hmem
    rcases hmem with rfl | rfl <;> decide
  · intro rule hrule hweekly
    cases hrule
    simp [twoMorningsRule] at hweekly
  · intro t c span hc
    have hnone : (overridesOf [twoMornings]).at t=none := by
      simp [overridesOf,Overrides.record,twoMornings,Overrides.at,Table.get,Table.empty]
    cases hc

/-- At 10:00 the first morning still runs, and the window counts as free. -/
theorem series_running_unseen :
    let running : Instance := ⟨32400,32400,39600⟩
    Occurs twoMornings twoMorningsSeries [twoMornings] running ∧
      running.span.overlaps (nanos 36000) (nanos 37800) = true ∧
      instancesIn [twoMornings] (nanos 36000) (nanos 37800) = some [] ∧
      (∀ (I : ICal) (raw : Bytes),Mailbox.seriesOccupies (I.expanding fun _ => some [twoMornings])
        [(prIcalOriginal,.bytes raw)] (ntOf 36000) (ntOf 37800) = false) ∧
      ¬ FindsOccurrences [twoMornings] twoMornings twoMorningsSeries (nanos 36000)
        (nanos 37800) := by
  have hoccurs : Occurs twoMornings twoMorningsSeries [twoMornings] ⟨32400,32400,39600⟩ :=
    ⟨.inl ⟨1,by decide⟩,by decide,by decide⟩
  have hover : Span.overlaps ⟨32400,39600⟩ (nanos 36000) (nanos 37800)=true := by decide
  have hnone : instancesIn [twoMornings] (nanos 36000) (nanos 37800)=some [] := by decide +kernel
  refine ⟨hoccurs,hover,hnone,?_,?_⟩
  · intro I raw
    have hprops : PropertyValues.get [(prIcalOriginal,.bytes raw)] prIcalOriginal =
        some (.bytes raw) := by simp [PropertyValues.get]
    have hfree := seriesOccupies_expanding I (fun _ => some [twoMornings]) (ntOf 36000)
      (ntOf 37800) hprops rfl hnone
    simpa using hfree
  · rintro ⟨⟨out,hout,-,hmem⟩,-⟩
    obtain rfl := Option.some.inj (hnone.symm.trans hout)
    exact List.not_mem_nil ((hmem _).mpr ⟨hoccurs,hover⟩)

end HermEX.Meeting
