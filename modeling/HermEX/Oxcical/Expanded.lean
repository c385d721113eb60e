import HermEX.Oxcical.Expansion

namespace HermEX.Oxcical

abbrev Times := Option Int×Option Int×Option Int

def Instance.times (x : Instance) : Times := (some x.instant,some x.span.start,some x.span.finish)

def Event.times (c : Event) : Times := (c.recurrenceID.join,c.dtstart,c.dtstart.map c.eventEnd)

def dated (allDay : Bool) (t : Int) : Int := if allDay then t-t%86400 else t

section Expand

-- `alone` is how the component of an override is read without the VTIMEZONEs of the object.
variable (alone : Event → Event) (cal : List Event) (m : Event) (s : Series) (rangeStart rangeEnd : Int)

def writeInstant (t : Int) : Times×Bool :=
  match (overridesOf cal).at t with
  | some ov => ((alone ov).times,(alone ov).cancelled)
  | none =>
    ((some (dated s.allDay t),some (dated s.allDay t),some (dated s.allDay (t+s.dur))),m.cancelled)

def expandRecurrence : Option (List (Times×Bool)) :=
  (master cal).bind fun m => m.seriesShape.map fun s =>
    (seriesInstants m s m.exdates rangeStart rangeEnd).map (writeInstant alone cal m s)

/-- Overrides are written live just where their span is shown, with it; the rest is neither
cancelled nor rounded. -/
structure Unmoved : Prop where
  override : ∀ t ov,(overridesOf cal).at t=some ov → t∉m.exdates →
    ((s.Scanned m rangeEnd t ∧ inWindow rangeStart rangeEnd t=true) ∧ (alone ov).cancelled=false ↔
      ov.cancelled=false ∧ (overrideSpan ov t s.dur).overlaps rangeStart rangeEnd=true) ∧
    (ov.cancelled=false → (overrideSpan ov t s.dur).overlaps rangeStart rangeEnd=true →
      (alone ov).times=Instance.times ⟨t,overrideSpan ov t s.dur⟩)
  plain : ∀ t∈seriesInstants m s m.exdates rangeStart rangeEnd,(overridesOf cal).at t=none →
    m.cancelled=false ∧ dated s.allDay t=t ∧ dated s.allDay (t+s.dur)=t+s.dur

end Expand

variable {alone : Event → Event} {cal : List Event} {m : Event} {s : Series}
  {rangeStart rangeEnd : Int}

theorem dated_dated (allDay : Bool) (t : Int) : dated allDay (dated allDay t)=dated allDay t := by
  cases allDay with
  | false => rfl
  | true =>
    simp only [dated,if_true]
    omega

theorem shown_plain {t : Int} (ht : t∈seriesInstants m s m.exdates rangeStart rangeEnd)
    (hnone : (overridesOf cal).at t=none) :
    Shown cal m s rangeStart rangeEnd ⟨t,t,t+s.dur⟩ := by
  obtain ⟨hscan,hin,hskip⟩ := mem_seriesInstants.mp ht
  refine ⟨hskip,by rw [hnone]; rfl,?_,.inr ⟨hscan,hin⟩⟩
  simp only [inWindow,Bool.and_eq_true,decide_eq_true_eq] at hin
  simp only [Span.overlaps,overlapsRange]
  split_ifs with hlong
  · simp only [Bool.and_eq_true,decide_eq_true_eq]
    omega
  · simpa using hin

theorem shown_override {ov : Event} {t : Int} {span : Span} (hov : (overridesOf cal).at t=some ov)
    (hskip : t∉m.exdates) :
    Shown cal m s rangeStart rangeEnd ⟨t,span⟩ ↔ ov.cancelled=false ∧
      overrideSpan ov t s.dur=span ∧ span.overlaps rangeStart rangeEnd=true := by
  have hspan : instanceSpan (some ov) t s.dur=some span ↔
      ov.cancelled=false ∧ overrideSpan ov t s.dur=span := by
    cases hc : ov.cancelled <;> simp [instanceSpan,hc]
  constructor
  · rintro ⟨-,hshown,hover,-⟩
    rw [hov,hspan] at hshown
    exact ⟨hshown.1,hshown.2,hover⟩
  · rintro ⟨hlive,hfits,hover⟩
    exact ⟨hskip,by rw [hov,hspan]; exact ⟨hlive,hfits⟩,hover,.inl (by simp [hov])⟩

def twoDays : Recurrence := ⟨.daily,1,2,none,[],0,0,0⟩

def twoDaysMaster : Event :=
  ⟨none,some 0,false,none,some 3600,none,false,some (some twoDays),[],[]⟩

def twoDaysSeries : Series := ⟨0,false,utc,3600,some twoDays⟩

def secondDay : Event := ⟨some (some 86400),some 90000,false,none,some 93600,none,false,none,[],[]⟩

theorem secondDay_at {t : Int} {ov : Event}
    (h : (overridesOf [twoDaysMaster,secondDay]).at t=some ov) : t=86400 ∧ ov=secondDay := by
  have hrows : (overridesOf [twoDaysMaster,secondDay]).rows=[(86400,secondDay)] := rfl
  have hmem := Framework.Table.mem_rows.mpr (Overrides.at_eq_some.mp h)
  simpa [hrows] using hmem

end HermEX.Oxcical
