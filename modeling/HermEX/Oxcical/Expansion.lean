import HermEX.Oxcical.Occurrences
import HermEX.Oxcical.Utc

namespace HermEX.Oxcical

open Framework

section Defines

variable (m : Event) (s : Series)

def Series.Defines (t : Int) : Prop :=
  (match s.rule with
    | some rule => rule.Defines s.zone s.start t
    | none => t=s.start) ∨ t∈m.addedInstants

def Series.Scanned (rangeEnd t : Int) : Prop :=
  (match s.rule with
    | some rule => t∈(s.zone.clock time64).visited rule s.start rangeEnd 4096
    | none => t=s.start) ∨ t∈m.addedInstants

/-- Not excluded, not cancelled, at its override's span. -/
structure Occurs (cal : List Event) (x : Instance) : Prop where
  defined : s.Defines m x.instant
  kept : x.instant∉m.exdates
  live : instanceSpan ((overridesOf cal).at x.instant) x.instant s.dur=some x.span

end Defines

theorem Recurrence.bounded_take (r : Recurrence) (n : Nat) (xs : List Int) :
    r.bounded (xs.take n)=(r.bounded xs).take n := by
  have htake : ∀ (p : Int → Bool) (ys : List Int) (k : Nat),
      (ys.take k).takeWhile p=(ys.takeWhile p).take k := by
    intro p ys
    induction ys with
    | nil => simp
    | cons y ys ih =>
      intro k
      cases k with
      | zero => simp
      | succ k =>
        cases hp : p y with
        | true => simp [hp,ih]
        | false => simp [hp]
  simp only [bounded]
  split_ifs
  · rw [List.take_take,Nat.min_comm,← List.take_take,htake]
  · exact htake _ xs n

theorem mem_foldl_addInstant (skip xs out : List Int) (t : Int) :
    t∈xs.foldl (addInstant skip) out ↔ t∈out ∨ (t∈xs ∧ t∉skip) := by
  induction xs generalizing out with
  | nil => simp
  | cons x xs ih =>
    rw [List.foldl_cons,ih]
    have hstep : t∈addInstant skip out x ↔ t∈out ∨ (t=x ∧ t∉skip) := by
      simp only [addInstant,List.contains_eq_mem,Bool.or_eq_true,decide_eq_true_eq]
      split_ifs with h
      · constructor
        · exact .inl
        · rintro (h' | ⟨rfl,hs⟩)
          · exact h'
          · exact h.resolve_left hs
      · rw [not_or] at h
        simp only [List.mem_append,List.mem_singleton]
        constructor
        · rintro (h' | rfl)
          · exact .inl h'
          · exact .inr ⟨rfl,h.1⟩
        · rintro (h' | ⟨rfl,-⟩)
          · exact .inl h'
          · exact .inr rfl
    rw [hstep,List.mem_cons]
    tauto

theorem nodup_foldl_addInstant (skip xs : List Int) {out : List Int} (h : out.Nodup) :
    (xs.foldl (addInstant skip) out).Nodup := by
  induction xs generalizing out with
  | nil => exact h
  | cons x xs ih =>
    apply ih
    simp only [addInstant]
    split_ifs with hx
    · exact h
    simp only [List.contains_eq_mem,Bool.or_eq_true,decide_eq_true_eq,not_or] at hx
    rw [List.nodup_append]
    refine ⟨h,by simp,?_⟩
    intro a ha b hb hab
    rw [List.mem_singleton.mp hb] at hab
    exact hx.2 (hab ▸ ha)

variable {x : Instance}

section Returned

variable {cal : List Event} {m : Event} {s : Series} {rangeStart rangeEnd : Int}

variable {t : Int} {skip : List Int} {overrides : Overrides}

theorem mem_generated :
    (t∈s.generated rangeStart rangeEnd ∨
      t∈m.addedInstants.filter (inWindow rangeStart rangeEnd)) ↔
      s.Scanned m rangeEnd t ∧ inWindow rangeStart rangeEnd t=true := by
  cases hrule : s.rule with
  | some rule =>
    simp only [Series.generated,Series.Scanned,hrule,Clock.occurrences_visited,List.mem_filter]
    tauto
  | none =>
    simp only [Series.generated,Series.Scanned,hrule,List.mem_filter,List.mem_singleton]
    tauto

theorem mem_seriesInstants :
    t∈seriesInstants m s skip rangeStart rangeEnd ↔
      s.Scanned m rangeEnd t ∧ inWindow rangeStart rangeEnd t=true ∧ t∉skip := by
  simp only [seriesInstants]
  rw [List.mem_insertionSort,mem_foldl_addInstant,List.mem_append,mem_generated]
  simp [and_assoc]

theorem nodup_seriesInstants : (seriesInstants m s skip rangeStart rangeEnd).Nodup := by
  have hfold := nodup_foldl_addInstant skip (s.generated rangeStart rangeEnd ++
    m.addedInstants.filter (inWindow rangeStart rangeEnd)) List.nodup_nil
  exact (List.perm_insertionSort _ _).nodup_iff.mpr hfold

/-- An override at its own time, other instants by their start. -/
structure Shown (cal : List Event) (m : Event) (s : Series) (rangeStart rangeEnd : Int)
    (x : Instance) : Prop where
  kept : x.instant∉m.exdates
  live : instanceSpan ((overridesOf cal).at x.instant) x.instant s.dur=some x.span
  overlaps : x.span.overlaps rangeStart rangeEnd=true
  found : ((overridesOf cal).at x.instant).isSome=true ∨
    (s.Scanned m rangeEnd x.instant ∧ inWindow rangeStart rangeEnd x.instant=true)

theorem Overrides.at_eq_some {c : Event} : overrides.at t=some c ↔ (t,c)∈overrides := by
  simp only [Overrides.at,Option.map_eq_some_iff,Table.get_eq_some]
  constructor
  · rintro ⟨x,⟨hx,rfl⟩,rfl⟩
    exact hx
  · intro h
    exact ⟨(t,c),⟨h,rfl⟩,rfl⟩

theorem mem_overrideInstances {dur : Int} :
    x∈overrideInstances overrides skip dur rangeStart rangeEnd ↔
      ∃ c,overrides.at x.instant=some c ∧ x.instant∉skip ∧
        instanceSpan (some c) x.instant dur=some x.span ∧
        x.span.overlaps rangeStart rangeEnd=true := by
  simp only [overrideInstances,List.mem_filterMap]
  constructor
  · rintro ⟨⟨t,c⟩,hc,h⟩
    split_ifs at h with hskip
    obtain ⟨span,hspan,rfl⟩ := Option.map_eq_some_iff.mp h
    obtain ⟨hlive,hover⟩ := Option.filter_eq_some_iff.mp hspan
    exact ⟨c,Overrides.at_eq_some.mpr hc,by simpa using hskip,hlive,hover⟩
  · rintro ⟨c,hc,hskip,hlive,hover⟩
    refine ⟨(x.instant,c),Overrides.at_eq_some.mp hc,?_⟩
    have hspan : (instanceSpan (some c) x.instant dur).filter
        (·.overlaps rangeStart rangeEnd)=some x.span :=
      Option.filter_eq_some_iff.mpr ⟨hlive,hover⟩
    simp [hskip,hspan]

theorem mem_plainInstances {instants : List Int} {dur : Int} :
    x∈plainInstances overrides instants dur rangeStart rangeEnd ↔
      x.instant∈instants ∧ overrides.at x.instant=none ∧
        instanceSpan none x.instant dur=some x.span ∧
        x.span.overlaps rangeStart rangeEnd=true := by
  simp only [plainInstances,List.mem_filterMap,instanceSpan,Option.some.injEq]
  constructor
  · rintro ⟨t,ht,h⟩
    split_ifs at h with hnone hover
    cases h
    exact ⟨ht,by simpa using hnone,rfl,hover⟩
  · rintro ⟨ht,hnone,hspan,hover⟩
    refine ⟨x.instant,ht,?_⟩
    rw [hspan,if_neg (by simp [hnone]),if_pos hover]

theorem filterMap_keys {α β κ : Type} {f : α → Option β} {k : α → κ} {g : β → κ}
    (h : ∀ x y,f x=some y → g y=k x) (xs : List α) :
    ((xs.filterMap f).map g).Sublist (xs.map k) := by
  induction xs with
  | nil => simp
  | cons x xs ih =>
    cases hf : f x with
    | none =>
      rw [List.filterMap_cons_none hf,List.map_cons]
      exact ih.cons (k x)
    | some y =>
      rw [List.filterMap_cons_some hf,List.map_cons,List.map_cons,h x y hf]
      exact ih.cons_cons (k x)

theorem instancesIn_shown (hm : master cal=some m) (hs : m.seriesShape=some s)
    (rangeStart rangeEnd : Int) :
    ∃ out,instancesIn cal rangeStart rangeEnd=some out ∧ (out.map (·.instant)).Nodup ∧
      ∀ x,x∈out ↔ Shown cal m s rangeStart rangeEnd x := by
  simp only [instancesIn,hm,hs,Option.bind_some,Option.map_some,Option.some.injEq,exists_eq_left']
  constructor
  · rw [((List.perm_insertionSort _ _).map _).nodup_iff,List.map_append,List.nodup_append]
    refine ⟨?_,?_,?_⟩
    · refine (filterMap_keys ?_ _).nodup (overridesOf cal).unique
      intro x y h
      split_ifs at h
      obtain ⟨span,-,rfl⟩ := Option.map_eq_some_iff.mp h
      rfl
    · refine (filterMap_keys (k := id) ?_ _).nodup (by simpa using nodup_seriesInstants)
      intro t y h
      split_ifs at h
      cases h
      rfl
    · intro t ht t' ht' he
      obtain ⟨x,hx,rfl⟩ := List.mem_map.mp ht
      obtain ⟨y,hy,rfl⟩ := List.mem_map.mp ht'
      obtain ⟨c,hc,-⟩ := mem_overrideInstances.mp hx
      obtain ⟨-,hnone,-⟩ := mem_plainInstances.mp hy
      rw [he,hnone] at hc
      cases hc
  · intro x
    rw [List.mem_insertionSort,List.mem_append,mem_overrideInstances,mem_plainInstances,
      mem_seriesInstants]
    constructor
    · rintro (⟨c,hc,hskip,hlive,hover⟩ | ⟨⟨hscan,hin,hskip⟩,hnone,hlive,hover⟩)
      · exact ⟨hskip,hc ▸ hlive,hover,.inl (by simp [hc])⟩
      · exact ⟨hskip,hnone ▸ hlive,hover,.inr ⟨hscan,hin⟩⟩
    · rintro ⟨hskip,hlive,hover,hfound⟩
      cases hc : (overridesOf cal).at x.instant with
      | some c =>
        rw [hc] at hlive
        exact .inl ⟨c,rfl,hskip,hlive,hover⟩
      | none =>
        rw [hc] at hlive hfound
        obtain ⟨hscan,hin⟩ := hfound.resolve_left (by simp)
        exact .inr ⟨⟨hscan,hin,hskip⟩,rfl,hlive,hover⟩

end Returned

section Exact

variable (cal : List Event) (m : Event) (s : Series) (rangeStart rangeEnd : Int)

/-- The occurrences that overlap the window, each once. -/
def Exact : Prop :=
  ∃ out,instancesIn cal rangeStart rangeEnd=some out ∧ (out.map (·.instant)).Nodup ∧
    ∀ x,x∈out ↔ Occurs m s cal x ∧ x.span.overlaps rangeStart rangeEnd=true

/-- Without an override, and overlapping the window. -/
structure Plain (t : Int) : Prop where
  defined : s.Defines m t
  kept : t∉m.exdates
  plain : (overridesOf cal).at t=none
  overlaps : Span.overlaps ⟨t,t+s.dur⟩ rangeStart rangeEnd=true

def Named : Prop :=
  ∀ t c span,(overridesOf cal).at t=some c → t∉m.exdates →
    instanceSpan (some c) t s.dur=some span → span.overlaps rangeStart rangeEnd=true →
    s.Defines m t

variable {cal m s rangeStart rangeEnd}

theorem Span.start_lt_of_overlaps {x : Span} (h : x.overlaps rangeStart rangeEnd=true) :
    nanos x.start < rangeEnd := by
  simp only [overlaps,overlapsRange] at h
  split_ifs at h <;> simp_all

theorem Occurs.shown (hx : Occurs m s cal x) (hover : x.span.overlaps rangeStart rangeEnd=true)
    (h : ∀ t,Plain cal m s rangeStart rangeEnd t → rangeStart≤nanos t ∧ s.Scanned m rangeEnd t) :
    Shown cal m s rangeStart rangeEnd x := by
  refine ⟨hx.kept,hx.live,hover,?_⟩
  cases hc : (overridesOf cal).at x.instant with
  | some c => exact .inl rfl
  | none =>
    have hlive := hx.live
    rw [hc] at hlive
    have hspan : x.span=⟨x.instant,x.instant+s.dur⟩ := (Option.some.inj hlive).symm
    rw [hspan] at hover
    obtain ⟨hstart,hscan⟩ := h _ ⟨hx.defined,hx.kept,hc,hover⟩
    have hlt : nanos x.instant < rangeEnd := Span.start_lt_of_overlaps hover
    exact .inr ⟨hscan,by simp [inWindow,hstart,hlt]⟩

theorem exact_iff (hm : master cal=some m) (hs : m.seriesShape=some s)
    (hdefined : ∀ t,s.Scanned m rangeEnd t → inWindow rangeStart rangeEnd t=true → s.Defines m t) :
    Exact cal m s rangeStart rangeEnd ↔
      (∀ t,Plain cal m s rangeStart rangeEnd t → rangeStart≤nanos t ∧ s.Scanned m rangeEnd t) ∧
        Named cal m s rangeStart rangeEnd := by
  obtain ⟨out,hout,hnodup,hshown⟩ := instancesIn_shown hm hs rangeStart rangeEnd
  constructor
  · rintro ⟨out',hout',-,hexact⟩
    obtain rfl := Option.some.inj (hout.symm.trans hout')
    constructor
    · intro t ht
      have hlive : instanceSpan ((overridesOf cal).at t) t s.dur=some ⟨t,t+s.dur⟩ := by
        rw [ht.plain]
        rfl
      have hmem := (hexact ⟨t,t,t+s.dur⟩).mpr ⟨⟨ht.defined,ht.kept,hlive⟩,ht.overlaps⟩
      have hfound := ((hshown _).mp hmem).found
      obtain ⟨hscan,hin⟩ := hfound.resolve_left (by simp [ht.plain])
      simp only [inWindow,Bool.and_eq_true,decide_eq_true_eq] at hin
      exact ⟨hin.1,hscan⟩
    · intro t c span hc hkept hlive hover
      have hmem := (hshown ⟨t,span⟩).mpr ⟨hkept,by rw [hc]; exact hlive,hover,.inl (by simp [hc])⟩
      exact ((hexact _).mp hmem).1.defined
  · rintro ⟨hplain,hnamed⟩
    refine ⟨out,hout,hnodup,?_⟩
    intro x
    rw [hshown]
    constructor
    · rintro ⟨hkept,hlive,hover,hfound⟩
      refine ⟨⟨?_,hkept,hlive⟩,hover⟩
      cases hc : (overridesOf cal).at x.instant with
      | some c => exact hnamed _ c x.span hc hkept (hc ▸ hlive) hover
      | none =>
        rw [hc] at hfound
        obtain ⟨hscan,hin⟩ := hfound.resolve_left (by simp)
        exact hdefined _ hscan hin
    · rintro ⟨hx,hover⟩
      exact hx.shown hover hplain

variable (cal m s rangeStart rangeEnd)

/-- The scan of 4096 periods comes as far as the window. -/
def Series.Reached : Prop :=
  ∀ rule t,s.rule=some rule → rule.Defines s.zone s.start t → nanos t < rangeEnd →
    t∈rule.bounded (periods (rule.period s.start) 0 4096)

/-- The periods it comes to are in the range of a time. -/
def Series.Fits : Prop := ∀ rule,s.rule=some rule → rule.Fits s.start rangeEnd 4096

/-- Nothing running started before the window, the scan reaches it, and overrides name instants. -/
structure Findable : Prop where
  started : ∀ t,Plain cal m s rangeStart rangeEnd t → rangeStart≤nanos t
  counted : ∀ rule,s.rule=some rule → rule.freq=.weekly → rule.weekdays≠[] →
    ∀ t,Plain cal m s rangeStart rangeEnd t → t∉m.addedInstants →
      t∈(rule.bounded (periods (rule.period s.start) 0 4096)).take 4096
  named : Named cal m s rangeStart rangeEnd

variable {cal m s rangeStart rangeEnd}

theorem Recurrence.mem_scanned {r : Recurrence} {seriesStart t : Int} :
    t∈r.scanned seriesStart 4096 ↔ t∈r.bounded (periods (r.period seriesStart) 0 4096) ∧
      (r.freq=.weekly → r.weekdays≠[] →
        t∈(r.bounded (periods (r.period seriesStart) 0 4096)).take 4096) := by
  have hlimit : scanLimit 4096=4096 := rfl
  simp only [scanned,most,hlimit]
  split_ifs with hdays
  · rw [cut,Option.elim_some,bounded_take]
    exact ⟨fun h => ⟨List.mem_of_mem_take h,fun _ _ => h⟩,fun h => h.2 hdays.1 hdays.2⟩
  · exact ⟨fun h => ⟨h,fun hw hd => absurd ⟨hw,hd⟩ hdays⟩,And.left⟩

theorem Series.mem_visited {rule : Recurrence} {t : Int} (hutc : s.zone=utc)
    (hfits : s.Fits rangeEnd) (hrule : s.rule=some rule)
    (hin : inWindow rangeStart rangeEnd t=true) :
    t∈(s.zone.clock time64).visited rule s.start rangeEnd 4096 ↔ t∈rule.scanned s.start 4096 := by
  have hwindow := Recurrence.visited_window rule s.start rangeStart rangeEnd 4096
  have hmem := congrArg (t∈·) hwindow
  simpa [hutc,(hfits rule hrule).visited,List.mem_filter,hin] using hmem

theorem exact_iff_findable (hm : master cal=some m) (hs : m.seriesShape=some s)
    (hutc : s.zone=utc) (hreached : s.Reached rangeEnd) (hfits : s.Fits rangeEnd) :
    Exact cal m s rangeStart rangeEnd ↔ Findable cal m s rangeStart rangeEnd := by
  rw [exact_iff hm hs]
  · constructor
    · rintro ⟨hplain,hnamed⟩
      refine ⟨fun t ht => (hplain t ht).1,?_,hnamed⟩
      intro rule hrule hweekly hdays t ht hadded
      obtain ⟨hstart,hscan⟩ := hplain t ht
      have hlt := Span.start_lt_of_overlaps ht.overlaps
      have hin : inWindow rangeStart rangeEnd t=true := by simp [inWindow,hstart,hlt]
      have hscan := hscan.resolve_right hadded
      simp only [hrule] at hscan
      rw [s.mem_visited hutc hfits hrule hin,Recurrence.mem_scanned] at hscan
      exact hscan.2 hweekly hdays
    · rintro ⟨hstarted,hcounted,hnamed⟩
      refine ⟨fun t ht => ⟨hstarted t ht,?_⟩,hnamed⟩
      by_cases hadded : t∈m.addedInstants
      · exact .inr hadded
      · have hdef := ht.defined.resolve_right hadded
        have hlt := Span.start_lt_of_overlaps ht.overlaps
        have hin : inWindow rangeStart rangeEnd t=true := by simp [inWindow,hstarted t ht,hlt]
        left
        cases hrule : s.rule with
        | none => simpa [hrule] using hdef
        | some rule =>
          simp only [hrule] at hdef ⊢
          rw [s.mem_visited hutc hfits hrule hin,Recurrence.mem_scanned]
          exact ⟨hreached rule t hrule hdef hlt,
            fun hweekly hdays => hcounted rule hrule hweekly hdays t ht hadded⟩
  · rintro t (hscan | hadded) hin
    · left
      cases hrule : s.rule with
      | none => simpa [hrule] using hscan
      | some rule =>
        simp only [hrule] at hscan ⊢
        rw [s.mem_visited hutc hfits hrule hin,Recurrence.mem_scanned] at hscan
        rw [hutc,Recurrence.defines_utc]
        exact ⟨4096,hscan.1⟩
    · exact .inr hadded

end Exact
end HermEX.Oxcical
