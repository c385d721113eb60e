import HermEX.Oxcical.Expansion
import Mathlib.Data.List.Induction

namespace HermEX.Oxcical

open Framework

def occurrenceInstantOf : List Event → Option Int
  | [c] => c.recurrenceID.join
  | _ => none

def Event.isOverrideAt (instant : Int) (c : Event) : Bool := c.recurrenceID=some (some instant)

def Event.isMaster (c : Event) : Bool := c.recurrenceID.isNone && c.rrule.isSome

def mergeOverride (stored update : List Event) : Option (List Event) :=
  if !stored.any Event.isMaster then none
  else (occurrenceInstantOf update).bind fun instant =>
    (update.find? (Event.isOverrideAt instant)).map fun override =>
      stored.filter (fun c => !c.isOverrideAt instant)++[override]

def Event.exclude (instant : Int) (c : Event) : Event :=
  if c.exdates.contains instant then c else {c with exdates:=c.exdates++[instant]}

def excludeInMaster (instant : Int) : List Event → List Event
  | [] => []
  | c::cs =>
    if c.isMaster && !cs.any Event.isMaster then c.exclude instant::cs
    else c::excludeInMaster instant cs

def cancelOccurrence (stored : List Event) (instant : Int) : Option (List Event) :=
  if !stored.any Event.isMaster then none
  else some (excludeInMaster instant (stored.filter fun c => !c.isOverrideAt instant))

def Occurrence (cal : List Event) (x : Instance) : Prop :=
  ∃ m s,master cal=some m ∧ m.seriesShape=some s ∧ Occurs m s cal x

variable (cal : List Event) {c : Event} (instant : Int) {stored : List Event}

theorem at_overridesOf (t : Int) :
    (overridesOf cal).at t=(cal.filter (Event.isOverrideAt t)).getLast? := by
  induction cal using List.reverseRecOn with
  | nil => simp [overridesOf,Overrides.at,Table.get,Table.empty]
  | append_singleton cal c ih =>
    have hstep : overridesOf (cal++[c])=(overridesOf cal).record c := by simp [overridesOf]
    rw [hstep,List.filter_append]
    cases hid : c.recurrenceID with
    | none => simp [Overrides.record,hid,Event.isOverrideAt,ih]
    | some r =>
      cases r with
      | none => simp [Overrides.record,hid,Event.isOverrideAt,ih]
      | some t' =>
        have hput : ((overridesOf cal).record c).at t =
            if t=t' then some c else (overridesOf cal).at t := by
          simp only [Overrides.record,hid,Overrides.at,Table.get_put]
          split_ifs <;> rfl
        rw [hput,ih]
        by_cases ht : t=t'
        · simp [ht,Event.isOverrideAt,hid]
        · have ht' : t'≠t := fun he => ht he.symm
          simp [ht,ht',Event.isOverrideAt,hid]

theorem master_append_override {cal : List Event} (h : c.recurrenceID.isSome=true) :
    master (cal++[c])=master cal := by
  have hc : c.recurrenceID.isNone=false := by simpa using h
  simp [master,hc]

theorem master_drop_override :
    master (cal.filter fun c => !c.isOverrideAt instant)=master cal := by
  induction cal with
  | nil => rfl
  | cons c cs ih =>
    simp only [master] at ih ⊢
    by_cases ho : c.isOverrideAt instant=true
    · have hc : c.recurrenceID.isNone=false := by
        simp only [Event.isOverrideAt,decide_eq_true_eq] at ho
        simp [ho]
      simp [ho,hc,ih]
    · simp [ho,List.find?_cons,ih]

theorem overrides_drop_other {cal : List Event} {instant t : Int} (h : t≠instant) :
    (cal.filter fun c => !c.isOverrideAt instant).filter (Event.isOverrideAt t) =
      cal.filter (Event.isOverrideAt t) := by
  rw [List.filter_filter]
  apply List.filter_congr
  intro c _
  by_cases hc : c.recurrenceID=some (some t)
  · simp [Event.isOverrideAt,hc,h]
  · simp [Event.isOverrideAt,hc]

theorem mergeOverride_occurrence {update merged : List Event} {x : Instance}
    (h : mergeOverride stored update=some merged) (hx : Occurrence merged x) :
    Occurrence stored x ∨ ∃ c∈update,occurrenceInstantOf update=some x.instant ∧
      ∃ dur,x.span=overrideSpan c x.instant dur := by
  simp only [mergeOverride] at h
  split_ifs at h
  obtain ⟨instant,hinstant,h⟩ := Option.bind_eq_some_iff.mp h
  obtain ⟨c,hfind,rfl⟩ := Option.map_eq_some_iff.mp h
  have hc : c.recurrenceID=some (some instant) := by
    simpa [Event.isOverrideAt] using List.find?_some hfind
  obtain ⟨m,s,hm,hs,hocc⟩ := hx
  rw [master_append_override (by simp [hc]),master_drop_override] at hm
  have hover : ∀ t,(overridesOf (stored.filter (fun c => !c.isOverrideAt instant)++[c])).at t =
      if t=instant then some c else (overridesOf stored).at t := by
    intro t
    rw [at_overridesOf,at_overridesOf,List.filter_append]
    split_ifs with ht
    · subst ht
      simp [Event.isOverrideAt,hc]
    · have hne : c.isOverrideAt t=false := by
        simp only [Event.isOverrideAt,hc,decide_eq_false_iff_not,Option.some.injEq]
        exact fun he => ht he.symm
      rw [overrides_drop_other ht]
      simp [hne]
  by_cases ht : x.instant=instant
  · right
    refine ⟨c,List.mem_of_find?_eq_some hfind,by rw [ht]; exact hinstant,s.dur,?_⟩
    have hlive := hocc.live
    rw [hover,if_pos ht] at hlive
    simp only [instanceSpan] at hlive
    split_ifs at hlive
    exact (Option.some.inj hlive).symm
  · left
    refine ⟨m,s,hm,hs,hocc.defined,hocc.kept,?_⟩
    have hlive := hocc.live
    rwa [hover,if_neg ht] at hlive

def OneMaster (cal : List Event) : Prop := (cal.map (·.recurrenceID)).count none≤1

theorem OneMaster.sublist {cal cal' : List Event} (h : OneMaster cal) (hs : cal'.Sublist cal) :
    OneMaster cal' :=
  ((hs.map _).count_le none).trans h

theorem OneMaster.cons_master {cs : List Event} (h : OneMaster (c::cs)) (hc : c.recurrenceID=none) :
    cs.any Event.isMaster=false := by
  have hcount : (cs.map (·.recurrenceID)).count none=0 := by
    simp only [OneMaster,List.map_cons,hc,List.count_cons_self] at h
    omega
  rw [List.any_eq_false]
  intro d hd hmaster
  have hnone : d.recurrenceID=none := by
    simp only [Event.isMaster,Bool.and_eq_true,Option.isNone_iff_eq_none] at hmaster
    exact hmaster.1
  exact List.count_eq_zero.mp hcount (List.mem_map.mpr ⟨d,hd,hnone⟩)

theorem OneMaster.merge {update merged : List Event} (h : OneMaster stored)
    (hm : mergeOverride stored update=some merged) : OneMaster merged := by
  simp only [mergeOverride] at hm
  split_ifs at hm
  obtain ⟨instant,-,hm⟩ := Option.bind_eq_some_iff.mp hm
  obtain ⟨c,hfind,rfl⟩ := Option.map_eq_some_iff.mp hm
  have hc : c.recurrenceID=some (some instant) := by
    simpa [Event.isOverrideAt] using List.find?_some hfind
  have hkept := h.sublist (List.filter_sublist (p := fun c => !c.isOverrideAt instant))
  simpa [OneMaster,hc] using hkept

@[simp] theorem Event.exclude_recurrenceID (c : Event) :
    (c.exclude instant).recurrenceID=c.recurrenceID := by
  unfold exclude
  split_ifs <;> rfl

@[simp] theorem Event.exclude_seriesShape (c : Event) :
    (c.exclude instant).seriesShape=c.seriesShape := by
  unfold exclude
  split_ifs <;> rfl

theorem Event.mem_exclude {instant t : Int} :
    t∈(c.exclude instant).exdates ↔ t∈c.exdates ∨ t=instant := by
  unfold exclude
  split_ifs with h
  · rw [List.contains_eq_mem,decide_eq_true_eq] at h
    constructor
    · exact .inl
    · rintro (h' | rfl)
      · exact h'
      · exact h
  · simp

theorem excludeInMaster_ids (cal : List Event) :
    (excludeInMaster instant cal).map (·.recurrenceID)=cal.map (·.recurrenceID) := by
  induction cal with
  | nil => rfl
  | cons c cs ih =>
    simp only [excludeInMaster]
    split_ifs
    · simp
    · simp [ih]

theorem excludeInMaster_overrides (t : Int) (cal : List Event) :
    (excludeInMaster instant cal).filter (Event.isOverrideAt t) =
      cal.filter (Event.isOverrideAt t) := by
  induction cal with
  | nil => rfl
  | cons c cs ih =>
    simp only [excludeInMaster]
    split_ifs with hc
    · have hnone : c.recurrenceID=none := by
        simp only [Event.isMaster,Bool.and_eq_true,Option.isNone_iff_eq_none] at hc
        exact hc.1.1
      simp [Event.isOverrideAt,hnone]
    · simp [List.filter_cons,ih]

theorem master_excludeInMaster {cal : List Event} (h : OneMaster cal)
    (hany : cal.any Event.isMaster=true) :
    master (excludeInMaster instant cal)=(master cal).map (Event.exclude instant) := by
  induction cal with
  | nil => simp at hany
  | cons c cs ih =>
    cases hid : c.recurrenceID with
    | none =>
      have hcs := h.cons_master hid
      rw [List.any_cons,hcs,Bool.or_false] at hany
      simp [excludeInMaster,hany,hcs,master,hid]
    | some r =>
      have hc : c.isMaster=false := by simp [Event.isMaster,hid]
      rw [List.any_cons,hc,Bool.false_or] at hany
      have htail := ih (h.sublist (List.sublist_cons_self c cs)) hany
      simp only [master] at htail ⊢
      simp [excludeInMaster,hc,hid,htail]

theorem cancelOccurrence_occurrence {trimmed : List Event} {instant : Int} {x : Instance}
    (hone : OneMaster stored) (h : cancelOccurrence stored instant=some trimmed)
    (hx : Occurrence trimmed x) : Occurrence stored x := by
  simp only [cancelOccurrence] at h
  split_ifs at h with hany
  cases h
  have hkept := hone.sublist (List.filter_sublist (p := fun c => !c.isOverrideAt instant))
  have hmaster : (stored.filter fun c => !c.isOverrideAt instant).any Event.isMaster=true := by
    simp only [Bool.not_eq_true',Bool.not_eq_false] at hany
    obtain ⟨c,hc,hcm⟩ := List.any_eq_true.mp hany
    refine List.any_eq_true.mpr ⟨c,List.mem_filter.mpr ⟨hc,?_⟩,hcm⟩
    simp only [Event.isMaster,Bool.and_eq_true,Option.isNone_iff_eq_none] at hcm
    simp [Event.isOverrideAt,hcm.1]
  obtain ⟨m',s,hm,hs,hocc⟩ := hx
  rw [master_excludeInMaster instant hkept hmaster,master_drop_override] at hm
  obtain ⟨m,hm',rfl⟩ := Option.map_eq_some_iff.mp hm
  rw [Event.exclude_seriesShape] at hs
  have hne : x.instant∉m.exdates ∧ x.instant≠instant := by
    have hk := hocc.kept
    rw [Event.mem_exclude,not_or] at hk
    exact hk
  refine ⟨m,s,hm',hs,?_,hne.1,?_⟩
  · have hdef := hocc.defined
    simp only [Event.exclude] at hdef ⊢
    split_ifs at hdef <;> exact hdef
  · have hlive := hocc.live
    rwa [at_overridesOf,excludeInMaster_overrides,overrides_drop_other hne.2,
      ← at_overridesOf] at hlive

theorem OneMaster.cancel {trimmed : List Event} {instant : Int} (h : OneMaster stored)
    (hc : cancelOccurrence stored instant=some trimmed) : OneMaster trimmed := by
  simp only [cancelOccurrence] at hc
  split_ifs at hc
  cases hc
  simp only [OneMaster,excludeInMaster_ids]
  exact h.sublist List.filter_sublist

end HermEX.Oxcical
