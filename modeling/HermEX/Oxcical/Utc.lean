import HermEX.Oxcical.Visited

namespace HermEX.Oxcical

open Framework Framework.Civil

/-- It tells UTC; between `lo` and `hi` every reading is an instant. -/
structure Clock.Plain (C : Clock) (lo hi : Int) : Prop where
  wall : ∀ t,C.wall t=t
  date : ∀ t,lo≤t → t≤hi → C.date t=t

namespace Clock.Plain

variable {C : Clock} {r : Recurrence} {lo hi seriesStart : Int}

theorem day (h : C.Plain lo hi) (t : Int) : C.day t=t/86400 := by rw [Clock.day,h.wall]

theorem addDays (h : C.Plain lo hi) {t n : Int} (hlo : lo≤t+86400*n) (hhi : t+86400*n≤hi) :
    C.addDate t 0 n=t+86400*n := by
  have hvalue : 86400*(monthStart (monthOf (t/86400)+0)+(dayOf (t/86400)-1)+n)+t%86400 =
      t+86400*n := by
    rw [Int.add_zero,dayOf]
    omega
  rw [addDate,h.wall,h.day,hvalue,h.date _ hlo hhi]

theorem atClock (h : C.Plain lo hi) {d : Int} (hlo : lo≤86400*(d/86400))
    (hhi : 86400*(d/86400)+86400≤hi) :
    C.atClock seriesStart d=Recurrence.atClock seriesStart (d/86400) := by
  have hclock := Recurrence.atClock_bounds seriesStart (d/86400)
  rw [Clock.atClock,h.wall,h.day]
  exact h.date _ (by omega) (by unfold Recurrence.atClock at hclock; omega)

theorem atClock_days {days : List Int} (h : C.Plain lo hi)
    (hdays : ∀ d∈days,lo≤86400*d ∧ 86400*d+86400≤hi) :
    (days.map (86400*·)).map (C.atClock seriesStart)=days.map (Recurrence.atClock seriesStart) := by
  rw [List.map_map]
  apply List.map_congr_left
  intro d hd
  have hd := hdays d hd
  have hwhole : 86400*d/86400=d := by omega
  simp only [Function.comp_apply]
  rw [h.atClock (by omega) (by omega),hwhole]

theorem weekStartMonday (h : C.Plain (86400*Recurrence.weekStartMonday seriesStart)
      (86400*(Recurrence.weekStartMonday seriesStart+7))) :
    C.weekStartMonday seriesStart=86400*Recurrence.weekStartMonday seriesStart := by
  rw [Clock.weekStartMonday,h.day seriesStart]
  unfold Recurrence.weekStartMonday at h ⊢
  generalize hk : (((weekday (seriesStart/86400)).val+6)%7 : Nat)=k at h ⊢
  rw [h.addDays (by omega) (by omega),h.day]
  have hday : (seriesStart+86400*(-(k : Int)))/86400=seriesStart/86400-k := by omega
  rw [hday]
  exact h.date _ (by omega) (by omega)

theorem weekInstances {base : Int} (h : C.Plain (86400*base) (86400*(base+7))) :
    C.weekInstances r seriesStart (86400*base)=r.weekInstances seriesStart base := by
  have hdays : (List.range 7).map (fun off : Nat => C.addDate (86400*base) 0 off) =
      ((List.range 7).map fun off : Nat => base+off).map (86400*·) := by
    rw [List.map_map]
    apply List.map_congr_left
    intro off hoff
    have hoff := List.mem_range.mp hoff
    simp only [Function.comp_apply]
    rw [h.addDays (by omega) (by omega)]
    omega
  have hwanted : ∀ d : Int,r.wantedWeekdays.contains (weekday (C.day (86400*d))) =
      r.wantedWeekdays.contains (weekday d) := by
    intro d
    rw [h.day,show 86400*d/86400=d by omega]
  simp only [Clock.weekInstances,Recurrence.weekInstances,hdays]
  rw [List.filter_map (f := (86400*·))]
  simp only [Function.comp_def,hwanted]
  rw [h.atClock_days]
  intro d hd
  simp only [List.mem_filter,List.mem_map,List.mem_range] at hd
  omega

section Month

variable {m : Int} (h : C.Plain (86400*monthStart m) (86400*monthStart (m+1)))

include h

theorem monthOf_day {k : Int} (hk : 0≤k) (hk' : k< monthLength m) :
    monthOf (C.day (86400*(monthStart m+k)))=m := by
  rw [h.day,show 86400*(monthStart m+k)/86400=monthStart m+k by omega]
  unfold monthLength at hk'
  exact monthOf_eq (by omega) (by omega)

theorem lastDay : dayOf (C.day (C.addDate (86400*monthStart m) 1 (-1)))=monthLength m := by
  have hlength := monthLength_bounds m
  have hfirst := h.monthOf_day (k := 0) (by omega) (by omega)
  have hlast := monthOf_eq (m := m) (d := monthStart (m+1)-1) (by unfold monthLength at hlength; omega)
    (by omega)
  rw [Int.add_zero] at hfirst
  have hvalue : C.addDate (86400*monthStart m) 1 (-1)=86400*(monthStart (m+1)-1) := by
    rw [addDate,hfirst,dayOf,hfirst,h.wall,h.day]
    unfold monthLength at hlength
    rw [show 86400*monthStart m/86400=monthStart m by omega,
      show 86400*monthStart m%86400=0 by omega]
    rw [h.date _ (by omega) (by omega)]
    omega
  rw [hvalue,h.day,show 86400*(monthStart (m+1)-1)/86400=monthStart (m+1)-1 by omega,dayOf,hlast,
    monthLength]
  omega

theorem monthDay? (day : Int) :
    C.monthDay? (86400*monthStart m) day=(Recurrence.monthDay? m day).map (86400*·) := by
  simp only [Clock.monthDay?,Recurrence.monthDay?,h.lastDay]
  generalize (if day<0 then monthLength m+day+1 else day)=day
  split_ifs with hday
  · rfl
  simp only [Bool.or_eq_true,decide_eq_true_eq,not_or] at hday
  unfold monthLength at hday
  rw [h.addDays (by omega) (by omega)]
  simp only [Option.map_some,Option.some.injEq]
  omega

theorem daysInMonth (n : Nat) {k : Nat} (hk : k≤ monthLength m) (hn : monthLength m<n+k) :
    C.daysInMonth (m%12) n (86400*(monthStart m+k)) =
      ((List.range' k ((monthLength m).toNat-k)).map fun off : Nat => monthStart m+off).map
        (86400*·) := by
  induction n generalizing k with
  | zero => omega
  | succ n ih =>
    have hnext : 86400*monthStart m ≤ 86400*(monthStart m+k) := by omega
    by_cases hlast : k=monthLength m
    · have hend : monthStart m+(k : Int)=monthStart (m+1) := by unfold monthLength at hlast; omega
      have hlength := monthLength_bounds (m+1)
      have hover : monthOf (monthStart (m+1))=m+1 := by
        apply monthOf_eq
        · omega
        · unfold monthLength at hlength
          omega
      have hne : ¬(m+1)%12=m%12 := by omega
      have hnone : (monthLength m).toNat-k=0 := by omega
      rw [Clock.daysInMonth,h.day,hend,show 86400*monthStart (m+1)/86400=monthStart (m+1) by omega,
        hover,if_neg hne,hnone]
      rfl
    · have hin := h.monthOf_day (k := k) (by omega) (by omega)
      have hstep : C.addDate (86400*(monthStart m+k)) 0 1=86400*(monthStart m+(k+1 : Nat)) := by
        unfold monthLength at hk hlast
        rw [h.addDays (by omega) (by omega)]
        omega
      obtain ⟨j,hj⟩ : ∃ j,(monthLength m).toNat-k=j+1 := ⟨(monthLength m).toNat-k-1,by omega⟩
      have hj' : (monthLength m).toNat-(k+1)=j := by omega
      rw [Clock.daysInMonth,hin,if_pos rfl,hstep,ih (by omega) (by omega),hj,hj',List.range'_succ]
      rfl

theorem weekdaysInMonth (want : List Weekday) :
    C.weekdaysInMonth (86400*monthStart m) want =
      (Recurrence.weekdaysInMonth m want).map (86400*·) := by
  have hlength := monthLength_bounds m
  have hfirst := h.monthOf_day (k := 0) (by omega) (by omega)
  have hdays := h.daysInMonth 32 (k := 0) (by omega) (by omega)
  rw [Int.add_zero] at hfirst
  rw [Nat.cast_zero,Int.add_zero,Nat.sub_zero,← List.range_eq_range'] at hdays
  rw [Clock.weekdaysInMonth,hfirst,hdays,List.filter_map]
  have hsame : ∀ d : Int,want.contains (weekday (C.day (86400*d)))=want.contains (weekday d) := by
    intro d
    rw [h.day,show 86400*d/86400=d by omega]
  simp only [Function.comp_def,hsame,Recurrence.weekdaysInMonth]

theorem monthInstances :
    C.monthInstances r seriesStart (86400*monthStart m)=r.monthInstances seriesStart m := by
  have hpick : ∀ (days : List Int) (pos : Int),Recurrence.pickSetPos (days.map (86400*·)) pos =
      (Recurrence.pickSetPos days pos).map (86400*·) := by
    intro days pos
    simp only [Recurrence.pickSetPos,List.length_map]
    generalize (if pos<0 then _ else pos-1)=i
    split_ifs
    · rfl
    · rw [List.map_take,List.map_drop]
  have hdays : C.monthDays r (86400*monthStart m) seriesStart =
      (r.monthDays m seriesStart).map (86400*·) := by
    simp only [Clock.monthDays,Recurrence.monthDays,h.day,h.monthDay?,h.weekdaysInMonth,hpick,
      Option.toList_map]
    split_ifs <;> rfl
  rw [Clock.monthInstances,Recurrence.monthInstances,hdays,h.atClock_days]
  intro d hd
  have hd := Recurrence.monthDays_bounds hd
  unfold monthLength at hd
  omega

end Month

theorem period {i : Nat} (h : ∀ j,j=0 ∨ j=i →
      C.Plain (r.extent seriesStart j).1 (r.extent seriesStart j).2) :
    C.periodStart r seriesStart i=(r.extent seriesStart i).1 ∧
      C.period r seriesStart i=r.period seriesStart i := by
  have hfirst := h 0 (.inl rfl)
  have h := h i (.inr rfl)
  have hstart : C.firstMonth r seriesStart=r.firstMonth seriesStart := by
    simp only [Clock.firstMonth,Recurrence.firstMonth,h.day]
  simp only [Clock.period,Clock.instances,Clock.periodStart,Recurrence.period,
    Recurrence.extent] at h hfirst ⊢
  cases hfreq : r.freq with
  | daily =>
    simp only [hfreq] at h
    simp [h.addDays (Int.le_refl _) (Int.le_refl _)]
  | weekly =>
    by_cases hdays : r.weekdays=[]
    · simp only [hfreq,hdays] at h
      simp [hdays,h.addDays (Int.le_refl _) (Int.le_refl _)]
    · simp only [hfreq,ne_eq,hdays,not_false_eq_true,if_true,Nat.cast_zero,Int.mul_zero,
        Int.add_zero] at h hfirst
      have hbase : C.addDate (C.weekStartMonday seriesStart) 0 (7*max r.interval 1*i) =
          86400*(Recurrence.weekStartMonday seriesStart+7*max r.interval 1*i) := by
        rw [hfirst.weekStartMonday,h.addDays (by omega) (by omega)]
        omega
      simp [hdays,hbase,h.weekInstances]
  | monthly =>
    simp only [hfreq] at h
    have hle := monthStart_mono (show monthOf (seriesStart/86400)+max r.interval 1*i ≤
      monthOf (seriesStart/86400)+max r.interval 1*i+1 by omega)
    simp [h.day,h.date _ (Int.le_refl _) (by omega),h.monthInstances]
  | yearly =>
    simp only [hfreq] at h
    have hle := monthStart_mono (show r.firstMonth seriesStart+12*max r.interval 1*i ≤
      r.firstMonth seriesStart+12*max r.interval 1*i+1 by omega)
    simp [hstart,h.date _ (Int.le_refl _) (by omega),h.monthInstances]
  | other => simp

end Clock.Plain

namespace Recurrence

variable (r : Recurrence) (seriesStart : Int)

/-- The years that a time can tell. -/
def InRange (t : Int) : Prop := -9223372028715321600≤t ∧ t<9223371974719179008

def Fits (windowEnd limit : Int) : Prop :=
  ∀ i,r.Reaches seriesStart windowEnd limit i →
    InRange (r.extent seriesStart i).1 ∧ InRange (r.extent seriesStart i).2

variable {r} {seriesStart}

theorem Fits.mono {b c limit : Int} (h : r.Fits seriesStart c limit) (hbc : b ≤ c) :
    r.Fits seriesStart b limit := by
  rintro i ⟨hi,hto⟩
  refine h i ⟨hi,walkTo_mono ?_ i 0 hto⟩
  intro j hj
  simp only [past,decide_eq_true_eq] at hj ⊢
  omega

theorem visited_eq {C : Clock} {windowEnd limit : Int}
    (h : ∀ i,r.Reaches seriesStart windowEnd limit i →
      C.Plain (r.extent seriesStart i).1 (r.extent seriesStart i).2) :
    C.visited r seriesStart windowEnd limit=r.visited seriesStart windowEnd limit := by
  have hfirst := h 0 ⟨scanLimit_pos limit,rfl⟩
  apply walk_congr
  intro i hi hto
  rw [Nat.zero_add]
  have hplain : ∀ j,j=0 ∨ j=i → C.Plain (r.extent seriesStart j).1 (r.extent seriesStart j).2 := by
    rintro j (rfl | rfl)
    · exact hfirst
    · exact h j ⟨hi,hto⟩
  obtain ⟨hstart,hperiod⟩ := Clock.Plain.period hplain
  exact ⟨hperiod,by rw [Clock.past,past,hstart]⟩

theorem plain_ideal (lo hi : Int) : (utc.clock id).Plain lo hi := by
  constructor
  · simp [Zone.clock,utc]
  · simp [Zone.clock,utc]

theorem plain_time64 {lo hi : Int} (hlo : InRange lo) (hhi : InRange hi) :
    (utc.clock time64).Plain lo hi := by
  constructor
  · simp [Zone.clock,utc]
  · intro t hlot hhit
    unfold InRange at hlo hhi
    have ht : time64 t=t := by
      unfold time64
      omega
    simp [Zone.clock,utc,ht]

theorem Fits.visited {windowEnd limit : Int} (h : r.Fits seriesStart windowEnd limit) :
    (utc.clock time64).visited r seriesStart windowEnd limit =
      r.visited seriesStart windowEnd limit :=
  visited_eq fun i hi => plain_time64 (h i hi).1 (h i hi).2

theorem Fits.occurrences {windowEnd limit : Int} (h : r.Fits seriesStart windowEnd limit)
    (windowStart : Int) :
    r.occurrences64 seriesStart windowStart windowEnd limit =
      (r.scanned seriesStart limit).filter (inWindow windowStart windowEnd) := by
  rw [occurrences64,Clock.occurrences_visited,h.visited,visited_window]

theorem occurrences_eq (windowStart windowEnd limit : Int) :
    r.occurrences seriesStart windowStart windowEnd limit =
      (r.scanned seriesStart limit).filter (inWindow windowStart windowEnd) := by
  rw [occurrences,Clock.occurrences_visited,visited_eq fun i _ => plain_ideal _ _,visited_window]

theorem defines_utc (t : Int) :
    r.Defines utc seriesStart t ↔ ∃ n,t∈r.bounded (periods (r.period seriesStart) 0 n) := by
  have hperiod : (utc.clock id).period r seriesStart=r.period seriesStart := by
    funext i
    exact (Clock.Plain.period fun j _ => plain_ideal _ _).2
  rw [Defines,hperiod]

end Recurrence
end HermEX.Oxcical
