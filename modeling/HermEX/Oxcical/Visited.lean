import HermEX.Oxcical.Recurrence
import Mathlib.Data.List.TakeWhile
import Mathlib.Order.Monotone.Basic
import Mathlib.Tactic.Ring

namespace HermEX.Oxcical

open Framework Framework.Civil

namespace Recurrence

variable (r : Recurrence)

def accept (most : Option Nat) (xs : List Int) (t : Int) : List Int×Bool :=
  if 0 < r.count && decide (r.count ≤ xs.length) then (xs,false)
  else if r.untilTime.any (· < t) then (xs,false)
  else (xs++[t],most.all (xs.length+1 < ·))

end Recurrence

section Visited

variable (C : Clock) (r : Recurrence) (seriesStart : Int)

/-- The instances an expansion to `windowEnd` comes to. -/
def Clock.visited (windowEnd limit : Int) : List Int :=
  walk (r.accept (r.most limit)) (C.period r seriesStart) (C.past r seriesStart windowEnd)
    (Recurrence.scanLimit limit) 0 []

theorem Clock.occurrences_visited (windowStart windowEnd limit : Int) :
    C.occurrences r seriesStart windowStart windowEnd limit =
      (C.visited r seriesStart windowEnd limit).filter (inWindow windowStart windowEnd) := by
  let sink (xs : List Int) : OccurrenceSink := ⟨r.count,r.untilTime,windowStart,windowEnd,xs.length,
    xs.filter (inWindow windowStart windowEnd)⟩
  have hadd : ∀ xs t,OccurrenceSink.scan (r.most limit) (sink xs) t =
      (sink (r.accept (r.most limit) xs t).1,(r.accept (r.most limit) xs t).2) := by
    intro xs t
    simp only [OccurrenceSink.scan,OccurrenceSink.add,Recurrence.accept,sink]
    split_ifs
    · rfl
    · rfl
    · simp only [OccurrenceSink.emit,List.filter_append,List.length_append,List.length_singleton,
        List.filter_cons,List.filter_nil]
      split_ifs <;> simp
  exact congrArg OccurrenceSink.out (walk_map hadd _ 0 [])

end Visited

namespace Recurrence

variable (r : Recurrence)

/-- COUNT and UNTIL let all of it pass. -/
structure Admits (ys : List Int) : Prop where
  count : 0 < r.count → ys.length ≤ r.count
  before : ∀ t∈ys,r.untilTime.any (· < t)=false

variable {r} {ys zs : List Int}

theorem Admits.bounded (h : r.Admits ys) : r.bounded ys=ys := by
  have hall : ys.takeWhile (fun t => !r.untilTime.any (· < t))=ys := by
    rw [List.takeWhile_eq_self_iff]
    intro t ht
    rw [h.before t ht]
    rfl
  simp only [Recurrence.bounded]
  split_ifs with hc
  · rw [List.take_of_length_le (by have := h.count hc; omega),hall]
  · exact hall

theorem Admits.bounded_append (h : r.Admits ys)
    (hstop : 0 < r.count ∧ r.count ≤ ys.length ∨
      ∃ t ws,zs=t::ws ∧ r.untilTime.any (· < t)=true) : r.bounded (ys++zs)=ys := by
  have hall : ∀ t∈ys,(!r.untilTime.any (· < t))=true := by
    intro t ht
    rw [h.before t ht]
    rfl
  have hend : ∀ ws,(ws=[] ∨ ∃ t ws',ws=t::ws' ∧ r.untilTime.any (· < t)=true) →
      (ys++ws).takeWhile (fun t => !r.untilTime.any (· < t))=ys := by
    rintro ws (rfl | ⟨t,ws',rfl,ht⟩)
    · rw [List.append_nil,List.takeWhile_eq_self_iff]
      exact hall
    · rw [List.takeWhile_append_of_pos hall,List.takeWhile_cons_of_neg (by simp [ht]),
        List.append_nil]
  rcases hstop with ⟨hc,hfull⟩ | ⟨t,ws,rfl,ht⟩
  · have hcount := h.count hc
    have htake : (ys++zs).take r.count.toNat=ys := List.take_left' (by omega)
    simpa [Recurrence.bounded,hc,htake] using hend [] (.inl rfl)
  · simp only [Recurrence.bounded]
    split_ifs with hc
    · rw [List.take_append,List.take_of_length_le (by have := h.count hc; omega)]
      cases r.count.toNat-ys.length with
      | zero => exact hend _ (.inl (by simp))
      | succ n => exact hend _ (.inr ⟨t,_,List.take_succ_cons,ht⟩)
    · exact hend _ (.inr ⟨t,ws,rfl,ht⟩)

def cut (most : Option Nat) (xs : List Int) : List Int := most.elim xs fun k => xs.take k

theorem cut_append {most : Option Nat} (h : ∀ k∈most,ys.length<k) (zs : List Int) :
    ∃ n,cut most (ys++zs)=ys++zs.take (n+1) := by
  cases most with
  | none => exact ⟨zs.length,by simp [cut,List.take_of_length_le]⟩
  | some k =>
    have hk := h k rfl
    refine ⟨k-ys.length-1,?_⟩
    rw [cut,Option.elim_some,List.take_append,List.take_of_length_le (by omega),
      show k-ys.length-1+1=k-ys.length by omega]

theorem offer_accept {most : Option Nat} (h : r.Admits ys) (hmost : ∀ k∈most,ys.length<k)
    (xs : List Int) : (offer (r.accept most) ys xs).1=r.bounded (cut most (ys++xs)) := by
  obtain ⟨n,hn⟩ := cut_append hmost xs
  induction xs generalizing ys n with
  | nil =>
    rw [hn]
    simp [offer,h.bounded]
  | cons t ts ih =>
    by_cases hcount : 0< r.count ∧ r.count ≤ ys.length
    · have hadd : r.accept most ys t=(ys,false) := by simp [accept,hcount]
      rw [hn,h.bounded_append (.inl hcount)]
      simp [offer,hadd]
    by_cases huntil : r.untilTime.any (· < t)=true
    · have hadd : r.accept most ys t=(ys,false) := by simp [accept,huntil]
      rw [hn,List.take_succ_cons,h.bounded_append (.inr ⟨t,_,rfl,huntil⟩)]
      simp [offer,hadd]
    have hadd : r.accept most ys t=(ys++[t],most.all (ys.length+1 < ·)) := by
      simp [accept,hcount,huntil]
    have hnext : r.Admits (ys++[t]) := by
      constructor
      · intro hc
        simp only [List.length_append,List.length_singleton]
        omega
      · intro u hu
        rcases List.mem_append.mp hu with hu | hu
        · exact h.before u hu
        · rw [List.mem_singleton.mp hu]
          simpa using huntil
    have hwhole : ys++t::ts=ys++[t]++ts := by simp
    cases hmore : most.all (ys.length+1 < ·) with
    | true =>
      have hroom : ∀ k∈most,(ys++[t]).length<k := by
        rintro k rfl
        simpa using hmore
      obtain ⟨n',hn'⟩ := cut_append hroom ts
      rw [hwhole,← ih hnext hroom n' hn']
      simp [offer,hadd,hmore]
    | false =>
      cases most with
      | none => simp at hmore
      | some k =>
        have hk := hmost k rfl
        have hk' : k=(ys++[t]).length := by
          simp only [Option.all_some,decide_eq_false_iff_not] at hmore
          simp only [List.length_append,List.length_singleton]
          omega
        have hlast : cut (some k) (ys++[t]++ts)=ys++[t] := List.take_left' hk'.symm
        rw [hwhole,hlast,hnext.bounded]
        simp [offer,hadd,hmore]

variable (r)

def atClock (seriesStart : Int) (day : Int) : Int := 86400*day+seriesStart%86400

def weekStartMonday (t : Int) : Int := t/86400-(((weekday (t/86400)).val+6)%7 : Nat)

def weekInstances (seriesStart : Int) (base : Int) : List Int :=
  let days := ((List.range 7).map fun off : Nat => base+off).filter fun day =>
    r.wantedWeekdays.contains (weekday day)
  (days.map (atClock seriesStart)).filter fun inst => seriesStart ≤ inst

def monthDay? (month day : Int) : Option Int :=
  let length := monthLength month
  let day := if day<0 then length+day+1 else day
  if day<1 || length<day then none else some (monthStart month+(day-1))

def weekdaysInMonth (month : Int) (want : List Weekday) : List Int :=
  ((List.range (monthLength month).toNat).map fun off : Nat => monthStart month+off).filter
    fun day => want.contains (weekday day)

def monthDays (month : Int) (seriesStart : Int) : List Int :=
  if r.weekdays=[] then
    let day := if r.monthDay=0 then dayOf (seriesStart/86400) else r.monthDay
    (monthDay? month day).toList
  else
    let days := weekdaysInMonth month r.wantedWeekdays
    if r.setPos=0 then days else pickSetPos days r.setPos

def monthInstances (seriesStart : Int) (month : Int) : List Int :=
  ((r.monthDays month seriesStart).map (atClock seriesStart)).filter fun inst => seriesStart ≤ inst

def firstMonth (seriesStart : Int) : Int :=
  if 1 ≤ r.month && r.month≤12 then 12*yearOf (seriesStart/86400)+(r.month-1)
  else monthOf (seriesStart/86400)

def period (seriesStart : Int) (i : Nat) : List Int :=
  let interval := max r.interval 1
  match r.freq with
  | .weekly =>
    if r.weekdays≠[] then
      r.weekInstances seriesStart (weekStartMonday seriesStart+7*interval*i)
    else [seriesStart+86400*(7*interval*i)]
  | .daily => [seriesStart+86400*(interval*i)]
  | .monthly => r.monthInstances seriesStart (monthOf (seriesStart/86400)+interval*i)
  | .yearly => r.monthInstances seriesStart (r.firstMonth seriesStart+12*interval*i)
  | .other => []

/-- Where a period begins and ends. -/
def extent (seriesStart : Int) (i : Nat) : Int×Int :=
  let interval := max r.interval 1
  let step (t : Int) := (t,t)
  let month (m : Int) := (86400*monthStart m,86400*monthStart (m+1))
  match r.freq with
  | .weekly =>
    if r.weekdays≠[] then
      let base := weekStartMonday seriesStart+7*interval*i
      (86400*base,86400*(base+7))
    else step (seriesStart+86400*(7*interval*i))
  | .daily => step (seriesStart+86400*(interval*i))
  | .monthly => month (monthOf (seriesStart/86400)+interval*i)
  | .yearly => month (r.firstMonth seriesStart+12*interval*i)
  | .other => step seriesStart

def scanned (seriesStart limit : Int) : List Int :=
  r.bounded (cut (r.most limit) (periods (r.period seriesStart) 0 (scanLimit limit)))

variable {r} {seriesStart t : Int}

theorem atClock_bounds (seriesStart : Int) (day : Int) :
    86400*day≤atClock seriesStart day ∧ atClock seriesStart day<86400*(day+1) := by
  unfold atClock
  omega

theorem weekInstances_bounds {base : Int} (h : t∈r.weekInstances seriesStart base) :
    86400*base≤t ∧ t<86400*(base+7) := by
  simp only [weekInstances,List.mem_filter,List.mem_map,List.mem_range] at h
  obtain ⟨⟨day,⟨⟨off,hoff,rfl⟩,-⟩,rfl⟩,-⟩ := h
  have hday := atClock_bounds seriesStart (base+off)
  omega

theorem monthDay_bounds {month day d : Int} (h : monthDay? month day=some d) :
    monthStart month≤d ∧ d < monthStart month+monthLength month := by
  simp only [monthDay?] at h
  generalize (if day<0 then monthLength month+day+1 else day)=n at h
  split_ifs at h with hn
  have hd := Option.some.inj h
  simp only [Bool.or_eq_true,decide_eq_true_eq] at hn
  omega

theorem monthDays_bounds {month day : Int} (h : day∈r.monthDays month seriesStart) :
    monthStart month≤day ∧ day < monthStart month+monthLength month := by
  have hweekdays : ∀ d∈weekdaysInMonth month r.wantedWeekdays,
      monthStart month≤d ∧ d < monthStart month+monthLength month := by
    intro d hd
    simp only [weekdaysInMonth,List.mem_filter,List.mem_map,List.mem_range] at hd
    omega
  by_cases hnone : r.weekdays=[]
  · simp only [monthDays,if_pos hnone,Option.mem_toList] at h
    exact monthDay_bounds h
  · simp only [monthDays] at h
    split_ifs at h
    · exact hweekdays day h
    · simp only [pickSetPos] at h
      split_ifs at h
      · simp at h
      · exact hweekdays day (List.mem_of_mem_drop (List.mem_of_mem_take h))
      · simp at h
      · exact hweekdays day (List.mem_of_mem_drop (List.mem_of_mem_take h))

theorem monthInstances_bounds {month : Int} (h : t∈r.monthInstances seriesStart month) :
    86400*monthStart month≤t ∧ t<86400*monthStart (month+1) := by
  simp only [monthInstances,List.mem_filter,List.mem_map] at h
  obtain ⟨⟨day,hday,rfl⟩,-⟩ := h
  have hclock := atClock_bounds seriesStart day
  have hmonth := monthDays_bounds hday
  unfold monthLength at hmonth
  omega

/-- In order, none before the first start, and periods apart. -/
structure Increasing (seriesStart : Int) (period : Nat → List Int) (low : Nat → Int) : Prop where
  sorted : ∀ i,(period i).Pairwise (· < ·)
  from_ : ∀ i,∀ t∈period i,seriesStart≤t
  within : ∀ i,∀ t∈period i,low i≤t ∧ t<low (i+1)
  mono : ∀ i,low i≤low (i+1)

theorem Increasing.periods {seriesStart : Int} {period : Nat → List Int} {low : Nat → Int}
    (h : Increasing seriesStart period low) (n : Nat) :
    (Framework.periods period 0 n).Pairwise (· < ·) := by
  apply List.pairwise_flatMap.mpr
  refine ⟨fun i _ => h.sorted i,?_⟩
  refine (List.pairwise_lt_range' 1).imp ?_
  intro i j hij x hx y hy
  have hlow := monotone_nat_of_le_succ h.mono (show i+1≤j from hij)
  have hxi := h.within i x hx
  have hyj := h.within j y hy
  omega

theorem mul_next (n : Int) (i : Nat) : n*(i+1 : Nat)=n*i+n := by
  push_cast
  ring

theorem increasing_step {days : Int} (h : 1≤days) :
    Increasing seriesStart (fun i => [seriesStart+86400*(days*i)])
      (fun i => seriesStart+86400*(days*i)) := by
  constructor
  · simp
  · intro i t ht
    have hi : 0≤days*i := Int.mul_nonneg (by omega) (by omega)
    simp only [List.mem_singleton] at ht
    omega
  · intro i t ht
    simp only [List.mem_singleton] at ht
    rw [mul_next]
    omega
  · intro i
    rw [mul_next]
    omega

theorem days_sorted (base : Int) (n : Nat) :
    ((List.range n).map fun off : Nat => base+off).Pairwise (· < ·) := by
  apply List.pairwise_map.mpr
  refine List.pairwise_lt_range.imp ?_
  omega

theorem clock_sorted {days : List Int} (h : days.Pairwise (· < ·)) :
    ((days.map (atClock seriesStart)).filter fun inst => seriesStart ≤ inst).Pairwise (· < ·) := by
  apply List.Pairwise.filter
  apply List.pairwise_map.mpr
  refine h.imp ?_
  unfold atClock
  omega

theorem monthDays_sorted (month : Int) : (r.monthDays month seriesStart).Pairwise (· < ·) := by
  have hdays : (weekdaysInMonth month r.wantedWeekdays).Pairwise (· < ·) :=
    (days_sorted _ _).filter _
  simp only [monthDays]
  split_ifs
  · cases monthDay? month _ <;> simp
  · cases monthDay? month _ <;> simp
  · exact hdays
  · simp only [pickSetPos]
    generalize (if r.setPos<0 then _ else r.setPos-1)=i
    split_ifs
    · simp
    · exact hdays.sublist ((List.take_sublist _ _).trans (List.drop_sublist _ _))

theorem increasing_months (first : Int) {months : Int} (h : 1 ≤ months) :
    Increasing seriesStart (fun i => r.monthInstances seriesStart (first+months*i))
      (fun i => 86400*monthStart (first+months*i)) := by
  have hnext : ∀ i : Nat,monthStart (first+months*i) ≤ monthStart (first+months*i+1) ∧
      monthStart (first+months*i+1) ≤ monthStart (first+months*(i+1 : Nat)) := by
    intro i
    rw [mul_next]
    exact ⟨monthStart_mono (by omega),monthStart_mono (by omega)⟩
  constructor
  · intro i
    exact clock_sorted (monthDays_sorted _)
  · intro i t ht
    simpa using (List.mem_filter.mp ht).2
  · intro i t ht
    have hin := monthInstances_bounds ht
    have hi := hnext i
    omega
  · intro i
    have hi := hnext i
    omega

theorem increasing_weeks (base : Int) {interval : Int} (h : 1 ≤ interval) :
    Increasing seriesStart (fun i => r.weekInstances seriesStart (base+7*interval*i))
      (fun i => 86400*(base+7*interval*i)) := by
  constructor
  · intro i
    exact clock_sorted ((days_sorted _ _).filter _)
  · intro i t ht
    simpa using (List.mem_filter.mp ht).2
  · intro i t ht
    have hin := weekInstances_bounds ht
    rw [mul_next]
    omega
  · intro i
    rw [mul_next]
    omega

theorem increasing_period (r : Recurrence) (seriesStart : Int) :
    Increasing seriesStart (r.period seriesStart) fun i => (r.extent seriesStart i).1 := by
  have hinterval : 1 ≤ max r.interval 1 := by omega
  unfold period extent
  cases r.freq with
  | daily => exact increasing_step hinterval
  | weekly =>
    by_cases hdays : r.weekdays=[]
    · simp only [hdays]
      exact increasing_step (show 1≤7*max r.interval 1 by omega)
    · simp only [hdays,ne_eq]
      exact increasing_weeks _ hinterval
  | monthly => exact increasing_months _ hinterval
  | yearly => exact increasing_months _ (by omega)
  | other => exact ⟨by simp,by simp,by simp,by simp⟩

variable (r) (seriesStart)

def past (windowEnd : Int) (i : Nat) : Bool := windowEnd<nanos (r.extent seriesStart i).1

def visited (windowEnd limit : Int) : List Int :=
  walk (r.accept (r.most limit)) (r.period seriesStart) (r.past seriesStart windowEnd)
    (scanLimit limit) 0 []

/-- An expansion to `windowEnd` comes to period `i`. -/
def Reaches (windowEnd limit : Int) (i : Nat) : Prop :=
  i < scanLimit limit ∧ (walkTo (r.accept (r.most limit)) (r.period seriesStart)
    (r.past seriesStart windowEnd) i 0 []).isSome=true

theorem scanLimit_pos (limit : Int) : 0<scanLimit limit := by
  unfold scanLimit
  split_ifs <;> omega

theorem visited_window (windowStart windowEnd limit : Int) :
    (r.visited seriesStart windowEnd limit).filter (inWindow windowStart windowEnd) =
      (r.scanned seriesStart limit).filter (inWindow windowStart windowEnd) := by
  have hperiod := increasing_period r seriesStart
  have hlimit := scanLimit_pos limit
  have hadmits : r.Admits [] := ⟨by simp; omega,by simp⟩
  have hmost : ∀ k∈r.most limit,([] : List Int).length<k := by
    intro k hk
    simp only [most,Option.mem_def,Option.ite_none_right_eq_some,Option.some.injEq] at hk
    rw [← hk.2]
    exact hlimit
  have hoffer := offer_accept hadmits hmost (periods (r.period seriesStart) 0 (scanLimit limit))
  rw [scanned,← List.nil_append (periods _ _ _),← hoffer]
  apply walk_view (v := List.filter (inWindow windowStart windowEnd))
  intro i j hpast hij xs t ht
  have hlow := monotone_nat_of_le_succ hperiod.mono (show i≤j by omega)
  have hin := hperiod.within j t ht
  have hpast : windowEnd<nanos (r.extent seriesStart i).1 := of_decide_eq_true hpast
  have hlate : windowEnd≤nanos t := by
    unfold nanos at *
    omega
  have hout : inWindow windowStart windowEnd t=false := by simp [inWindow,hlate]
  simp only [accept]
  split_ifs <;> simp [hout]

end Recurrence
end HermEX.Oxcical
