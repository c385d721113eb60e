import HermEX.Oxcical.Utc
import HermEX.Recurrence.Blob

namespace HermEX.Oxcical.Recurrence

open Framework Framework.Civil

section Congr

variable {r r' : Recurrence} {seriesStart : Int}

theorem length_periods_le {α : Type} {period : Nat → List α} (h : ∀ i,(period i).length≤1)
    (i n : Nat) : (periods period i n).length≤n := by
  induction n generalizing i with
  | zero => simp [periods]
  | succ n ih =>
    have hone := h i
    have hrest := ih (i+1)
    rw [periods_succ,List.length_append]
    omega

def Same (r' r : Recurrence) (seriesStart : Int) : Prop :=
  ∀ windowStart windowEnd limit,r'.occurrences seriesStart windowStart windowEnd limit =
    r.occurrences seriesStart windowStart windowEnd limit

theorem occurrences_congr (hcount : r'.count=r.count) (huntil : r'.untilTime=r.untilTime)
    (hperiod : r'.period seriesStart=r.period seriesStart)
    (hweek : (r'.freq=.weekly ∧ r'.weekdays≠[] ↔ r.freq=.weekly ∧ r.weekdays≠[]) ∨
      ∀ i,(r.period seriesStart i).length≤1) : r'.Same r seriesStart := by
  intro windowStart windowEnd limit
  rw [occurrences_eq,occurrences_eq]
  have hbounded : r'.bounded=r.bounded := by
    funext xs
    simp [bounded,hcount,huntil]
  have hcut : cut (r'.most limit) (periods (r.period seriesStart) 0 (scanLimit limit)) =
      cut (r.most limit) (periods (r.period seriesStart) 0 (scanLimit limit)) := by
    rcases hweek with hweek | hone
    · simp only [most,hweek]
    · have hfew := List.take_of_length_le (length_periods_le hone 0 (scanLimit limit))
      simp only [most]
      split_ifs <;> simp [cut,hfew]
  rw [scanned,scanned,hbounded,hperiod,hcut]

theorem weekInstances_congr (h : ∀ w,w∈r'.wantedWeekdays ↔ w∈r.wantedWeekdays) :
    r'.weekInstances=r.weekInstances := by
  funext seriesStart base
  have hcontains : ∀ w,r'.wantedWeekdays.contains w=r.wantedWeekdays.contains w := by
    intro w
    rw [Bool.eq_iff_iff]
    simp [h]
  simp only [weekInstances,hcontains]

theorem weekdaysInMonth_congr {month : Int} {want want' : List Weekday}
    (h : ∀ w,w∈want' ↔ w∈want) : weekdaysInMonth month want'=weekdaysInMonth month want := by
  have hcontains : ∀ w,want'.contains w=want.contains w := by
    intro w
    rw [Bool.eq_iff_iff]
    simp [h]
  simp only [weekdaysInMonth,hcontains]

theorem weekInstances_start (hwant : ∀ w,w∈r.wantedWeekdays ↔ w=weekday (seriesStart/86400))
    {n : Int} (hn : 0≤n) : r.weekInstances seriesStart (weekStartMonday seriesStart+7*n) =
      [seriesStart+86400*(7*n)] := by
  generalize hk : ((weekday (seriesStart/86400)).val+6)%7=k
  have hk7 : k<7 := by omega
  have hday : (weekday (seriesStart/86400)).val=((seriesStart/86400+4)%7).toNat := rfl
  have hmonday : weekStartMonday seriesStart=seriesStart/86400-k := by rw [weekStartMonday,hk]
  have hpick : (List.range 7).filter (fun off : Nat => r.wantedWeekdays.contains
      (weekday (weekStartMonday seriesStart+7*n+off)))=[k] := by
    have hsame : ∀ off∈List.range 7,r.wantedWeekdays.contains
        (weekday (weekStartMonday seriesStart+7*n+off))=decide (off=k) := by
      intro off hoff
      have hoff7 := List.mem_range.mp hoff
      rw [Bool.eq_iff_iff,List.contains_iff_mem,hwant,decide_eq_true_eq,Fin.ext_iff,hmonday]
      simp only [weekday] at hday hk ⊢
      omega
    rw [List.filter_congr hsame]
    have hone : ∀ k<7,(List.range 7).filter (fun off => decide (off=k))=[k] := by decide
    exact hone k hk7
  have hinstant : atClock seriesStart (weekStartMonday seriesStart+7*n+k) =
      seriesStart+86400*(7*n) := by
    rw [atClock,hmonday]
    omega
  simp only [weekInstances,List.filter_map,Function.comp_def,hpick,List.map_cons,List.map_nil]
  rw [hinstant]
  have hlate : seriesStart ≤ seriesStart+86400*(7*n) := by omega
  simp [hlate]

theorem monthOf_div (d : Int) : monthOf d/12=yearOf d := by
  have hle := Nat.findGreatest_le (P := fun m : Nat => monthStart (12*yearOf d+m)≤d) 11
  unfold monthOf
  omega

end Congr
end HermEX.Oxcical.Recurrence

namespace HermEX.Recurrence

open Framework Framework.Civil Oxcical.Recurrence

theorem u32_toNat (n : Int) : (u32 n).toNat=(n%4294967296).toNat := by
  apply UInt32.toNat_ofNat_of_lt'
  have hsize : UInt32.size=4294967296 := rfl
  omega

theorem yearStart_mono {y z : Int} (h : y≤z) : yearStart y≤yearStart z := by
  rw [← monthStart_year,← monthStart_year]
  apply monthStart_mono
  omega

theorem yearDays_sum (n : Nat) :
    (List.range n).foldl (fun (days : Int) (i : Nat) => days+if leap (1601+i) then 366 else 365) 0 =
      yearStart (1601+n)-yearStart 1601 := by
  induction n with
  | zero => simp
  | succ n ih =>
    have hnext : (1601+(n+1 : Nat) : Int)=1601+n+1 := by omega
    rw [List.range_succ,List.foldl_append,ih,hnext,yearStart_succ]
    simp only [List.foldl_cons,List.foldl_nil]
    split_ifs <;> omega

theorem u32_minutes {d h m : Int} (hd : 0≤d) (hh : 0≤h) (hm : 0 ≤ m) :
    (u32 d*24*60+u32 h*60+u32 m).toNat=((1440*d+60*h+m)%4294967296).toNat := by
  have hofNat : ∀ n : Int,0≤n → u32 n=UInt32.ofNat n.toNat := by
    intro n hn
    apply UInt32.toNat_inj.mp
    rw [u32_toNat,UInt32.toNat_ofNat']
    omega
  have hsum : u32 d*24*60+u32 h*60+u32 m =
      UInt32.ofNat (d.toNat*24*60+h.toNat*60+m.toNat) := by
    rw [hofNat d hd,hofNat h hh,hofNat m hm]
    simp only [UInt32.ofNat_add,UInt32.ofNat_mul]
    rfl
  have hint : 1440*d+60*h+m=(d.toNat*24*60+h.toNat*60+m.toNat : Nat) := by omega
  rw [hsum,hint]
  rw [UInt32.toNat_ofNat']
  omega

theorem minutes_toNat {t : Int} (h : epoch1601≤t) :
    (minutesSince1601 t).toNat=((t-epoch1601)/60%4294967296).toNat := by
  have hepoch : epoch1601=86400*yearStart 1601 := rfl
  obtain ⟨hlow,hhigh⟩ := yearOf_spec (t/86400)
  have hyear : 1601≤yearOf (t/86400) := by
    by_contra hearly
    have hmono := yearStart_mono (show yearOf (t/86400)+1≤1601 by omega)
    omega
  have hcast : (1601+((yearOf (t/86400)-1601).toNat : Nat) : Int)=yearOf (t/86400) := by omega
  simp only [minutesSince1601]
  rw [if_neg (by omega),yearDays_sum,hcast]
  have hdays : yearStart (yearOf (t/86400))-yearStart 1601 +
      (t/86400-yearStart (yearOf (t/86400)))=t/86400-yearStart 1601 := by omega
  rw [hdays,u32_minutes (by omega) (by omega) (by omega)]
  congr 2
  omega

theorem timeFromMinutes_minutes {t : Int} (h : epoch1601≤t) (hminute : t%60=0)
    (hfit : (t-epoch1601)/60<4294967296) : timeFromMinutes (minutesSince1601 t)=t := by
  have hminutes := minutes_toNat h
  have hepoch : epoch1601%60=0 := by decide
  rw [timeFromMinutes,hminutes]
  omega

def maskDays (mask : UInt32) : List (Fin 7) :=
  (List.finRange 7).filter fun w => mask.toNat.testBit w.val

theorem bitmaskWeekdays_eq (mask : UInt32) :
    bitmaskWeekdays mask=(maskDays mask).map weekdayName := rfl

theorem testBit_weekdayBitmask (days : List Bytes) (w : Fin 7) :
    (weekdayBitmask days).testBit w.val=true ↔ ∃ d∈days,weekdayOf d=some w := by
  have hfold : ∀ (days : List Bytes) (mask : Nat),
      (days.foldl (fun mask d => mask ||| ((weekdayOf d).map fun v : Fin 7 => 2^v.val).getD 0)
        mask).testBit w.val=true ↔
        mask.testBit w.val=true ∨ ∃ d∈days,weekdayOf d=some w := by
    intro days
    induction days with
    | nil => simp
    | cons d ds ih =>
      intro mask
      have hbit : (((weekdayOf d).map fun v : Fin 7 => 2^v.val).getD 0).testBit w.val=true ↔
          weekdayOf d=some w := by
        cases weekdayOf d with
        | none => simp
        | some v => simp [Nat.testBit_two_pow,Fin.ext_iff]
      rw [List.foldl_cons,ih,Nat.testBit_or,Bool.or_eq_true,hbit,List.exists_mem_cons_iff,or_assoc]
  rw [weekdayBitmask,hfold]
  simp

theorem weekdayBitmask_lt (days : List Bytes) : weekdayBitmask days<2^7 := by
  have hfold : ∀ (days : List Bytes) (mask : Nat),mask<2^7 →
      days.foldl (fun mask d => mask ||| ((weekdayOf d).map fun v : Fin 7 => 2^v.val).getD 0) mask <
        2^7 := by
    intro days
    induction days with
    | nil => exact fun mask h => h
    | cons d ds ih =>
      intro mask h
      apply ih
      apply Nat.or_lt_two_pow h
      cases weekdayOf d with
      | none => decide
      | some v => exact Nat.pow_lt_pow_right (by decide) v.isLt
  exact hfold days 0 (by decide)

theorem mem_maskDays {days : List Bytes} {w : Fin 7} :
    w∈maskDays (UInt32.ofNat (weekdayBitmask days)) ↔ ∃ d∈days,weekdayOf d=some w := by
  have hlt := weekdayBitmask_lt days
  have hfit : (UInt32.ofNat (weekdayBitmask days)).toNat=weekdayBitmask days :=
    UInt32.toNat_ofNat_of_lt' (by rw [UInt32.size]; omega)
  rw [maskDays,List.mem_filter,hfit,testBit_weekdayBitmask]
  simp

structure Rrule.InScope (r : Rrule) : Prop where
  freq : r.freq=lit "DAILY" ∨ r.freq=lit "WEEKLY" ∨ r.freq=lit "MONTHLY" ∨
    r.freq=lit "YEARLY"
  interval : 1 ≤ r.interval ∧ r.interval≤1000
  count : 0 ≤ r.count ∧ r.count≤1000
  monthDay : -31 ≤ r.monthDay ∧ r.monthDay≤31
  setPos : -5 ≤ r.setPos ∧ r.setPos≤5
  month : 0 ≤ r.month ∧ r.month≤12
  untilTime : ∀ u,r.untilTime=some u → epoch1601≤u ∧ u/86400<yearStart 10000 ∧ u%60=0

/-- No UNTIL beside a COUNT, minutes that fit, plain weekday tokens, nothing counted back but the
last, yearly in the month of its start. -/
structure Rrule.Carried (T : Strings) (r : Rrule) (start : Int) : Prop where
  ends : ∀ u,r.untilTime=some u → r.count=0 ∧ epoch1601<u ∧
    (u-epoch1601)/60<4294967296 ∧ (u-epoch1601)/60≠noEndDate.toNat
  tokens : r.freq≠lit "DAILY" → r.weekdays≠[] → (∃ d∈r.weekdays,weekdayOf d≠none) ∧
    ∀ d∈r.weekdays,weekdayToken T d=weekdayOf d
  setPos : r.freq=lit "MONTHLY" ∨ r.freq=lit "YEARLY" → r.weekdays≠[] →
    -1 ≤ r.setPos ∧ r.setPos≤4
  monthDay : r.freq=lit "MONTHLY" ∨ r.freq=lit "YEARLY" → r.weekdays=[] → 0 ≤ r.monthDay
  month : r.freq=lit "YEARLY" → r.month=0 ∨ r.month=monthOf (start/86400)%12+1

theorem Pattern.setEndRange_pins (p : Pattern) (r : Rrule) :
    (p.setEndRange r).patternType=p.patternType ∧ (p.setEndRange r).kept=p.kept.setEndRange r := by
  simp only [Pattern.setEndRange]
  cases r.untilTime with
  | some u => exact ⟨rfl,rfl⟩
  | none => split_ifs <;> exact ⟨rfl,rfl⟩

section Ends

variable {T : Strings} {r : Rrule} {start : Int} (hscope : r.InScope) (hends : r.Carried T start)

include hscope hends

theorem applyEndRange_set (p : Pattern) {q : Rrule} (hcount : q.count=0)
    (huntil : q.untilTime=none) :
    (p.setEndRange r).applyEndRange q = some {q with count:=r.count,untilTime:=r.untilTime} := by
  cases hu : r.untilTime with
  | some u =>
    obtain ⟨hzero,hlate,hfit,hend⟩ := hends.ends u hu
    obtain ⟨hlow,-,hminute⟩ := hscope.untilTime u hu
    have hminutes := minutes_toNat hlow
    have hepoch : epoch1601%60=0 := by decide
    have hne : minutesSince1601 u≠0 := by
      intro h
      rw [h] at hminutes
      simp only [UInt32.toNat_zero] at hminutes
      omega
    have hne' : minutesSince1601 u≠noEndDate := by
      intro h
      rw [h] at hminutes
      omega
    simp only [Pattern.applyEndRange,Pattern.setEndRange,hu,if_true]
    rw [if_pos ⟨hne,hne'⟩,timeFromMinutes_minutes hlow hminute hfit,hzero,← hcount]
  | none =>
    have hdate : EndAfterN≠EndAfterDate ∧ EndNever≠EndAfterDate ∧ EndNever≠EndAfterN := by decide
    simp only [Pattern.applyEndRange,Pattern.setEndRange,hu]
    by_cases hc : 0 < r.count
    · have hcountNat : ((u32 r.count).toNat : Int)=r.count := by
        have hbound := hscope.count
        rw [u32_toNat]
        omega
      simp [if_pos hc,if_neg hdate.1,hcountNat,← huntil]
    · have hzero : r.count=q.count := by
        have hbound := hscope.count
        omega
      simp only [if_neg hc,if_neg hdate.2.1,if_neg hdate.2.2,true_or,if_true]
      rw [hzero,← huntil]

theorem rrule_setEndRange {p : Pattern} {q : Rrule} (hfill : p.fill=some q)
    (hcount : q.count=0) (huntil : q.untilTime=none) (hinterval : 0<q.interval) :
    (p.setEndRange r).rrule none = some {q with count:=r.count,untilTime:=r.untilTime} := by
  have hsame : (p.setEndRange r).fill=p.fill := by
    simp only [Pattern.setEndRange]
    cases r.untilTime with
    | some u => rfl
    | none => split_ifs <;> rfl
  rw [Pattern.rrule,hsame,hfill,Option.bind_some,if_neg (by omega)]
  rw [applyEndRange_set hscope hends p hcount huntil,Option.map_some]
  simp

end Ends

section Back

variable {T : Strings} (hT : T.Lawful) {r : Rrule} {start : Int} (hscope : r.InScope)
  (hcarried : r.Carried T start)

def blank (start : Int) : Pattern := ⟨0,0,0,0,0,0,0,0,0,0,minutesSince1601 start,0⟩

def Rrule.pinned (r : Rrule) (start : Int) : Rrule :=
  if r.weekdays≠[] then
    ⟨r.freq,r.interval,0,none,bitmaskWeekdays (UInt32.ofNat (weekdayBitmask r.weekdays)),
      r.setPos,0,0⟩
  else
    ⟨r.freq,r.interval,0,none,[],0,
      if r.monthDay=0 then dayOf (start/86400) else r.monthDay,0⟩

/-- What a pattern is filled from, without its end. -/
structure Filled (r q : Rrule) : Prop where
  freq : q.freq=r.freq
  interval : q.interval=r.interval
  count : q.count=0
  untilTime : q.untilTime=none
  weekdays : ∃ ws : List (Fin 7),q.weekdays=ws.map weekdayName
  setPos : -5≤q.setPos ∧ q.setPos≤5 ∧ (q.weekdays=[] → q.setPos=0)
  monthDay : 0≤q.monthDay ∧ q.monthDay≤31
  month : q.month=0

include hT hscope

variable {q : Rrule}

theorem Filled.written (h : Filled r q) :
    Rrule.Written T {q with count:=r.count,untilTime:=r.untilTime} := by
  have hinterval := hscope.interval
  have hcount := hscope.count
  have hday := h.monthDay
  refine ⟨?_,?_,?_,?_,h.weekdays,h.setPos,?_,h.month⟩
  · simp only [h.freq]
    rcases hscope.freq with hf | hf | hf | hf
    all_goals
      rw [hf,hT.trim_ascii _ (by decide),hT.upper_ascii _ (by decide)]
      decide
  · simp only [h.interval]
    omega
  · simp only
    omega
  · intro u hu
    obtain ⟨hlow,hhigh,-⟩ := hscope.untilTime u hu
    have hepoch : epoch1601=86400*yearStart 1601 := rfl
    have hyears : yearStart 0≤yearStart 1601 ∧ zeroTime<epoch1601 := by decide
    exact ⟨⟨by omega,hhigh⟩,by omega⟩
  · simp only
    omega

include hcarried

def Rrule.Back (T : Strings) (r : Rrule) (start : Int) : Prop :=
  ∃ p text,patternFromRecurrence r start=some p ∧ toRRule p.marshalBinary=some text ∧
    (readRule T text).freq=r.freq ∧ ((readRule T text).recurrence T).Same (r.recurrence T) start

theorem Filled.back {p : Pattern} (h : Filled r q) (hfill : p.fill=some q) (hknown : p.Known)
    (hkept : p.kept=p) (hpattern : patternFromRecurrence r start=some (p.setEndRange r))
    (hsame : (Rrule.recurrence T {q with count:=r.count,untilTime:=r.untilTime}).Same
      (r.recurrence T) start) : r.Back T start := by
  have htype : (p.setEndRange r).Known := by
    rw [Pattern.Known,(Pattern.setEndRange_pins p r).1]
    exact hknown
  have hpins : (p.setEndRange r).kept=p.setEndRange r := by
    rw [(Pattern.setEndRange_pins p r).2,hkept]
  have hblob := Pattern.unmarshal_blob (p.setEndRange r) htype [] [] [] (by decide) (by decide)
  rw [List.append_nil,hpins] at hblob
  have hinterval := hscope.interval
  have hrule := rrule_setEndRange hscope hcarried hfill h.count h.untilTime
    (by rw [h.interval]; omega)
  have hread := readRule_written hT (h.written hT hscope)
  refine ⟨_,_,hpattern,?_,by rw [hread]; exact h.freq,by rwa [hread]⟩
  rw [toRRule,Pattern.marshalBinary,hblob,Option.bind_some,hrule,Option.map_some]

omit hcarried in
theorem freq_read : (r.recurrence T).freq=freqOf r.freq := by
  simp only [Rrule.recurrence]
  rcases hscope.freq with hf | hf | hf | hf
  all_goals
    rw [hf,hT.trim_ascii _ (by decide),hT.upper_ascii _ (by decide)]
    rfl

omit hT hcarried in
theorem intervalPeriod_toNat : (intervalPeriod r).toNat=r.interval.toNat := by
  have hinterval := hscope.interval
  rw [intervalPeriod,u32_toNat]
  omega

omit hT hcarried in
theorem daily_filled (h : r.freq=lit "DAILY") :
    ((blank start).dailyPattern r).fill=some ⟨r.freq,r.interval,0,none,[],0,0,0⟩ := by
  have hinterval := hscope.interval
  have hperiod : (intervalPeriod r*24*60).toNat=1440*r.interval.toNat := by
    rw [UInt32.toNat_mul,UInt32.toNat_mul,intervalPeriod_toNat hscope]
    simp only [UInt32.reduceToNat,Nat.reducePow]
    omega
  simp only [Pattern.fill,Pattern.dailyPattern,hperiod,if_true,h]
  congr 2
  omega

omit hT hcarried in
theorem weekly_filled (h : r.freq=lit "WEEKLY") :
    ((blank start).weeklyPattern r start).fill=some ⟨r.freq,r.interval,0,none,
      bitmaskWeekdays ((blank start).weeklyPattern r start).dayOfWeek,0,0,0⟩ := by
  have hinterval := hscope.interval
  have hne : FreqWeekly≠FreqDaily := by decide
  simp only [Pattern.fill,Pattern.weeklyPattern,if_neg hne,if_true,h,intervalPeriod_toNat hscope]
  congr 2
  omega

omit hT hscope hcarried in
theorem dayOf_bounds (d : Int) : 1≤dayOf d ∧ dayOf d≤31 := by
  obtain ⟨hlow,hhigh⟩ := monthOf_spec d
  have hlength := (monthLength_bounds (monthOf d)).2
  unfold monthLength at hlength
  unfold dayOf
  omega

omit hT hscope hcarried in
theorem setPosFromWeek_week {n : Int} (h : -1≤n ∧ n≤4) :
    setPosFromWeek (weekOfMonthFromSetPos n)=n := by
  have hcases : n = -1 ∨ n=0 ∨ n=1 ∨ n=2 ∨ n=3 ∨ n=4 := by omega
  rcases hcases with rfl | rfl | rfl | rfl | rfl | rfl <;> decide

omit hT in
theorem fillDayPins_set (hfreq : r.freq=lit "MONTHLY" ∨ r.freq=lit "YEARLY") (p p' : Pattern)
    (htype : p'.patternType=(p.setDayPins r start).patternType)
    (hweek : p'.dayOfWeek=(p.setDayPins r start).dayOfWeek)
    (hday : p'.dayOfMonth=(p.setDayPins r start).dayOfMonth)
    (hpos : p'.weekOfMonth=(p.setDayPins r start).weekOfMonth) :
    p'.fillDayPins ⟨r.freq,r.interval,0,none,[],0,0,0⟩=r.pinned start := by
  simp only [Pattern.fillDayPins,htype,hweek,hday,hpos,Pattern.setDayPins,Rrule.pinned]
  by_cases hdays : r.weekdays=[]
  · have hne : PatternMonth≠PatternMonthNth := by decide
    have hbounds := dayOf_bounds (start/86400)
    have hmonthDay := hscope.monthDay
    have hpositive := hcarried.monthDay hfreq hdays
    simp only [hdays,ne_eq,not_true,if_false,if_neg hne]
    congr 1
    rw [u32_toNat]
    split_ifs <;> omega
  · simp only [ne_eq,hdays,not_false_eq_true,if_true]
    rw [setPosFromWeek_week (hcarried.setPos hfreq hdays)]

omit hT in
theorem monthly_filled (h : r.freq=lit "MONTHLY") :
    ((blank start).monthlyPattern r start).fill=some (r.pinned start) := by
  have hinterval := hscope.interval
  have hne : FreqMonthly≠FreqDaily ∧ FreqMonthly≠FreqWeekly := by decide
  have hpins := fillDayPins_set hscope hcarried (.inl h) (blank start)
    ((blank start).monthlyPattern r start) rfl rfl rfl rfl
  have hperiod : ((intervalPeriod r).toNat : Int)=r.interval := by
    rw [intervalPeriod_toNat hscope]
    omega
  simp only [Pattern.fill,Pattern.monthlyPattern,if_neg hne.1,if_neg hne.2,if_true,hperiod]
  rw [← h]
  exact congrArg some hpins

omit hT in
theorem yearly_filled (h : r.freq=lit "YEARLY") :
    ((blank start).yearlyPattern r start).fill=some (r.pinned start) := by
  have hinterval := hscope.interval
  have hne : FreqYearly≠FreqDaily ∧ FreqYearly≠FreqWeekly ∧ FreqYearly≠FreqMonthly := by decide
  have hpins := fillDayPins_set hscope hcarried (.inr h) (blank start)
    ((blank start).yearlyPattern r start) rfl rfl rfl rfl
  have hperiod : (((intervalPeriod r*12).toNat/12 : Nat) : Int)=r.interval := by
    rw [UInt32.toNat_mul,intervalPeriod_toNat hscope]
    simp only [UInt32.reduceToNat,Nat.reducePow]
    omega
  simp only [Pattern.fill,Pattern.yearlyPattern,if_neg hne.1,if_neg hne.2.1,if_neg hne.2.2,
    if_true,hperiod]
  rw [← h]
  exact congrArg some hpins

omit hscope hcarried in
theorem wanted_named {ws : List (Fin 7)} (h : q.weekdays=ws.map weekdayName) :
    (q.recurrence T).wantedWeekdays=ws := by
  have htoken : ∀ w,weekdayToken T (weekdayName w)=some w := by
    intro w
    obtain ⟨htrim,hupper⟩ := weekdayName_fixed hT w
    rw [weekdayToken,htrim,hupper,weekdayOf_name]
  simp only [Oxcical.Recurrence.wantedWeekdays,Rrule.recurrence,h,List.map_map,Function.comp_def,
    htoken,List.filterMap_map,id]
  exact List.filterMap_some

omit hT hscope hcarried in
theorem mem_wanted (h : ∀ d∈r.weekdays,weekdayToken T d=weekdayOf d) {w : Fin 7} :
    w∈(r.recurrence T).wantedWeekdays ↔ ∃ d∈r.weekdays,weekdayOf d=some w := by
  simp only [Oxcical.Recurrence.wantedWeekdays,Rrule.recurrence,List.filterMap_map,
    List.mem_filterMap,Function.comp_apply,id]
  constructor
  · rintro ⟨d,hd,hw⟩
    exact ⟨d,hd,(h d hd) ▸ hw⟩
  · rintro ⟨d,hd,hw⟩
    exact ⟨d,hd,(h d hd).trans hw⟩

omit hT hscope in
theorem mask_named (hfreq : r.freq≠lit "DAILY") (hdays : r.weekdays≠[]) :
    bitmaskWeekdays (UInt32.ofNat (weekdayBitmask r.weekdays))≠[] := by
  obtain ⟨⟨d,hd,hnamed⟩,-⟩ := hcarried.tokens hfreq hdays
  obtain ⟨w,hw⟩ := Option.ne_none_iff_exists'.mp hnamed
  rw [bitmaskWeekdays_eq,ne_eq,List.map_eq_nil_iff]
  exact List.ne_nil_of_mem (mem_maskDays.mpr ⟨d,hd,hw⟩)

omit hscope in
theorem wanted_mask (hfreq : r.freq≠lit "DAILY") (hdays : r.weekdays≠[])
    (hq : q.weekdays=bitmaskWeekdays (UInt32.ofNat (weekdayBitmask r.weekdays))) (w : Fin 7) :
    w∈(q.recurrence T).wantedWeekdays ↔ w∈(r.recurrence T).wantedWeekdays := by
  have htokens := (hcarried.tokens hfreq hdays).2
  rw [wanted_named hT (hq.trans (bitmaskWeekdays_eq _)),mem_maskDays,mem_wanted htokens]

omit hT hscope hcarried in
theorem freq_same (hqfreq : q.freq=r.freq) : (q.recurrence T).freq=(r.recurrence T).freq := by
  simp [Rrule.recurrence,hqfreq]

theorem weekly_same (hfreq : r.freq=lit "WEEKLY") (hq : q=⟨r.freq,r.interval,r.count,r.untilTime,
      bitmaskWeekdays ((blank start).weeklyPattern r start).dayOfWeek,0,0,0⟩) :
    (q.recurrence T).Same (r.recurrence T) start := by
  have hdays : q.weekdays=_ := congrArg Rrule.weekdays hq
  have hweekly : (r.recurrence T).freq=.weekly := by
    rw [freq_read hT hscope,hfreq]
    rfl
  have hweekly' : (q.recurrence T).freq=.weekly := (freq_same (by rw [hq])).trans hweekly
  have hsameInterval : (q.recurrence T).interval=(r.recurrence T).interval := by rw [hq]; rfl
  have hpositive := hscope.interval
  by_cases hnone : r.weekdays=[]
  · -- the weekday of the start is named, and every week has it once
    have hmask : ((blank start).weeklyPattern r start).dayOfWeek =
        UInt32.ofNat (2^(weekday (start/86400)).val) := by
      simp only [Pattern.weeklyPattern,hnone]
      rfl
    have hday : ∀ v : Fin 7,maskDays (UInt32.ofNat (2^v.val))=[v] := by decide
    rw [hmask,bitmaskWeekdays_eq,hday] at hdays
    have hwant := wanted_named hT hdays
    have hrnone : (r.recurrence T).weekdays=[] := by simp [Rrule.recurrence,hnone]
    have hqsome : (q.recurrence T).weekdays≠[] := by simp [Rrule.recurrence,hdays]
    have hperiod : (q.recurrence T).period start=(r.recurrence T).period start := by
      funext i
      have hn : 0 ≤ max (r.recurrence T).interval 1*i :=
        Int.mul_nonneg (by omega) (Int.natCast_nonneg i)
      have hall : ∀ w,w∈(q.recurrence T).wantedWeekdays ↔ w=weekday (start/86400) := by
        rw [hwant]
        simp
      have hweek := weekInstances_start hall hn
      simp only [period,hweekly,hweekly',hrnone,hsameInterval,ne_eq,hqsome,not_false_eq_true,
        not_true,if_true,if_false]
      rw [Int.mul_assoc 7]
      exact hweek
    apply occurrences_congr (congrArg Rrule.count hq) (congrArg Rrule.untilTime hq) hperiod
    right
    intro i
    simp [period,hweekly,hrnone]
  · have hdaily : r.freq≠lit "DAILY" := by rw [hfreq]; decide
    have hnamed := mask_named hcarried hdaily hnone
    have hmask : ((blank start).weeklyPattern r start).dayOfWeek =
        UInt32.ofNat (weekdayBitmask r.weekdays) := by
      simp only [Pattern.weeklyPattern]
      refine if_neg fun hzero => hnamed ?_
      rw [hzero]
      rfl
    rw [hmask] at hdays
    have hwant := wanted_mask hT hcarried hdaily hnone hdays
    have hrsome : (r.recurrence T).weekdays≠[] := by simp [Rrule.recurrence,hnone]
    have hqsome : (q.recurrence T).weekdays≠[] := by simp [Rrule.recurrence,hdays,hnamed]
    have hperiod : (q.recurrence T).period start=(r.recurrence T).period start := by
      funext i
      simp [period,hweekly,hweekly',hrsome,hqsome,hsameInterval,weekInstances_congr hwant]
    apply occurrences_congr (congrArg Rrule.count hq) (congrArg Rrule.untilTime hq) hperiod
    left
    simp [hweekly,hweekly',hrsome,hqsome]

omit hscope in
theorem pinned_days (hfreq : r.freq=lit "MONTHLY" ∨ r.freq=lit "YEARLY")
    (hdays : q.weekdays=(r.pinned start).weekdays) (hpos : q.setPos=(r.pinned start).setPos)
    (hday : q.monthDay=(r.pinned start).monthDay) (month : Int) :
    (q.recurrence T).monthDays month start=(r.recurrence T).monthDays month start := by
  have hdaily : r.freq≠lit "DAILY" := by rcases hfreq with h | h <;> rw [h] <;> decide
  by_cases hnone : r.weekdays=[]
  · simp only [Rrule.pinned,hnone,ne_eq,not_true,if_false] at hdays hday
    have hsame : (if q.monthDay=0 then dayOf (start/86400) else q.monthDay) =
        if r.monthDay=0 then dayOf (start/86400) else r.monthDay := by
      split_ifs <;> omega
    simp only [monthDays,Rrule.recurrence,hdays,hnone,List.map_nil,if_true]
    rw [hsame]
  · simp only [Rrule.pinned,ne_eq,hnone,not_false_eq_true,if_true] at hdays hpos
    have hwant := wanted_mask hT hcarried hdaily hnone hdays
    have hnamed := mask_named hcarried hdaily hnone
    have hrsome : (r.recurrence T).weekdays≠[] := by simp [Rrule.recurrence,hnone]
    have hqsome : (q.recurrence T).weekdays≠[] := by simp [Rrule.recurrence,hdays,hnamed]
    have hsamePos : (q.recurrence T).setPos=(r.recurrence T).setPos := hpos
    simp [monthDays,if_neg hrsome,if_neg hqsome,hsamePos,weekdaysInMonth_congr hwant]

omit hT hscope in
theorem firstMonth_start (h : r.freq=lit "YEARLY") :
    (r.recurrence T).firstMonth start=monthOf (start/86400) := by
  have hyear := monthOf_div (start/86400)
  rcases hcarried.month h with hzero | hsame
  · have hread : (r.recurrence T).month=0 := hzero
    simp [firstMonth,hread]
  · have hread : (r.recurrence T).month=monthOf (start/86400)%12+1 := hsame
    have hrange : (decide (1 ≤ monthOf (start/86400)%12+1) &&
        decide (monthOf (start/86400)%12+1≤12))=true := by
      simp only [Bool.and_eq_true,decide_eq_true_eq]
      omega
    simp only [firstMonth,hread,hrange,if_true]
    omega

theorem pinned_same (hfreq : r.freq=lit "MONTHLY" ∨ r.freq=lit "YEARLY")
    (hq : q = {r.pinned start with count:=r.count,untilTime:=r.untilTime}) :
    (q.recurrence T).Same (r.recurrence T) start := by
  have hfields : q.freq=r.freq ∧ q.interval=r.interval ∧ q.month=0 := by
    rw [hq]
    simp only [Rrule.pinned]
    split_ifs <;> exact ⟨rfl,rfl,rfl⟩
  obtain ⟨hqfreq,hinterval,hmonth⟩ := hfields
  have hsameFreq := freq_same (T := T) hqfreq
  have hread := freq_read hT hscope
  have hsameInterval : (q.recurrence T).interval=(r.recurrence T).interval := hinterval
  have hinstances : (q.recurrence T).monthInstances start=(r.recurrence T).monthInstances start :=
    by
      funext month
      simp only [monthInstances]
      rw [pinned_days hT hcarried hfreq (by rw [hq]) (by rw [hq]) (by rw [hq])]
  have hnever : freqOf (lit "MONTHLY")=.monthly ∧ freqOf (lit "YEARLY")=.yearly := by decide
  have hperiod : (q.recurrence T).period start=(r.recurrence T).period start := by
    funext i
    rcases hfreq with h | h
    · rw [h,hnever.1] at hread
      simp [period,hsameFreq,hread,hsameInterval,hinstances]
    · have hfirst := firstMonth_start hcarried h
      have hqfirst : (q.recurrence T).firstMonth start=monthOf (start/86400) := by
        simp only [firstMonth,Rrule.recurrence,hmonth]
        rfl
      rw [h,hnever.2] at hread
      simp [period,hsameFreq,hread,hsameInterval,hinstances,hfirst,hqfirst]
  apply occurrences_congr (congrArg Rrule.count hq) (congrArg Rrule.untilTime hq) hperiod
  left
  have hnot : (r.recurrence T).freq ≠ .weekly := by
    rcases hfreq with h | h <;> rw [hread,h] <;> decide
  rw [hsameFreq]
  exact iff_of_false (fun hw => hnot hw.1) fun hw => hnot hw.1

omit hcarried in
theorem daily_same (h : r.freq=lit "DAILY")
    (hq : q=⟨r.freq,r.interval,r.count,r.untilTime,[],0,0,0⟩) :
    (q.recurrence T).Same (r.recurrence T) start := by
  have hdaily : (r.recurrence T).freq=.daily := by
    rw [freq_read hT hscope,h]
    rfl
  have hsameFreq : (q.recurrence T).freq=(r.recurrence T).freq := freq_same (by rw [hq])
  have hsameInterval : (q.recurrence T).interval=(r.recurrence T).interval := by rw [hq]; rfl
  have hperiod : (q.recurrence T).period start=(r.recurrence T).period start := by
    funext i
    simp [period,hsameFreq,hdaily,hsameInterval]
  apply occurrences_congr (congrArg Rrule.count hq) (congrArg Rrule.untilTime hq) hperiod
  left
  simp [hsameFreq,hdaily]

omit hT in
theorem pinned_filled (hfreq : r.freq=lit "MONTHLY" ∨ r.freq=lit "YEARLY") :
    Filled r (r.pinned start) := by
  have hbounds := dayOf_bounds (start/86400)
  have hmonthDay := hscope.monthDay
  have hsetPos := hscope.setPos
  by_cases hnone : r.weekdays=[]
  · have hpositive := hcarried.monthDay hfreq hnone
    simp only [Rrule.pinned,hnone,ne_eq,not_true,if_false]
    refine ⟨rfl,rfl,rfl,rfl,⟨[],rfl⟩,⟨?_,?_,fun _ => rfl⟩,?_,rfl⟩
    · simp
    · simp
    · simp only
      split_ifs <;> omega
  · have hdaily : r.freq≠lit "DAILY" := by rcases hfreq with h | h <;> rw [h] <;> decide
    have hnamed := mask_named hcarried hdaily hnone
    simp only [Rrule.pinned,ne_eq,hnone,not_false_eq_true,if_true]
    exact ⟨rfl,rfl,rfl,rfl,⟨_,bitmaskWeekdays_eq _⟩,⟨hsetPos.1,hsetPos.2,(absurd · hnamed)⟩,
      by simp,rfl⟩

omit hT hscope hcarried in
theorem setDayPins_kept (r : Rrule) (start : Int) (freq : UInt16) (first period : UInt32) :
    let p := {(blank start).setDayPins r start with
      recurFrequency:=freq,period:=period,firstDateTime:=first}
    p.Known ∧ p.kept=p := by
  have hne : PatternMonthNth≠PatternMonth ∧ PatternMonth≠PatternMonthNth ∧
      PatternMonth≠PatternWeek := by decide
  by_cases hnone : r.weekdays=[]
  · simp only [Pattern.setDayPins,hnone,ne_eq,not_true,if_false]
    refine ⟨.inr (.inr (.inl rfl)),?_⟩
    simp [Pattern.kept,blank]
  · simp only [Pattern.setDayPins,ne_eq,hnone,not_false_eq_true,if_true]
    refine ⟨.inr (.inr (.inr rfl)),?_⟩
    simp [Pattern.kept,blank]

theorem pattern_back : r.Back T start := by
  have hne : lit "WEEKLY" ≠ lit "DAILY" ∧ lit "MONTHLY" ≠ lit "DAILY" ∧
      lit "MONTHLY" ≠ lit "WEEKLY" ∧ lit "YEARLY" ≠ lit "DAILY" ∧ lit "YEARLY" ≠ lit "WEEKLY" ∧
      lit "YEARLY" ≠ lit "MONTHLY" := by decide
  rcases hscope.freq with h | h | h | h
  · have hfilled : Filled r ⟨r.freq,r.interval,0,none,[],0,0,0⟩ :=
      ⟨rfl,rfl,rfl,rfl,⟨[],rfl⟩,⟨by simp,by simp,fun _ => rfl⟩,by simp,rfl⟩
    exact hfilled.back hT hscope hcarried (daily_filled hscope h) (.inl rfl) rfl (if_pos h)
      (daily_same hT hscope h rfl)
  · have hfilled : Filled r ⟨r.freq,r.interval,0,none,
        bitmaskWeekdays ((blank start).weeklyPattern r start).dayOfWeek,0,0,0⟩ :=
      ⟨rfl,rfl,rfl,rfl,⟨_,bitmaskWeekdays_eq _⟩,⟨by simp,by simp,fun _ => rfl⟩,by simp,rfl⟩
    refine hfilled.back hT hscope hcarried (weekly_filled hscope h) (.inr (.inl rfl)) rfl ?_
      (weekly_same hT hscope hcarried h rfl)
    rw [patternFromRecurrence,h,if_neg hne.1,if_pos rfl]
    rfl
  · obtain ⟨hknown,hkept⟩ := setDayPins_kept r start FreqMonthly
      (monthlyFirstDateTime start (intervalPeriod r)) (intervalPeriod r)
    refine (pinned_filled hscope hcarried (.inl h)).back hT hscope hcarried
      (monthly_filled hscope hcarried h) hknown hkept ?_ (pinned_same hT hscope hcarried (.inl h) rfl)
    rw [patternFromRecurrence,h,if_neg hne.2.1,if_neg hne.2.2.1,if_pos rfl]
    rfl
  · obtain ⟨hknown,hkept⟩ := setDayPins_kept r start FreqYearly
      (monthlyFirstDateTime start (intervalPeriod r*12)) (intervalPeriod r*12)
    refine (pinned_filled hscope hcarried (.inr h)).back hT hscope hcarried
      (yearly_filled hscope hcarried h) hknown hkept ?_ (pinned_same hT hscope hcarried (.inr h) rfl)
    rw [patternFromRecurrence,h,if_neg hne.2.2.2.1,if_neg hne.2.2.2.2.1,if_neg hne.2.2.2.2.2,
      if_pos rfl]
    rfl

end Back

/-- A rule that a pattern can say comes back with the same occurrences, unbounded and, where both
fit, as times. -/
theorem toRRule_fromRRule_same {T : Strings} (hT : T.Lawful) {rruleText blob : Bytes}
    {start : Int} (hblob : fromRRule T rruleText start = some blob)
    (hscope : (readRule T rruleText).InScope) (hcarried : (readRule T rruleText).Carried T start) :
    ∃ text r r',toRRule blob = some text ∧ Oxcical.parseRRule T rruleText = some r ∧
      Oxcical.parseRRule T text = some r' ∧ ∀ windowStart windowEnd limit,
        r'.occurrences start windowStart windowEnd limit =
          r.occurrences start windowStart windowEnd limit ∧
        (r'.Fits start windowEnd limit → r.Fits start windowEnd limit →
          r'.occurrences64 start windowStart windowEnd limit =
            r.occurrences64 start windowStart windowEnd limit) := by
  obtain ⟨p,text,hpattern,htext,hfreq,hsame⟩ := pattern_back hT hscope hcarried
  have hnamed : (readRule T rruleText).freq≠[] := by
    rcases hscope.freq with h | h | h | h <;> rw [h] <;> decide
  have hmarshal : blob=p.marshalBinary := by
    rw [fromRRule,parseRRule] at hblob
    split_ifs at hblob
    · cases hblob
    · simp only [if_neg hnamed,Option.bind_some,hpattern,Option.map_some,Option.some.injEq] at hblob
      exact hblob.symm
  refine ⟨text,_,_,hmarshal ▸ htext,if_neg hnamed,if_neg (hfreq ▸ hnamed),?_⟩
  intro windowStart windowEnd limit
  have h := hsame windowStart windowEnd limit
  refine ⟨h,?_⟩
  intro hfits' hfits
  rw [hfits'.occurrences,hfits.occurrences,← Oxcical.Recurrence.occurrences_eq,
    ← Oxcical.Recurrence.occurrences_eq]
  exact h

theorem toRRule_fromRRule_same_weekly :
    let rruleText := lit "FREQ=WEEKLY;INTERVAL=2;COUNT=5;BYDAY=MO,WE"
    ∃ blob,fromRRule .ascii rruleText 0 = some blob ∧
      ∃ text r r',toRRule blob = some text ∧ Oxcical.parseRRule .ascii rruleText = some r ∧
        Oxcical.parseRRule .ascii text = some r' ∧ ∀ windowStart windowEnd limit,
          r'.occurrences 0 windowStart windowEnd limit =
            r.occurrences 0 windowStart windowEnd limit ∧
          (r'.Fits 0 windowEnd limit → r.Fits 0 windowEnd limit →
            r'.occurrences64 0 windowStart windowEnd limit =
              r.occurrences64 0 windowStart windowEnd limit) := by
  intro rruleText
  have hrule : readRule .ascii rruleText =
      ⟨lit "WEEKLY",2,5,none,[lit "MO",lit "WE"],0,0,0⟩ := by decide +kernel
  have hsome : (fromRRule .ascii rruleText 0).isSome=true := by decide +kernel
  obtain ⟨blob,hblob⟩ := Option.isSome_iff_exists.mp hsome
  refine ⟨blob,hblob,toRRule_fromRRule_same Strings.ascii_lawful hblob ?_ ?_⟩
  · rw [hrule]
    exact ⟨by decide,by decide,by decide,by decide,by decide,by decide,
      fun u hu => absurd hu (by simp)⟩
  · rw [hrule]
    exact ⟨fun u hu => absurd hu (by simp),fun _ _ => ⟨⟨lit "MO",by decide,by decide⟩,by decide⟩,
      fun h => absurd h (by decide),fun h => absurd h (by decide),fun h => absurd h (by decide)⟩

/-- The last day of months comes back as a day none has. -/
theorem last_day_lost :
    let rruleText := lit "FREQ=MONTHLY;BYMONTHDAY=-1"
    (readRule .ascii rruleText).InScope ∧
      ∃ blob text r r',fromRRule .ascii rruleText 0 = some blob ∧ toRRule blob = some text ∧
        Oxcical.parseRRule .ascii rruleText = some r ∧ Oxcical.parseRRule .ascii text = some r' ∧
        r.occurrences 0 0 (Oxcical.nanos 2678400) 1 = [2592000] ∧
        r'.occurrences 0 0 (Oxcical.nanos 2678400) 1 = [] := by
  intro rruleText
  have hrule : readRule .ascii rruleText=⟨lit "MONTHLY",1,0,none,[],0,-1,0⟩ := by decide +kernel
  have hback : (fromRRule .ascii rruleText 0).bind toRRule =
      some (lit "FREQ=MONTHLY;INTERVAL=1;BYMONTHDAY=4294967295") := by decide +kernel
  obtain ⟨blob,hblob,htext⟩ := Option.bind_eq_some_iff.mp hback
  refine ⟨?_,blob,_,Rrule.recurrence .ascii ⟨lit "MONTHLY",1,0,none,[],0,-1,0⟩,
    Rrule.recurrence .ascii ⟨lit "MONTHLY",1,0,none,[],0,4294967295,0⟩,hblob,htext,?_,?_,?_,?_⟩
  · rw [hrule]
    exact ⟨by decide,by decide,by decide,by decide,by decide,by decide,
      fun u hu => absurd hu (by simp)⟩
  · rfl
  · rfl
  · decide +kernel
  · decide +kernel

end HermEX.Recurrence
