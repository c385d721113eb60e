import Mathlib.Algebra.Group.Int.Defs
import HermEX.Framework.Civil
import HermEX.Framework.Walk

namespace HermEX.Oxcical

open Framework Framework.Civil

def nanos (t : Int) : Int := 1000000000*t

inductive Freq where
  | daily
  | weekly
  | monthly
  | yearly
  | other
deriving DecidableEq

abbrev Weekday := Fin 7

structure Recurrence where
  freq : Freq
  interval : Int
  count : Int
  untilTime : Option Int
  weekdays : List (Option Weekday)
  setPos : Int
  monthDay : Int
  month : Int
deriving DecidableEq

def inWindow (windowStart windowEnd : Int) (t : Int) : Bool :=
  windowStart≤nanos t && nanos t<windowEnd

structure OccurrenceSink where
  count : Int
  untilTime : Option Int
  windowStart : Int
  windowEnd : Int
  emitted : Nat
  out : List Int

namespace OccurrenceSink

def emit (s : OccurrenceSink) (t : Int) : OccurrenceSink :=
  let out := if inWindow s.windowStart s.windowEnd t then s.out++[t] else s.out
  {s with emitted:=s.emitted+1,out:=out}

def add (s : OccurrenceSink) (t : Int) : OccurrenceSink×Bool :=
  if 0 < s.count && decide (s.count ≤ s.emitted) then (s,false)
  else if s.untilTime.any (· < t) then (s,false)
  else (s.emit t,true)

def scan (most : Option Nat) (s : OccurrenceSink) (t : Int) : OccurrenceSink×Bool :=
  match s.add t with
  | (s',more) => (s',more && most.all (s'.emitted < ·))

end OccurrenceSink

namespace Recurrence

variable (r : Recurrence)

def wantedWeekdays : List Weekday := r.weekdays.filterMap id

def pickSetPos (days : List Int) (pos : Int) : List Int :=
  let i := if pos<0 then days.length+pos else pos-1
  if i<0 || days.length ≤ i then [] else (days.drop i.toNat).take 1

def scanLimit (limit : Int) : Nat := if limit≤0 then 4096 else limit.toNat

def most (limit : Int) : Option Nat :=
  if r.freq=.weekly ∧ r.weekdays≠[] then some (scanLimit limit) else none

end Recurrence

/-- The instant of a reading, and the reading at an instant. -/
structure Clock where
  date : Int → Int
  wall : Int → Int

/-- The seconds ahead of UTC, at each instant. -/
abbrev Zone := Int → Int

def utc : Zone := fun _ => 0

/-- 64 bits of seconds from the year 1. -/
def time64 (t : Int) : Int := (t+62135596800+2^63)%2^64-2^63-62135596800

/-- The offset at the instant that the reading's own offset gives. -/
def Zone.clock (wrap : Int → Int) (zone : Zone) : Clock where
  date w := wrap (wrap w-zone (wrap w-zone (wrap w)))
  wall t := t+zone t

namespace Clock

variable (C : Clock) (r : Recurrence)

def day (t : Int) : Int := C.wall t/86400

def addDate (t months days : Int) : Int :=
  C.date (86400*(monthStart (monthOf (C.day t)+months)+(dayOf (C.day t)-1)+days)+C.wall t%86400)

def atClock (seriesStart d : Int) : Int := C.date (86400*C.day d+C.wall seriesStart%86400)

def weekStartMonday (t : Int) : Int :=
  C.date (86400*C.day (C.addDate t 0 (-(((weekday (C.day t)).val+6)%7 : Nat))))

def weekInstances (seriesStart base : Int) : List Int :=
  let days := ((List.range 7).map fun off : Nat => C.addDate base 0 off).filter fun day =>
    r.wantedWeekdays.contains (weekday (C.day day))
  (days.map (C.atClock seriesStart)).filter fun inst => seriesStart ≤ inst

def monthDay? (first day : Int) : Option Int :=
  let length := dayOf (C.day (C.addDate first 1 (-1)))
  let day := if day<0 then length+day+1 else day
  if day<1 || length<day then none else some (C.addDate first 0 (day-1))

def daysInMonth (month : Int) : Nat → Int → List Int
  | 0,_ => []
  | n+1,d => if monthOf (C.day d)%12=month then d::daysInMonth month n (C.addDate d 0 1) else []

def weekdaysInMonth (first : Int) (want : List Weekday) : List Int :=
  (C.daysInMonth (monthOf (C.day first)%12) 32 first).filter fun d =>
    want.contains (weekday (C.day d))

def monthDays (first seriesStart : Int) : List Int :=
  if r.weekdays=[] then
    let day := if r.monthDay=0 then dayOf (C.day seriesStart) else r.monthDay
    (C.monthDay? first day).toList
  else
    let days := C.weekdaysInMonth first r.wantedWeekdays
    if r.setPos=0 then days else Recurrence.pickSetPos days r.setPos

def monthInstances (seriesStart first : Int) : List Int :=
  ((C.monthDays r first seriesStart).map (C.atClock seriesStart)).filter fun inst =>
    seriesStart ≤ inst

def firstMonth (seriesStart : Int) : Int :=
  if 1 ≤ r.month && r.month≤12 then 12*yearOf (C.day seriesStart)+(r.month-1)
  else monthOf (C.day seriesStart)

def periodStart (seriesStart : Int) (i : Nat) : Int :=
  let interval := max r.interval 1
  match r.freq with
  | .weekly =>
    if r.weekdays≠[] then C.addDate (C.weekStartMonday seriesStart) 0 (7*interval*i)
    else C.addDate seriesStart 0 (7*interval*i)
  | .daily => C.addDate seriesStart 0 (interval*i)
  | .monthly => C.date (86400*monthStart (monthOf (C.day seriesStart)+interval*i))
  | .yearly => C.date (86400*monthStart (C.firstMonth r seriesStart+12*interval*i))
  | .other => seriesStart

def instances (seriesStart first : Int) : List Int :=
  match r.freq with
  | .weekly => if r.weekdays≠[] then C.weekInstances r seriesStart first else [first]
  | .daily => [first]
  | .monthly => C.monthInstances r seriesStart first
  | .yearly => C.monthInstances r seriesStart first
  | .other => []

def period (seriesStart : Int) (i : Nat) : List Int :=
  C.instances r seriesStart (C.periodStart r seriesStart i)

def past (seriesStart windowEnd : Int) (i : Nat) : Bool :=
  windowEnd<nanos (C.periodStart r seriesStart i)

def occurrences (seriesStart windowStart windowEnd limit : Int) : List Int :=
  (walk (OccurrenceSink.scan (r.most limit)) (C.period r seriesStart)
    (C.past r seriesStart windowEnd) (Recurrence.scanLimit limit) 0
    ⟨r.count,r.untilTime,windowStart,windowEnd,0,[]⟩).out

end Clock

namespace Recurrence

variable (r : Recurrence)

def bounded (instances : List Int) : List Int :=
  (if 0 < r.count then instances.take r.count.toNat else instances).takeWhile
    fun t => !r.untilTime.any (· < t)

/-- An instance of a period, COUNT and UNTIL kept. -/
def Defines (zone : Zone) (seriesStart t : Int) : Prop :=
  ∃ n,t∈r.bounded (periods ((zone.clock id).period r seriesStart) 0 n)

abbrev occurrences := (utc.clock id).occurrences r

/-- In UTC, with the instants a time can hold. -/
abbrev occurrences64 := (utc.clock time64).occurrences r

end Recurrence
end HermEX.Oxcical
