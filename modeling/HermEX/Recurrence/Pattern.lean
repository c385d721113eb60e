import HermEX.Recurrence.RRule

namespace HermEX.Recurrence

open Framework Framework.Civil

def PatternDay : UInt16 := 0x0000
def PatternWeek : UInt16 := 0x0001
def PatternMonth : UInt16 := 0x0002
def PatternMonthNth : UInt16 := 0x0003

def FreqDaily : UInt16 := 0x200A
def FreqWeekly : UInt16 := 0x200B
def FreqMonthly : UInt16 := 0x200C
def FreqYearly : UInt16 := 0x200D

def EndAfterDate : UInt32 := 0x00002021
def EndAfterN : UInt32 := 0x00002022
def EndNever : UInt32 := 0x00002023
def EndNeverAlt : UInt32 := 0xFFFFFFFF

def noEndDate : UInt32 := 0x5AE980DF

/-- Dates are minutes from 1601 on. -/
structure Pattern where
  recurFrequency : UInt16
  patternType : UInt16
  firstDateTime : UInt32
  period : UInt32
  endType : UInt32
  occurrenceCount : UInt32
  firstDOW : UInt32
  dayOfWeek : UInt32
  dayOfMonth : UInt32
  weekOfMonth : UInt32
  startDate : UInt32
  endDate : UInt32
deriving DecidableEq

namespace Pattern

def putDates (dates : List UInt32) : Bytes := put32 (UInt32.ofNat dates.length)++dates.flatMap put32

def specific (p : Pattern) : Bytes :=
  if p.patternType=PatternWeek then put32 p.dayOfWeek
  else if p.patternType=PatternMonth then put32 p.dayOfMonth
  else if p.patternType=PatternMonthNth then put32 p.dayOfWeek++put32 p.weekOfMonth
  else put32 0

def head (p : Pattern) : Bytes :=
  put16 0x3004++(put16 0x3004++(put16 p.recurFrequency++(put16 p.patternType ++
    (put16 0++(put32 p.firstDateTime++(put32 p.period++put32 0))))))

def marshal (p : Pattern) (deleted modified : List UInt32) : Bytes :=
  p.head++(p.specific++(put32 p.endType++(put32 p.occurrenceCount++(put32 p.firstDOW ++
    (putDates deleted++(putDates modified++(put32 p.startDate++put32 p.endDate)))))))

def marshalBinary (p : Pattern) : Bytes := p.marshal [] []

end Pattern

def unmarshalSpecific (b : Bytes) (p : Pattern) : Option (Nat×Pattern) :=
  if p.patternType=PatternDay then some (26,p)
  else if p.patternType=PatternWeek then some (26,{p with dayOfWeek:=u32At b 22})
  else if p.patternType=PatternMonth then some (26,{p with dayOfMonth:=u32At b 22})
  else if p.patternType=PatternMonthNth then
    if b.length<30 then none
    else some (30,{p with dayOfWeek:=u32At b 22,weekOfMonth:=u32At b 26})
  else none

def unmarshalEnd (b : Bytes) (off : Nat) (p : Pattern) : Option Pattern :=
  if b.length<off+20 then none
  else
    let p := {p with
      endType:=u32At b off
      occurrenceCount:=u32At b (off+4)
      firstDOW:=u32At b (off+8)}
    let off := off+16+4*(u32At b (off+12)).toNat
    if b.length<off+4 then none
    else
      let off := off+4+4*(u32At b off).toNat
      if b.length<off+8 then none
      else some {p with startDate:=u32At b off,endDate:=u32At b (off+4)}

def unmarshalBinary (b : Bytes) : Option Pattern :=
  if b.length<40 then none
  else
    let p : Pattern := ⟨u16At b 4,u16At b 6,u32At b 10,u32At b 14,0,0,0,0,0,0,0,0⟩
    (unmarshalSpecific b p).bind fun x => unmarshalEnd b x.1 x.2

def u32 (n : Int) : UInt32 := UInt32.ofNat (n%4294967296).toNat

def epoch1601 : Int := 86400*yearStart 1601

def minutesSince1601 (t : Int) : UInt32 :=
  if t<epoch1601 then 0
  else
    let year := yearOf (t/86400)
    let days := (List.range (year-1601).toNat).foldl
      (fun (days : Int) (i : Nat) => days+if leap (1601+i) then 366 else 365) 0
    u32 (days+(t/86400-yearStart year))*24*60+u32 (t%86400/3600)*60 + u32 (t%86400/60%60)

def weekdayBitmask (days : List Bytes) : Nat :=
  days.foldl (fun mask d => mask ||| ((weekdayOf d).map fun w => 2^w.val).getD 0) 0

def weekOfMonthFromSetPos (setPos : Int) : UInt32 :=
  if setPos = -1 then 5 else if 1 ≤ setPos ∧ setPos≤5 then u32 setPos else 0

def intervalPeriod (r : Rrule) : UInt32 := u32 (max r.interval 1)

def weeklyFirstDateTime (start : Int) (periodWeeks : UInt32) : UInt32 :=
  let weekStart := 86400*(start/86400-(weekday (start/86400)).val)
  let periodMinutes := periodWeeks*7*24*60
  if periodMinutes=0 then 0 else minutesSince1601 weekStart%periodMinutes

def monthlyFirstDateTime (start : Int) (periodMonths : UInt32) : UInt32 :=
  let month := monthOf (start/86400)
  let monthsSince1601 := u32 (month/12-1601)*12+u32 (month%12)
  if periodMonths=0 then 0 else monthsSince1601%periodMonths

namespace Pattern

def setDayPins (p : Pattern) (r : Rrule) (start : Int) : Pattern :=
  if r.weekdays≠[] then
    {p with
      patternType:=PatternMonthNth
      dayOfWeek:=UInt32.ofNat (weekdayBitmask r.weekdays)
      weekOfMonth:=weekOfMonthFromSetPos r.setPos}
  else
    let day := if r.monthDay=0 then dayOf (start/86400) else r.monthDay
    {p with patternType:=PatternMonth,dayOfMonth:=u32 day}

def dailyPattern (p : Pattern) (r : Rrule) : Pattern :=
  let periodMinutes := intervalPeriod r*24*60
  {p with
    recurFrequency:=FreqDaily
    patternType:=PatternDay
    period:=periodMinutes
    firstDateTime:=p.startDate%periodMinutes}

def weeklyPattern (p : Pattern) (r : Rrule) (start : Int) : Pattern :=
  let mask := UInt32.ofNat (weekdayBitmask r.weekdays)
  {p with
    recurFrequency:=FreqWeekly
    patternType:=PatternWeek
    period:=intervalPeriod r
    dayOfWeek:=if mask=0 then UInt32.ofNat (2^(weekday (start/86400)).val) else mask
    firstDateTime:=weeklyFirstDateTime start (intervalPeriod r)}

def monthlyPattern (p : Pattern) (r : Rrule) (start : Int) : Pattern :=
  {p.setDayPins r start with
    recurFrequency:=FreqMonthly
    period:=intervalPeriod r
    firstDateTime:=monthlyFirstDateTime start (intervalPeriod r)}

def yearlyPattern (p : Pattern) (r : Rrule) (start : Int) : Pattern :=
  {p.setDayPins r start with
    recurFrequency:=FreqYearly
    period:=intervalPeriod r*12
    firstDateTime:=monthlyFirstDateTime start (intervalPeriod r*12)}

def setEndRange (p : Pattern) (r : Rrule) : Pattern :=
  match r.untilTime with
  | some t => {p with endType:=EndAfterDate,endDate:=minutesSince1601 t,occurrenceCount:=0xA}
  | none =>
    if 0 < r.count then
      {p with endType:=EndAfterN,occurrenceCount:=u32 r.count,endDate:=noEndDate}
    else {p with endType:=EndNever,occurrenceCount:=0xA,endDate:=noEndDate}

end Pattern

def patternFromRecurrence (r : Rrule) (start : Int) : Option Pattern :=
  let p : Pattern := ⟨0,0,0,0,0,0,0,0,0,0,minutesSince1601 start,0⟩
  if r.freq=lit "DAILY" then some ((p.dailyPattern r).setEndRange r)
  else if r.freq=lit "WEEKLY" then some ((p.weeklyPattern r start).setEndRange r)
  else if r.freq=lit "MONTHLY" then some ((p.monthlyPattern r start).setEndRange r)
  else if r.freq=lit "YEARLY" then some ((p.yearlyPattern r start).setEndRange r)
  else none

def fromRRule (T : Strings) (rruleText : Bytes) (seriesStart : Int) : Option Bytes :=
  (parseRRule T rruleText).bind fun r =>
    (patternFromRecurrence r seriesStart).map Pattern.marshalBinary

def bitmaskWeekdays (mask : UInt32) : List Bytes :=
  ((List.finRange 7).filter fun w => mask.toNat.testBit w.val).map weekdayName

def setPosFromWeek (week : UInt32) : Int :=
  if 1≤week.toNat ∧ week.toNat≤4 then week.toNat else if week=5 then -1 else 0

def timeFromMinutes (min : UInt32) : Int := epoch1601+60*min.toNat

namespace Pattern

variable (p : Pattern)

def fillDayPins (r : Rrule) : Rrule :=
  if p.patternType=PatternMonthNth then
    {r with weekdays:=bitmaskWeekdays p.dayOfWeek,setPos:=setPosFromWeek p.weekOfMonth}
  else {r with monthDay:=p.dayOfMonth.toNat}

def fill : Option Rrule :=
  let r : Rrule := ⟨[],0,0,none,[],0,0,0⟩
  if p.recurFrequency=FreqDaily then
    some {r with
      freq:=lit "DAILY"
      interval:=if p.period.toNat%1440=0 then (p.period.toNat/1440 : Nat) else 0}
  else if p.recurFrequency=FreqWeekly then
    some {r with
      freq:=lit "WEEKLY"
      interval:=p.period.toNat
      weekdays:=bitmaskWeekdays p.dayOfWeek}
  else if p.recurFrequency=FreqMonthly then
    some (p.fillDayPins {r with freq:=lit "MONTHLY",interval:=p.period.toNat})
  else if p.recurFrequency=FreqYearly then
    some (p.fillDayPins {r with freq:=lit "YEARLY",interval:=(p.period.toNat/12 : Nat)})
  else none

def applyEndRange (r : Rrule) : Option Rrule :=
  if p.endType=EndAfterDate then
    if p.endDate≠0 ∧ p.endDate≠noEndDate then
      some {r with untilTime:=some (timeFromMinutes p.endDate)}
    else some r
  else if p.endType=EndAfterN then some {r with count:=p.occurrenceCount.toNat}
  else if p.endType=EndNever ∨ p.endType=EndNeverAlt then some r
  else none

def rrule (until_ : Option Int) : Option Rrule :=
  p.fill.bind fun r =>
    (p.applyEndRange {r with interval:=if r.interval≤0 then 1 else r.interval}).map fun r =>
      if p.endType=EndAfterDate ∧ until_.isSome then {r with untilTime:=until_} else r

end Pattern

def toRRule (blob : Bytes) : Option Bytes :=
  (unmarshalBinary blob).bind fun p => (p.rrule none).map rruleString

end HermEX.Recurrence
