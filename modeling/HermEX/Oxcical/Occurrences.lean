import HermEX.Framework.Table
import HermEX.Oxcical.Recurrence
import Mathlib.Data.List.Sort

namespace HermEX.Oxcical

open Framework

structure Event where
  recurrenceID : Option (Option Int)
  dtstart : Option Int
  allDay : Bool
  zone : Option Zone
  dtend : Option Int
  duration : Option Int
  cancelled : Bool
  rrule : Option (Option Recurrence)
  addedInstants : List Int
  exdates : List Int

def Event.eventEnd (c : Event) (start : Int) : Int :=
  match c.dtend,c.duration with
  | some e,_ => e
  | none,some d => start+d
  | none,none => if c.allDay then start+86400 else start

structure Span where
  start : Int
  finish : Int
deriving DecidableEq

/-- Its instant in the series, and its span. -/
structure Instance where
  instant : Int
  span : Span
deriving DecidableEq

abbrev Overrides := Table (Prod.fst : Int×Event → Int)

/-- What an expansion needs; RDATEs alone have no rule. -/
structure Series where
  start : Int
  allDay : Bool
  zone : Zone
  dur : Int
  rule : Option Recurrence

def overlapsRange (s e rangeStart rangeEnd : Int) : Bool :=
  if ¬s<e then rangeStart ≤ s && s < rangeEnd else s < rangeEnd && rangeStart<e

def Span.overlaps (x : Span) (rangeStart rangeEnd : Int) : Bool :=
  overlapsRange (nanos x.start) (nanos x.finish) rangeStart rangeEnd

variable (cal : List Event) (overrides : Overrides)

def master : Option Event := cal.find? fun c => c.recurrenceID.isNone

def Overrides.record (c : Event) : Overrides :=
  match c.recurrenceID with
  | some (some t) => overrides.put (t,c)
  | _ => overrides

def overridesOf : Overrides := cal.foldl Overrides.record Table.empty

def Overrides.at (t : Int) : Option Event := (overrides.get t).map Prod.snd

/-- A duration ends at 2^63 nanoseconds. -/
def timeSub (finish start : Int) : Int := max (min (finish-start) 9223372036) (-9223372036)

def Event.seriesShape (m : Event) : Option Series :=
  match m.dtstart with
  | none => none
  | some start =>
    let zone := if m.allDay then utc else m.zone.getD utc
    let shape := Series.mk start m.allDay zone (timeSub (m.eventEnd start) start)
    match m.rrule with
    | some none => none
    | some (some rule) => some (shape (some rule))
    | none => if m.addedInstants=[] then none else some (shape none)

def Series.generated (s : Series) (rangeStart rangeEnd : Int) : List Int :=
  match s.rule with
  | some rule => (s.zone.clock time64).occurrences rule s.start rangeStart rangeEnd 4096
  | none => [s.start].filter (inWindow rangeStart rangeEnd)

def addInstant (skip out : List Int) (t : Int) : List Int :=
  if skip.contains t || out.contains t then out else out++[t]

def seriesInstants (m : Event) (s : Series) (skip : List Int) (rangeStart rangeEnd : Int) :
    List Int :=
  let added := m.addedInstants.filter (inWindow rangeStart rangeEnd)
  ((s.generated rangeStart rangeEnd++added).foldl (addInstant skip) []).insertionSort (· ≤ ·)

def overrideSpan (override : Event) (instant dur : Int) : Span :=
  match override.dtstart with
  | none => ⟨instant,instant+dur⟩
  | some s => ⟨s,override.eventEnd s⟩

def instanceSpan (override : Option Event) (instant dur : Int) : Option Span :=
  match override with
  | none => some ⟨instant,instant+dur⟩
  | some override => if override.cancelled then none else some (overrideSpan override instant dur)

def overrideInstances (skip : List Int) (dur rangeStart rangeEnd : Int) :
    List Instance :=
  overrides.rows.filterMap fun x =>
    if skip.contains x.1 then none
    else ((instanceSpan (some x.2) x.1 dur).filter (·.overlaps rangeStart rangeEnd)).map
      (Instance.mk x.1)

def plainInstances (instants : List Int) (dur rangeStart rangeEnd : Int) :
    List Instance :=
  instants.filterMap fun t =>
    if (overrides.at t).isSome then none
    else if Span.overlaps ⟨t,t+dur⟩ rangeStart rangeEnd then some ⟨t,t,t+dur⟩
    else none

def instancesIn (rangeStart rangeEnd : Int) : Option (List Instance) :=
  (master cal).bind fun m => m.seriesShape.map fun s =>
    let overrides := overridesOf cal
    let instants := seriesInstants m s m.exdates rangeStart rangeEnd
    (overrideInstances overrides m.exdates s.dur rangeStart rangeEnd ++
      plainInstances overrides instants s.dur rangeStart rangeEnd).insertionSort
      fun a b => a.span.start≤b.span.start

def occurrencesIn (rangeStart rangeEnd : Int) : Option (List Span) :=
  (instancesIn cal rangeStart rangeEnd).map fun instances => instances.map (·.span)

end HermEX.Oxcical
