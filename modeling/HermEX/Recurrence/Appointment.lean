import HermEX.Recurrence.Blob
import Mathlib.Data.List.Sort

namespace HermEX.Recurrence

open Framework

def OverrideSubject : UInt16 := 0x0001
def OverrideMeetingType : UInt16 := 0x0002
def OverrideReminderDelta : UInt16 := 0x0004
def OverrideReminder : UInt16 := 0x0008
def OverrideLocation : UInt16 := 0x0010
def OverrideBusyStatus : UInt16 := 0x0020
def OverrideAttachment : UInt16 := 0x0040
def OverrideSubType : UInt16 := 0x0080
def OverrideColor : UInt16 := 0x0100

def changeHighlightVersion : UInt32 := 0x00003009

def appointmentReaderVersion : UInt32 := 0x00003006

/-- The flags say which of the fields are there. -/
structure Exception where
  start : UInt32
  end_ : UInt32
  originalStart : UInt32
  flags : UInt16
  subject : Bytes
  location : Bytes
  busyStatus : Int32
  reminderDelta : Int32
  reminderSet : Bool
  allDay : Bool

structure AppointmentPattern extends Pattern where
  deletedDates : List UInt32
  modifiedDates : List UInt32
  hasTimes : Bool
  startTimeOffset : UInt32
  endTimeOffset : UInt32
  exceptions : List Exception

def overrides (flags flag : UInt16) : Bool := flags &&& flag != 0

def day (minutes : UInt32) : UInt32 := minutes-minutes%(24*60)

def compact : List UInt32 → List UInt32
  | [] => []
  | [d] => [d]
  | d::d'::ds => if d=d' then compact (d'::ds) else d::compact (d'::ds)

def sortedDates (dates : List UInt32) : List UInt32 := compact (dates.insertionSort (· ≤ ·))

def byStart (a b : Exception) : Prop := a.start≤b.start

instance : DecidableRel byStart := fun a b => inferInstanceAs (Decidable (a.start≤b.start))

def bool32 (v : Bool) : Bytes := put32 (if v then 1 else 0)

def narrow (s : Bytes) : Bytes :=
  (utf8Runes s).map fun r => if 0xFF < r.toNat then 0x3F else UInt8.ofNat r.toNat

def text8 (s : Bytes) : Bytes :=
  let n := UInt16.ofNat (narrow s).length
  put16 (n+1)++(put16 n++narrow s)

def text16 (s : Bytes) : Bytes :=
  let units := utf16Units (utf8Runes s)
  put16 (UInt16.ofNat units.length)++units.flatMap put16

def exceptionInfo (e : Exception) : Bytes :=
  put32 e.start++(put32 e.end_++(put32 e.originalStart++(put16 e.flags ++
    (putOpt (overrides e.flags OverrideSubject) (text8 e.subject) ++
    (putOpt (overrides e.flags OverrideMeetingType) (put32 0) ++
    (putOpt (overrides e.flags OverrideReminderDelta) (put32 e.reminderDelta.toUInt32) ++
    (putOpt (overrides e.flags OverrideReminder) (bool32 e.reminderSet) ++
    (putOpt (overrides e.flags OverrideLocation) (text8 e.location) ++
    (putOpt (overrides e.flags OverrideBusyStatus) (put32 e.busyStatus.toUInt32) ++
    (putOpt (overrides e.flags OverrideAttachment) (put32 0) ++
    (putOpt (overrides e.flags OverrideSubType) (bool32 e.allDay) ++
      putOpt (overrides e.flags OverrideColor) (put32 0))))))))))))

def extendedException (e : Exception) : Bytes :=
  put32 4++(put32 0++(put32 0 ++
    putOpt (overrides e.flags (OverrideSubject ||| OverrideLocation))
      (put32 e.start++(put32 e.end_++(put32 e.originalStart ++
        (putOpt (overrides e.flags OverrideSubject) (text16 e.subject) ++
        (putOpt (overrides e.flags OverrideLocation) (text16 e.location)++put32 0)))))))

def AppointmentPattern.times (p : AppointmentPattern) (ex : List Exception) : Bytes :=
  put32 appointmentReaderVersion++(put32 changeHighlightVersion ++
    (put32 p.startTimeOffset++(put32 p.endTimeOffset++(put16 (UInt16.ofNat ex.length) ++
      (ex.flatMap exceptionInfo++(put32 0++(ex.flatMap extendedException++put32 0)))))))

def encodeAppointment (p : AppointmentPattern) : Bytes :=
  p.marshal (sortedDates p.deletedDates) (sortedDates p.modifiedDates) ++
    p.times (p.exceptions.insertionSort byStart)

def latin1 (b : Bytes) : Bytes := utf8Bytes (b.map fun c => Char.ofNat c.toNat)

def readText8 : Reader Bytes :=
  (Reader.skip 2).bind fun _ => Reader.u16.bind fun n => (Reader.bytes n.toNat).map latin1

def readText16 : Reader Bytes :=
  Reader.u16.bind fun n => (Reader.u16.replicate n.toNat).map fun units =>
    utf8Bytes (utf16Runes units)

def readDates : Reader (List UInt32) :=
  Reader.u32.bind fun n b => if b.length/4<n.toNat then none else Reader.u32.replicate n.toNat b

def readExceptionTail (flags : UInt16) : Reader (Int32×Bool) :=
  (Reader.opt (overrides flags OverrideBusyStatus)
    (Reader.u32.map UInt32.toInt32) 0).bind fun busyStatus =>
  (Reader.opt (overrides flags OverrideAttachment) (Reader.skip 4) ()).bind fun _ =>
  (Reader.opt (overrides flags OverrideSubType) (Reader.u32.map (· != 0)) false).bind fun allDay =>
  (Reader.opt (overrides flags OverrideColor) (Reader.skip 4) ()).map fun _ => (busyStatus,allDay)

def readExceptionInfo : Reader Exception :=
  Reader.u32.bind fun start => Reader.u32.bind fun end_ => Reader.u32.bind fun originalStart =>
  Reader.u16.bind fun flags =>
  (Reader.opt (overrides flags OverrideSubject) readText8 []).bind fun subject =>
  (Reader.opt (overrides flags OverrideMeetingType) (Reader.skip 4) ()).bind fun _ =>
  (Reader.opt (overrides flags OverrideReminderDelta)
    (Reader.u32.map UInt32.toInt32) 0).bind fun reminderDelta =>
  (Reader.opt (overrides flags OverrideReminder)
    (Reader.u32.map (· != 0)) false).bind fun reminderSet =>
  (Reader.opt (overrides flags OverrideLocation) readText8 []).bind fun location =>
  (readExceptionTail flags).map fun tail =>
    ⟨start,end_,originalStart,flags,subject,location,tail.1,reminderDelta,reminderSet,tail.2⟩

def readExtendedText (e : Exception) : Reader Exception :=
  (Reader.skip 12).bind fun _ =>
  (Reader.opt (overrides e.flags OverrideSubject) readText16 e.subject).bind fun subject =>
  (Reader.opt (overrides e.flags OverrideLocation) readText16 e.location).bind fun location =>
  Reader.lenPrefixed.map fun _ => {e with subject:=subject,location:=location}

def readExtendedException (writer : UInt32) (e : Exception) : Reader Exception :=
  (Reader.opt (decide (changeHighlightVersion≤writer)) Reader.lenPrefixed []).bind fun _ =>
  Reader.lenPrefixed.bind fun _ =>
  Reader.opt (overrides e.flags (OverrideSubject ||| OverrideLocation)) (readExtendedText e) e

def decodeExceptions (count : Nat) (writer : UInt32) : Reader (List Exception) := fun b =>
  if b.length < count*14 then none
  else (readExceptionInfo.replicate count).bind (fun ex => Reader.lenPrefixed.bind fun _ =>
    Reader.each (readExtendedException writer) ex) b

def decodeTimes (p : AppointmentPattern) : Reader AppointmentPattern :=
  (Reader.skip 4).bind fun _ => Reader.u32.bind fun writer => Reader.u32.bind fun startTimeOffset =>
  Reader.u32.bind fun endTimeOffset => Reader.u16.bind fun count =>
    let p := {p with
      startTimeOffset:=startTimeOffset,endTimeOffset:=endTimeOffset,hasTimes:=true}
    if count.toNat≠p.modifiedDates.length then fun b => some (p,b)
    else (decodeExceptions count.toNat writer).map fun ex => {p with exceptions:=ex}

def patternSpecificEnd (patternType : UInt16) : Nat :=
  if patternType=PatternMonthNth then 22+8 else 22+4

def decodePattern (b : Bytes) : Option (AppointmentPattern×Bytes) :=
  (unmarshalBinary b).bind fun base =>
    (readDates.bind fun deleted => readDates.bind fun modified => (Reader.skip 8).map fun _ =>
      (⟨base,deleted,modified,false,0,0,[]⟩ : AppointmentPattern))
      (b.drop (patternSpecificEnd base.patternType+12))

def decodeAppointment (b : Bytes) : Option AppointmentPattern :=
  (decodePattern b).bind fun p => if p.2=[] then some p.1 else (decodeTimes p.1 p.2).map Prod.fst

end HermEX.Recurrence
