import HermEX.Framework.Lines
import HermEX.Framework.Stamp
import HermEX.Oxcical.Recurrence

namespace HermEX.Recurrence

open Framework

/-- Both packages that read one have these fields. -/
structure Rrule where
  freq : Bytes
  interval : Int
  count : Int
  untilTime : Option Int
  weekdays : List Bytes
  setPos : Int
  monthDay : Int
  month : Int
deriving DecidableEq

inductive Param where
  | freq
  | interval
  | count
  | untilTime
  | byDay
  | byMonthDay
  | byMonth
  | bySetPos
deriving DecidableEq

namespace Param

def name : Param → Bytes
  | freq => lit "FREQ"
  | interval => lit "INTERVAL"
  | count => lit "COUNT"
  | untilTime => lit "UNTIL"
  | byDay => lit "BYDAY"
  | byMonthDay => lit "BYMONTHDAY"
  | byMonth => lit "BYMONTH"
  | bySetPos => lit "BYSETPOS"

def all : List Param := [freq,interval,count,untilTime,byDay,byMonthDay,byMonth,bySetPos]

def ofName (key : Bytes) : Option Param := all.find? fun p => p.name=key

@[simp] theorem ofName_name (p : Param) : ofName p.name=some p := by cases p <;> decide

end Param

def weekdayName (w : Fin 7) : Bytes := lit (["SU","MO","TU","WE","TH","FR","SA"].get w)

def weekdayOf (token : Bytes) : Option (Fin 7) :=
  (List.finRange 7).find? fun w => weekdayName w=token

theorem weekdayName_plain : ∀ w : Fin 7,(weekdayName w).all (· < 0x80)=true ∧
    Strings.ascii.trimSpace (weekdayName w)=weekdayName w ∧
    Strings.asciiUpper (weekdayName w)=weekdayName w ∧ 0x2C∉weekdayName w := by
  decide

theorem weekdayOf_name : ∀ w : Fin 7,weekdayOf (weekdayName w)=some w := by decide

section Read

variable (T : Strings)

def weekdayToken (s : Bytes) : Option (Fin 7) := weekdayOf (T.toUpper (T.trimSpace s))

def isOrdinal (b : UInt8) : Bool := b=0x2B || b=0x2D || isDigit b

def addDay (x : List Bytes×Int) (token : Bytes) : List Bytes×Int :=
  let token := T.trimSpace token
  let day := T.toUpper (token.dropWhile isOrdinal)
  (if day=[] then x.1 else x.1++[day],(parseInt (token.takeWhile isOrdinal)).getD x.2)

def parseByDay (val : Bytes) : List Bytes×Int := (split 0x2C val).foldl (addDay T) ([],0)

def zeroTime : Int := 86400*Civil.yearStart 1

def setPositive (cur : Int) (val : Bytes) : Int :=
  match parseInt val with
  | some n => if 0<n then n else cur
  | none => cur

def Rrule.set (r : Rrule) : Param×Bytes → Rrule
  | (.freq,val) => {r with freq:=T.toUpper (T.trimSpace val)}
  | (.interval,val) => {r with interval:=setPositive r.interval val}
  | (.count,val) => {r with count:=setPositive r.count val}
  | (.untilTime,val) =>
    match parseStamp val with
    | some t => {r with untilTime:=if t=zeroTime then none else some t}
    | none => r
  | (.byDay,val) => {r with weekdays:=(parseByDay T val).1,setPos:=(parseByDay T val).2}
  | (.byMonthDay,val) => {r with monthDay:=(parseInt val).getD r.monthDay}
  | (.byMonth,val) => {r with month:=(parseInt val).getD r.month}
  | (.bySetPos,val) => {r with setPos:=(parseInt val).getD r.setPos}

def readParts (value : Bytes) : List (Param×Bytes) :=
  (split 0x3B value).filterMap fun part => (cut 0x3D part).bind fun x =>
    (Param.ofName (T.toUpper (T.trimSpace x.1))).map fun p => (p,x.2)

def Rrule.start : Rrule := ⟨[],1,0,none,[],0,0,0⟩

def readRule (value : Bytes) : Rrule := (readParts T value).foldl (Rrule.set T) .start

def maxRRuleInterval : Int := 4294967295/(7*24*60)

def tooWide : Param×Bytes → Bool
  | (.interval,val) => (parseInt val).any fun n => maxRRuleInterval<n
  | (.count,val) => (parseInt val).any fun n => 4294967295<n
  | _ => false

def parseRRule (value : Bytes) : Option Rrule :=
  if (readParts T value).any tooWide then none
  else
    let r := readRule T value
    if r.freq=[] then none else some r

def freqOf (s : Bytes) : Oxcical.Freq :=
  if s=lit "WEEKLY" then .weekly
  else if s=lit "DAILY" then .daily
  else if s=lit "MONTHLY" then .monthly
  else if s=lit "YEARLY" then .yearly
  else .other

def Rrule.recurrence (r : Rrule) : Oxcical.Recurrence where
  freq := freqOf (T.toUpper (T.trimSpace r.freq))
  interval := r.interval
  count := r.count
  untilTime := r.untilTime
  weekdays := r.weekdays.map (weekdayToken T)
  setPos := r.setPos
  monthDay := r.monthDay
  month := r.month

end Read

end HermEX.Recurrence

namespace HermEX.Oxcical

open Framework

def parseRRule (T : Strings) (value : Bytes) : Option Recurrence :=
  let r := HermEX.Recurrence.readRule T value
  if r.freq=[] then none else some (r.recurrence T)

end HermEX.Oxcical

namespace HermEX.Recurrence

open Framework

def Rrule.parts (r : Rrule) : List (Param×Bytes) :=
  ([(.freq,r.freq),(.interval,itoa r.interval)] : List (Param×Bytes)) ++
    (if 0 < r.count then [(.count,itoa r.count)] else [] : List (Param×Bytes)) ++
    (r.untilTime.map fun t => (Param.untilTime,formatStamp t)).toList ++
    (if r.weekdays=[] then []
      else (.byDay,joined 0x2C r.weekdays) ::
        (if r.setPos=0 then [] else [(.bySetPos,itoa r.setPos)]) : List (Param×Bytes)) ++
    (if r.monthDay=0 then [] else [(.byMonthDay,itoa r.monthDay)] : List (Param×Bytes))

def rruleString (r : Rrule) : Bytes := joined 0x3B (r.parts.map fun x => x.1.name++0x3D::x.2)

section Reread

variable {T : Strings} (hT : T.Lawful)

include hT

theorem name_fixed (p : Param) : T.toUpper (T.trimSpace p.name)=p.name := by
  have hascii : p.name.all (· < 0x80)=true := by cases p <;> decide
  have htrim : Strings.ascii.trimSpace p.name=p.name := by cases p <;> decide
  have hupper : Strings.asciiUpper p.name=p.name := by cases p <;> decide
  rw [hT.trim_ascii _ hascii,htrim,hT.upper_ascii _ hascii,hupper]

theorem readParts_written (parts : List (Param×Bytes)) (hne : parts≠[]) (h : ∀ x∈parts,0x3B∉x.2) :
    readParts T (joined 0x3B (parts.map fun x => x.1.name++0x3D::x.2))=parts := by
  have hsplit : split 0x3B (joined 0x3B (parts.map fun x => x.1.name++0x3D::x.2)) =
      parts.map fun x => x.1.name++0x3D::x.2 := by
    apply split_joined (by simpa using hne)
    intro s hs
    obtain ⟨x,hx,rfl⟩ := List.mem_map.mp hs
    have hname : (0x3B : UInt8)∉x.1.name := by cases x.1 <;> decide
    simp [hname,h x hx]
  rw [readParts,hsplit,List.filterMap_map]
  conv_rhs => rw [← List.filterMap_some (l := parts)]
  apply List.filterMap_congr
  intro x _
  have hname : (0x3D : UInt8)∉x.1.name := by cases x.1 <;> decide
  simp [cut_append _ hname,name_fixed hT]

theorem weekdayName_fixed (w : Fin 7) :
    T.trimSpace (weekdayName w)=weekdayName w ∧ T.toUpper (weekdayName w)=weekdayName w := by
  obtain ⟨hascii,htrim,hupper,-⟩ := weekdayName_plain w
  rw [hT.trim_ascii _ hascii,hT.upper_ascii _ hascii]
  exact ⟨htrim,hupper⟩

theorem parseByDay_written (ws : List (Fin 7)) (hne : ws≠[]) :
    parseByDay T (joined 0x2C (ws.map weekdayName))=(ws.map weekdayName,0) := by
  have hsplit : split 0x2C (joined 0x2C (ws.map weekdayName))=ws.map weekdayName := by
    apply split_joined (by simpa using hne)
    intro s hs
    obtain ⟨w,-,rfl⟩ := List.mem_map.mp hs
    exact (weekdayName_plain w).2.2.2
  have hday : ∀ (x : List Bytes×Int) (w : Fin 7),
      addDay T x (weekdayName w)=(x.1++[weekdayName w],x.2) := by
    intro x w
    have hletter : ∀ w : Fin 7,(weekdayName w).dropWhile isOrdinal=weekdayName w ∧
        (weekdayName w).takeWhile isOrdinal=[] ∧ weekdayName w≠[] := by decide
    obtain ⟨hdrop,htake,hnil⟩ := hletter w
    obtain ⟨htrim,hupper⟩ := weekdayName_fixed hT w
    have hnone : parseInt []=none := by decide
    simp [addDay,htrim,hdrop,htake,hupper,hnone,if_neg hnil]
  have hfold : ∀ (ws : List (Fin 7)) (x : List Bytes×Int),
      (ws.map weekdayName).foldl (addDay T) x=(x.1++ws.map weekdayName,x.2) := by
    intro ws
    induction ws with
    | nil => simp
    | cons w ws ih =>
      intro x
      rw [List.map_cons,List.foldl_cons,hday,ih]
      simp
  rw [parseByDay,hsplit,hfold]
  rfl

/-- A rule that its text says all of. -/
structure Rrule.Written (T : Strings) (r : Rrule) : Prop where
  freq : T.toUpper (T.trimSpace r.freq)=r.freq ∧ 0x3B∉r.freq
  interval : 0 < r.interval ∧ r.interval≤4294967295
  count : 0 ≤ r.count ∧ r.count≤4294967295
  untilTime : ∀ t,r.untilTime=some t → FourDigits (t/86400) ∧ t≠zeroTime
  weekdays : ∃ ws : List (Fin 7),r.weekdays=ws.map weekdayName
  setPos : -5 ≤ r.setPos ∧ r.setPos≤5 ∧ (r.weekdays=[] → r.setPos=0)
  monthDay : 0 ≤ r.monthDay ∧ r.monthDay≤4294967295
  month : r.month=0

omit hT in
theorem not_mem_digits {s : Bytes} (h : s.all isDigit=true) : (0x3B : UInt8)∉s := by
  intro hmem
  have hdigit := List.all_eq_true.mp h _ hmem
  exact absurd hdigit (by decide)

omit hT in
theorem not_mem_itoa (n : Int) : (0x3B : UInt8)∉itoa n := by
  have hdigits := not_mem_digits (formatNat_digits n.natAbs)
  simp only [itoa]
  split_ifs
  · simp [hdigits]
  · exact hdigits

omit hT in
theorem not_mem_formatStamp (t : Int) : (0x3B : UInt8)∉formatStamp t := by
  have hpad : ∀ k n,(0x3B : UInt8)∉pad k n := fun k n => not_mem_digits (pad_digits k n).1
  simp [formatStamp,formatDate,hpad]

omit hT in
theorem not_mem_joined {b sep : UInt8} {xs : List Bytes} (hsep : b≠sep)
    (h : ∀ x∈xs,b∉x) : b∉joined sep xs := by
  induction xs with
  | nil => simp [joined]
  | cons x xs ih =>
    have hx := h x (by simp)
    cases xs with
    | nil => exact hx
    | cons y ys =>
      have hrest := ih fun z hz => h z (by simp [hz])
      simp [joined,hx,hsep,hrest]

variable {r : Rrule} (h : r.Written T)

include h

omit hT in
theorem parts_plain : ∀ x∈r.parts,(0x3B : UInt8)∉x.2 := by
  obtain ⟨ws,hws⟩ := h.weekdays
  have hdays : (0x3B : UInt8)∉joined 0x2C r.weekdays := by
    apply not_mem_joined (by decide)
    intro s hs
    rw [hws] at hs
    obtain ⟨w,-,rfl⟩ := List.mem_map.mp hs
    have hname : ∀ w : Fin 7,(0x3B : UInt8)∉weekdayName w := by decide
    exact hname w
  intro x hx
  simp only [Rrule.parts,List.mem_append,List.mem_cons,List.not_mem_nil,or_false,
    Option.mem_toList,Option.map_eq_some_iff] at hx
  rcases hx with ((((rfl | rfl) | hx) | ⟨t,-,rfl⟩) | hx) | hx
  · exact h.freq.2
  · exact not_mem_itoa _
  · split_ifs at hx
    · rw [List.mem_singleton.mp hx]
      exact not_mem_itoa _
    · cases hx
  · exact not_mem_formatStamp t
  · split_ifs at hx
    · cases hx
    · rw [List.mem_singleton.mp hx]
      exact hdays
    · simp only [List.mem_cons,List.not_mem_nil,or_false] at hx
      rcases hx with rfl | rfl
      · exact hdays
      · exact not_mem_itoa _
  · split_ifs at hx
    · cases hx
    · rw [List.mem_singleton.mp hx]
      exact not_mem_itoa _

theorem readRule_written : readRule T (rruleString r)=r := by
  have hparts : readParts T (rruleString r)=r.parts :=
    readParts_written hT _ (by simp [Rrule.parts]) (parts_plain h)
  rw [readRule,hparts]
  obtain ⟨⟨hfreq,-⟩,hinterval,hcount,huntil,⟨ws,hws⟩,⟨hlow,hhigh,hpos⟩,hday,hmonth⟩ := h
  have hint : ∀ n : Int,-5≤n ∧ n≤4294967295 → parseInt (itoa n)=some n :=
    fun n hn => parseInt_itoa (by omega)
  -- what each group of parameters sets
  have hsetCount : ∀ q : Rrule,q.count=0 →
      (if 0 < r.count then [(Param.count,itoa r.count)] else []).foldl (Rrule.set T) q =
        {q with count:=r.count} := by
    intro q hq
    split_ifs with hc
    · simp [Rrule.set,setPositive,hint r.count (by omega),hc]
    · have hzero : r.count=q.count := by omega
      rw [hzero]
      rfl
  have hsetUntil : ∀ q : Rrule,q.untilTime=none →
      (r.untilTime.map fun t => (Param.untilTime,formatStamp t)).toList.foldl (Rrule.set T) q =
        {q with untilTime:=r.untilTime} := by
    intro q hq
    cases ht : r.untilTime with
    | none =>
      have hsame : {q with untilTime:=none}=q := by rw [← hq]
      exact hsame.symm
    | some t =>
      obtain ⟨hfour,hzero⟩ := huntil t ht
      simp [Rrule.set,parseStamp_formatStamp hfour,hzero]
  have hsetDays : ∀ q : Rrule,q.weekdays=[] ∧ q.setPos=0 →
      (if r.weekdays=[] then []
        else (Param.byDay,joined 0x2C r.weekdays) ::
          (if r.setPos=0 then [] else [(Param.bySetPos,itoa r.setPos)])).foldl
          (Rrule.set T) q = {q with weekdays:=r.weekdays,setPos:=r.setPos} := by
    rintro q ⟨hq,hq'⟩
    by_cases hnil : r.weekdays=[]
    · rw [if_pos hnil,hnil,hpos hnil,← hq,← hq']
      rfl
    · have hne : ws≠[] := by
        rintro rfl
        exact hnil hws
      rw [if_neg hnil,List.foldl_cons]
      simp only [Rrule.set,hws,parseByDay_written hT ws hne]
      split_ifs with hz
      · rw [List.foldl_nil,hz]
      · simp [Rrule.set,hint r.setPos (by omega)]
  have hsetMonthDay : ∀ q : Rrule,q.monthDay=0 →
      (if r.monthDay=0 then [] else [(Param.byMonthDay,itoa r.monthDay)]).foldl
        (Rrule.set T) q = {q with monthDay:=r.monthDay} := by
    intro q hq
    split_ifs with hz
    · rw [hz,← hq]
      rfl
    · simp [Rrule.set,hint r.monthDay (by omega)]
  simp only [Rrule.parts,List.foldl_append,List.foldl_cons,List.foldl_nil]
  rw [hsetCount _ rfl,hsetUntil _ rfl,hsetDays _ ⟨rfl,rfl⟩,hsetMonthDay _ rfl]
  simp only [Rrule.set,Rrule.start,hfreq,setPositive,hint r.interval (by omega),
    if_pos hinterval.1]
  have hsame : {r with month:=0}=r := by rw [← hmonth]
  exact hsame

end Reread
end HermEX.Recurrence
