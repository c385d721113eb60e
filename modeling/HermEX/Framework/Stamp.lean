import HermEX.Framework.Civil
import HermEX.Framework.Codec
import HermEX.Framework.Text

namespace HermEX.Framework

open Civil

def pad : Nat → Nat → Bytes
  | 0,_ => []
  | k+1,n => pad k (n/10)++[UInt8.ofNat (0x30+n%10)]

def Reader.digits (k : Nat) : Reader Nat := fun s =>
  if k ≤ s.length ∧ (s.take k).all isDigit then
    some ((s.take k).foldl (fun n b => 10*n+(b.toNat-0x30)) 0,s.drop k)
  else none

@[simp] theorem length_pad (k n : Nat) : (pad k n).length=k := by
  induction k generalizing n with
  | zero => rfl
  | succ k ih => simp [pad,ih]

theorem pad_digits (k n : Nat) : (pad k n).all isDigit=true ∧
    (pad k n).foldl (fun n b => 10*n+(b.toNat-0x30)) 0=n%10^k := by
  induction k generalizing n with
  | zero => exact ⟨rfl,by simp [pad,Nat.mod_one]⟩
  | succ k ih =>
    obtain ⟨hall,hfold⟩ := ih (n/10)
    have hval : (UInt8.ofNat (0x30+n%10)).toNat=0x30+n%10 :=
      (UInt8.toNat_ofNat').trans (Nat.mod_eq_of_lt (by omega))
    have hdigit : isDigit (UInt8.ofNat (0x30+n%10))=true := by
      simp only [isDigit,Bool.and_eq_true,UInt8.le_iff_toNat_le,hval]
      exact ⟨by simp,by simp; omega⟩
    constructor
    · rw [pad,List.all_append,hall,List.all_cons,hdigit,List.all_nil]
      rfl
    · rw [pad,List.foldl_append,hfold]
      simp only [List.foldl_cons,List.foldl_nil]
      rw [Nat.pow_succ,Nat.mul_comm (10^k) 10,Nat.mod_mul]
      omega

theorem Returns.digits {k n : Nat} (h : n<10^k) : Returns (pad k n) (Reader.digits k) n := by
  intro rest
  obtain ⟨hall,hfold⟩ := pad_digits k n
  have htake : (pad k n++rest).take k=pad k n := by simp
  have hdrop : (pad k n++rest).drop k=rest := by simp
  rw [Reader.digits,htake,hdrop,if_pos ⟨by simp,hall⟩,hfold,Nat.mod_eq_of_lt h]

def Reader.date : Reader Int := fun s =>
  (Reader.digits 4 s).bind fun y => (Reader.digits 2 y.2).bind fun m =>
    (Reader.digits 2 m.2).bind fun d =>
      let month : Int := 12*y.1+m.1-1
      if 1 ≤ m.1 ∧ m.1≤12 ∧ 1≤d.1 ∧ (d.1 : Int) ≤ monthLength month then
        some (monthStart month+d.1-1,d.2)
      else none

def dropFraction (s : Bytes) : Bytes :=
  if (s.head?=some 0x2E ∨ s.head?=some 0x2C) ∧ s.tail.head?.any isDigit then
    s.tail.dropWhile isDigit
  else s

def Reader.clock : Reader Int := fun s =>
  (Reader.byte s).bind fun t => (Reader.digits 2 t.2).bind fun h =>
    (Reader.digits 2 h.2).bind fun m => (Reader.digits 2 m.2).bind fun sec =>
      if t.1=0x54 ∧ h.1<24 ∧ m.1<60 ∧ sec.1<60 then
        some ((3600*h.1+60*m.1+sec.1 : Nat),dropFraction sec.2)
      else none

def parseStamp (s : Bytes) : Option Int :=
  (Reader.date s).bind fun d =>
    if d.2=[] then some (86400*d.1)
    else (Reader.clock d.2).bind fun c => if c.2=[] ∨ c.2=[0x5A] then some (86400*d.1+c.1) else none

def formatDate (day : Int) : Bytes :=
  let month := monthOf day
  pad 4 (month/12).toNat++(pad 2 (month%12+1).toNat++pad 2 (dayOf day).toNat)

def formatStamp (t : Int) : Bytes :=
  let sec := (t%86400).toNat
  formatDate (t/86400)++0x54::(pad 2 (sec/3600)++(pad 2 (sec/60%60)++(pad 2 (sec%60) ++ [0x5A])))

def FourDigits (day : Int) : Prop := yearStart 0≤day ∧ day<yearStart 10000

theorem FourDigits.month {day : Int} (h : FourDigits day) :
    0 ≤ monthOf day ∧ monthOf day<120000 := by
  obtain ⟨hlow,hhigh⟩ := monthOf_spec day
  have hfirst := monthStart_year 0
  have hlast := monthStart_year 10000
  constructor
  · by_contra hneg
    have hmono := monthStart_mono (show monthOf day+1≤12*0 by omega)
    have hday := h.1
    omega
  · by_contra hbig
    have hmono := monthStart_mono (show (12*10000 : Int) ≤ monthOf day by omega)
    have hday := h.2
    omega

theorem Returns.date {day : Int} (h : FourDigits day) :
    Returns (formatDate day) Reader.date day := by
  intro rest
  obtain ⟨hlow,hhigh⟩ := monthOf_spec day
  obtain ⟨hpos,hbound⟩ := h.month
  have hlength := (monthLength_bounds (monthOf day)).2
  have hday : dayOf day=day-monthStart (monthOf day)+1 := rfl
  have hlen : monthLength (monthOf day) = monthStart (monthOf day+1)-monthStart (monthOf day) := rfl
  have hyear := Returns.digits (k := 4) (n := (monthOf day/12).toNat) (by omega)
  have hmonth := Returns.digits (k := 2) (n := (monthOf day%12+1).toNat) (by omega)
  have hdigits := Returns.digits (k := 2) (n := (dayOf day).toNat) (by omega)
  have hindex : (12*((monthOf day/12).toNat : Int)+((monthOf day%12+1).toNat : Int)-1) =
      monthOf day := by omega
  simp only [Reader.date,formatDate,List.append_assoc,hyear _,hmonth _,hdigits _,Option.bind_some]
  rw [hindex,if_pos ⟨by omega,by omega,by omega,by omega⟩]
  congr 2
  omega

theorem Returns.clock (t : Int) (rest : Bytes) (hrest : dropFraction rest=rest) :
    Reader.clock (0x54::(pad 2 ((t%86400).toNat/3600)++(pad 2 ((t%86400).toNat/60%60) ++
      (pad 2 ((t%86400).toNat%60)++rest))))=some (t%86400,rest) := by
  have hhour := Returns.digits (k := 2) (n := (t%86400).toNat/3600) (by omega)
  have hminute := Returns.digits (k := 2) (n := (t%86400).toNat/60%60) (by omega)
  have hsecond := Returns.digits (k := 2) (n := (t%86400).toNat%60) (by omega)
  simp only [Reader.clock,Reader.byte,hhour _,hminute _,hsecond _,Option.bind_some]
  rw [if_pos ⟨trivial,by omega,by omega,by omega⟩]
  congr 2
  omega

theorem parseStamp_formatStamp {t : Int} (h : FourDigits (t/86400)) :
    parseStamp (formatStamp t)=some t := by
  have hdate := Returns.date h
  have hclock := Returns.clock t [0x5A] rfl
  simp only [parseStamp,formatStamp,hdate _,Option.bind_some,hclock]
  simp only [reduceCtorEq,if_false,or_true,if_true]
  congr 1
  omega

end HermEX.Framework
