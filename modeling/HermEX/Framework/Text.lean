import Mathlib.Data.List.DropRight
import HermEX.Framework.Unicode

namespace HermEX.Framework

def lit (s : String) : Bytes := utf8Bytes s.toList

/-- The string functions that consult Unicode tables. -/
structure Strings where
  toUpper : Bytes → Bytes
  toLower : Bytes → Bytes
  trimSpace : Bytes → Bytes
  fields : Bytes → List Bytes
  equalFold : Bytes → Bytes → Bool

def cut (sep : UInt8) : Bytes → Option (Bytes×Bytes)
  | [] => none
  | b::bs => if b=sep then some ([],bs) else (cut sep bs).map fun p => (b::p.1,p.2)

def cutLast (sep : UInt8) (s : Bytes) : Option (Bytes×Bytes) :=
  (cut sep s.reverse).map fun p => (p.2.reverse,p.1.reverse)

def split (sep : UInt8) : Bytes → List Bytes
  | [] => [[]]
  | b::bs =>
    if b=sep then []::split sep bs
    else match split sep bs with
      | [] => [[b]]
      | p::ps => (b::p)::ps

def lastIndex (sub s : Bytes) : Option Nat :=
  ((List.range (s.length+1)).filter fun i => sub.isPrefixOf (s.drop i)).getLast?

def isDigit (b : UInt8) : Bool := 0x30≤b && b≤0x39

def parseDigits (s : Bytes) : Option Nat :=
  if s≠[] ∧ s.all isDigit then
    some (s.foldl (fun n b => 10*n+(b.toNat-0x30)) 0)
  else none

def parseInt (s : Bytes) : Option Int :=
  let value : Option Int := match s with
    | 0x2B::t => (parseDigits t).map Int.ofNat
    | 0x2D::t => (parseDigits t).map fun n => -Int.ofNat n
    | _ => (parseDigits s).map Int.ofNat
  value.filter fun n => -9223372036854775808≤n && n≤9223372036854775807

def formatFrom : Nat → Nat → Bytes → Bytes
  | 0,_,acc => acc
  | k+1,n,acc =>
    let acc := UInt8.ofNat (0x30+n%10)::acc
    if n/10=0 then acc else formatFrom k (n/10) acc

def formatNat (n : Nat) : Bytes := formatFrom (n+1) n []

variable (n : Nat)

theorem formatFrom_digits (k n : Nat) (acc : Bytes) (hk : n<k) (hacc : acc.all isDigit) :
    formatFrom k n acc≠[] ∧ (formatFrom k n acc).all isDigit ∧
      (formatFrom k n acc).foldl (fun n b => 10*n+(b.toNat-0x30)) 0 =
        acc.foldl (fun n b => 10*n+(b.toNat-0x30)) n := by
  induction k generalizing n acc with
  | zero => exact absurd hk (Nat.not_lt_zero n)
  | succ k ih =>
    have hval : (UInt8.ofNat (0x30+n%10)).toNat=0x30+n%10 :=
      (UInt8.toNat_ofNat').trans (Nat.mod_eq_of_lt (by omega))
    have hdigit : isDigit (UInt8.ofNat (0x30+n%10))=true := by
      simp only [isDigit,Bool.and_eq_true,UInt8.le_iff_toNat_le,hval]
      exact ⟨by simp,by simp; omega⟩
    have hacc' : (UInt8.ofNat (0x30+n%10)::acc).all isDigit := by
      rw [List.all_cons,hdigit,hacc]
      rfl
    simp only [formatFrom]
    split_ifs with hz
    · refine ⟨List.cons_ne_nil _ _,hacc',?_⟩
      rw [List.foldl_cons,hval]
      congr 1
      omega
    · obtain ⟨hne,hall,hfold⟩ := ih (n/10) _ (by omega) hacc'
      refine ⟨hne,hall,hfold.trans ?_⟩
      rw [List.foldl_cons,hval]
      congr 1
      omega

theorem formatNat_ne_nil : formatNat n≠[] :=
  (formatFrom_digits (n+1) n [] (Nat.lt_succ_self n) rfl).1

theorem parseDigits_formatNat : parseDigits (formatNat n)=some n := by
  obtain ⟨hne,hall,hfold⟩ := formatFrom_digits (n+1) n [] (Nat.lt_succ_self n) rfl
  unfold parseDigits formatNat
  rw [if_pos ⟨hne,hall⟩,hfold]
  rfl

theorem formatNat_digits : (formatNat n).all isDigit=true :=
  (formatFrom_digits (n+1) n [] (Nat.lt_succ_self n) rfl).2.1

def parseUint (bits : Nat) (s : Bytes) : Option Nat := (parseDigits s).filter fun n => n<2^bits

def itoa (n : Int) : Bytes := if n<0 then 0x2D::formatNat n.natAbs else formatNat n.natAbs

theorem parseInt_itoa {n : Int} (h : -9223372036854775808≤n ∧ n≤9223372036854775807) :
    parseInt (itoa n)=some n := by
  have hrange : (decide (-9223372036854775808≤n) && decide (n≤9223372036854775807))=true := by
    simp [h]
  by_cases hneg : n<0
  · have habs : -Int.ofNat n.natAbs=n := by
      rw [Int.ofNat_eq_natCast]
      omega
    simp only [itoa,if_pos hneg,parseInt,parseDigits_formatNat,Option.map_some,habs,
      Option.filter_some,hrange,if_true]
  · have habs : Int.ofNat n.natAbs=n := by
      rw [Int.ofNat_eq_natCast]
      omega
    simp only [itoa,if_neg hneg,parseInt]
    obtain ⟨b,bs,hb⟩ := List.exists_cons_of_ne_nil (formatNat_ne_nil n.natAbs)
    have hdigits := formatNat_digits n.natAbs
    have hparse := parseDigits_formatNat n.natAbs
    rw [hb] at hdigits hparse ⊢
    have hdigit : isDigit b=true := by
      rw [List.all_cons,Bool.and_eq_true] at hdigits
      exact hdigits.1
    have hplus : b≠0x2B := by
      rintro rfl
      cases hdigit
    have hminus : b≠0x2D := by
      rintro rfl
      cases hdigit
    split
    · rename_i heq
      exact absurd (List.cons.inj heq).1 hplus
    · rename_i heq
      exact absurd (List.cons.inj heq).1 hminus
    · rw [hparse,Option.map_some,habs,Option.filter_some,if_pos hrange]

theorem formatNat_injective {m n : Nat} (h : formatNat m=formatNat n) : m=n := by
  have hp := congrArg parseDigits h
  rw [parseDigits_formatNat,parseDigits_formatNat] at hp
  exact Option.some.inj hp

namespace Strings

def asciiSpace (b : UInt8) : Bool := b=0x20 || (0x09≤b && b≤0x0D)

def asciiFields : Bytes → List Bytes
  | [] => []
  | b::bs =>
    if asciiSpace b then asciiFields bs
    else match bs with
      | [] => [[b]]
      | c::_ =>
        if asciiSpace c then [b]::asciiFields bs
        else match asciiFields bs with
          | [] => [[b]]
          | p::ps => (b::p)::ps

def asciiUpper (s : Bytes) : Bytes := s.map fun b => if 0x61≤b ∧ b≤0x7A then b-0x20 else b

def asciiLower (s : Bytes) : Bytes := s.map fun b => if 0x41≤b ∧ b≤0x5A then b+0x20 else b

def ascii : Strings where
  toUpper := asciiUpper
  toLower := asciiLower
  trimSpace s := (s.dropWhile asciiSpace).rdropWhile asciiSpace
  fields := asciiFields
  equalFold s t := asciiLower s=asciiLower t

def mark (b : UInt8) : Bool := b<0x80 && !((0x41≤b && b≤0x5A) || (0x61≤b && b≤0x7A))

def blank (b : UInt8) : Bool := 0x80≤b || asciiSpace b

/-- What the functions do on the ASCII part of a text. -/
structure Lawful (T : Strings) : Prop where
  upper_upper : ∀ s,T.toUpper (T.toUpper s)=T.toUpper s
  upper_marks : ∀ s,(T.toUpper s).filter mark=s.filter mark
  upper_ascii : ∀ s,s.all (· < 0x80)=true → T.toUpper s=asciiUpper s
  trim_spec : ∀ s,∃ a b,s=a++(T.trimSpace s++b) ∧ a.all blank=true ∧ b.all blank=true
  trim_trim : ∀ s,T.trimSpace (T.trimSpace s)=T.trimSpace s
  trim_upper : ∀ s,T.trimSpace (T.toUpper (T.trimSpace s))=T.toUpper (T.trimSpace s)
  trim_head : ∀ s b,(T.trimSpace s).head?=some b → asciiSpace b=false
  trim_ascii : ∀ s,s.all (· < 0x80)=true → T.trimSpace s=ascii.trimSpace s
  trim_solid : ∀ s c,T.trimSpace s=s → blank c=false → T.trimSpace (s++[c])=s++[c]

namespace Lawful

variable {T : Strings} (h : T.Lawful)

include h

variable {b : UInt8}

theorem filter_upper {p : UInt8 → Bool} (hp : ∀ b,p b=true → mark b=true) (s : Bytes) :
    (T.toUpper s).filter p=s.filter p := by
  have hfilter : ∀ t : Bytes,(t.filter mark).filter p=t.filter p := by
    intro t
    rw [List.filter_filter]
    apply List.filter_congr
    intro b _
    cases hb : p b with
    | false => rfl
    | true => rw [hp b hb]; rfl
  rw [← hfilter (T.toUpper s),h.upper_marks,hfilter]

theorem mem_upper (hb : mark b=true) {s : Bytes} : b∈T.toUpper s ↔ b∈s := by
  have hfilter : (T.toUpper s).filter (· = b)=s.filter (· = b) :=
    h.filter_upper (fun c hc => by rw [of_decide_eq_true hc]; exact hb) s
  have hmem : ∀ t : Bytes,b∈t ↔ b∈t.filter (· = b) := by simp
  rw [hmem,hfilter,← hmem]

theorem mem_trim {s : Bytes} (hb : b∈T.trimSpace s) : b∈s := by
  obtain ⟨a,t,hs,-,-⟩ := h.trim_spec s
  rw [hs]
  simp [hb]

theorem count_upper (hb : mark b=true) (s : Bytes) : (T.toUpper s).count b=s.count b := by
  have hfilter : (T.toUpper s).filter (· == b)=s.filter (· == b) :=
    h.filter_upper (fun c hc => by rw [eq_of_beq hc]; exact hb) s
  rw [List.count_eq_length_filter,List.count_eq_length_filter,hfilter]

theorem count_trim (hb : blank b=false) (s : Bytes) : (T.trimSpace s).count b=s.count b := by
  obtain ⟨a,t,hs,ha,ht⟩ := h.trim_spec s
  have hnot : ∀ u : Bytes,u.all blank=true → u.count b=0 := by
    intro u hu
    apply List.count_eq_zero_of_not_mem
    intro hmem
    rw [List.all_eq_true.mp hu b hmem] at hb
    cases hb
  conv_rhs => rw [hs]
  rw [List.count_append,List.count_append,hnot a ha,hnot t ht]
  omega

end Lawful

variable {s : Bytes}

theorem asciiUpper_byte :
    ∀ n<256,
      let b := UInt8.ofNat n
      let u := if 0x61≤b ∧ b≤0x7A then b-0x20 else b
      (if 0x61≤u ∧ u≤0x7A then u-0x20 else u)=u ∧ (mark u=mark b) ∧
        (mark b=true → u=b) ∧ asciiSpace u=asciiSpace b := by
  decide +kernel

theorem asciiUpper_cases (b : UInt8) :
    let u := if 0x61≤b ∧ b≤0x7A then b-0x20 else b
    (if 0x61≤u ∧ u≤0x7A then u-0x20 else u)=u ∧ (mark u=mark b) ∧
      (mark b=true → u=b) ∧ asciiSpace u=asciiSpace b := by
  have h := asciiUpper_byte b.toNat b.toNat_lt
  rwa [UInt8.ofNat_toNat] at h

theorem asciiUpper_marks (s : Bytes) : (asciiUpper s).filter mark=s.filter mark := by
  induction s with
  | nil => rfl
  | cons b s ih =>
    obtain ⟨-,hmark,hsame,-⟩ := asciiUpper_cases b
    simp only [asciiUpper,List.map_cons] at ih ⊢
    by_cases hb : mark b=true
    · rw [List.filter_cons_of_pos (hmark.trans hb),List.filter_cons_of_pos hb,ih,hsame hb]
    · rw [List.filter_cons_of_neg (by rw [hmark]; exact hb),List.filter_cons_of_neg hb,ih]

theorem asciiUpper_asciiUpper (s : Bytes) : asciiUpper (asciiUpper s)=asciiUpper s := by
  simp only [asciiUpper,List.map_map]
  apply List.map_congr_left
  intro b _
  exact (asciiUpper_cases b).1

theorem asciiTrim_of_ends (hhead : ∀ b,s.head?=some b → asciiSpace b=false)
    (hlast : ∀ b,s.getLast?=some b → asciiSpace b=false) : ascii.trimSpace s=s := by
  have hdrop : s.dropWhile asciiSpace=s := by
    cases s with
    | nil => rfl
    | cons b s => simp [hhead b rfl]
  simp only [ascii,hdrop]
  rw [List.rdropWhile_eq_self_iff]
  intro hne hspace
  have hb := hlast _ (List.getLast?_eq_some_getLast hne)
  rw [hb] at hspace
  cases hspace

theorem asciiTrim_head {b : UInt8} (h : (ascii.trimSpace s).head?=some b) :
    asciiSpace b=false := by
  have hpre : (s.dropWhile asciiSpace).rdropWhile asciiSpace <+: s.dropWhile asciiSpace :=
    List.rdropWhile_prefix _ _
  obtain ⟨t,ht⟩ := hpre
  simp only [ascii] at h
  cases hr : (s.dropWhile asciiSpace).rdropWhile asciiSpace with
  | nil => simp [hr] at h
  | cons c cs =>
    rw [hr] at h ht
    obtain rfl : c=b := by simpa using h
    have hdrop : (s.dropWhile asciiSpace).head?=some c := by simp [← ht]
    have hnot := List.head?_dropWhile_not asciiSpace s
    rw [hdrop] at hnot
    simpa using hnot

theorem asciiTrim_last {b : UInt8} (h : (ascii.trimSpace s).getLast?=some b) :
    asciiSpace b=false := by
  simp only [ascii] at h
  cases hr : (s.dropWhile asciiSpace).rdropWhile asciiSpace with
  | nil => simp [hr] at h
  | cons c cs =>
    have hne : (s.dropWhile asciiSpace).rdropWhile asciiSpace≠[] := by simp [hr]
    have hlast := List.rdropWhile_last_not asciiSpace _ hne
    rw [List.getLast?_eq_some_getLast hne] at h
    rw [Option.some.inj h] at hlast
    simpa using hlast

theorem ascii_lawful : Lawful ascii := by
  refine ⟨asciiUpper_asciiUpper,asciiUpper_marks,fun _ _ => rfl,?_,?_,?_,
    fun _ _ => asciiTrim_head,fun _ _ => rfl,?_⟩
  · intro s
    refine ⟨s.takeWhile asciiSpace,(s.dropWhile asciiSpace).rtakeWhile asciiSpace,?_,?_,?_⟩
    · simp [ascii]
    · rw [List.all_eq_true]
      intro b hb
      simp [blank,List.mem_takeWhile_imp hb]
    · rw [List.all_eq_true]
      intro b hb
      simp [blank,List.mem_rtakeWhile_imp hb]
  · intro s
    exact asciiTrim_of_ends (fun _ => asciiTrim_head) (fun _ => asciiTrim_last)
  · intro s
    have hspace : ∀ b,asciiSpace (if 0x61≤b ∧ b≤0x7A then b-0x20 else b)=asciiSpace b :=
      fun b => (asciiUpper_cases b).2.2.2
    apply asciiTrim_of_ends
    · intro b hb
      simp only [ascii,asciiUpper,List.head?_map,Option.map_eq_some_iff] at hb
      obtain ⟨c,hc,rfl⟩ := hb
      rw [hspace]
      exact asciiTrim_head hc
    · intro b hb
      simp only [ascii,asciiUpper,List.getLast?_map,Option.map_eq_some_iff] at hb
      obtain ⟨c,hc,rfl⟩ := hb
      rw [hspace]
      exact asciiTrim_last hc
  · intro s c hs hc
    apply asciiTrim_of_ends
    · intro b hb
      cases s with
      | nil => simp_all [blank]
      | cons x s =>
        rw [← hs] at hb
        cases ht : ascii.trimSpace (x::s) with
        | nil => rw [hs] at ht; cases ht
        | cons y t =>
          rw [ht] at hb
          apply asciiTrim_head
          rw [ht]
          exact hb
    · simp_all [blank]

end Strings
end HermEX.Framework
