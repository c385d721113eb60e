import Mathlib.Data.List.Basic
import HermEX.Framework.Bytes

namespace HermEX.Framework

def replacementChar : Char := '�'

private def cont (b : UInt8) : Bool := 0x80≤b && b≤0xBF

/-- The range of the second byte of a longer sequence. -/
private def secondRange (b : UInt8) : UInt8×UInt8 :=
  if b=0xE0 then (0xA0,0xBF) else if b=0xED then (0x80,0x9F)
  else if b=0xF0 then (0x90,0xBF) else if b=0xF4 then (0x80,0x8F) else (0x80,0xBF)

private def low6 (b : UInt8) : Nat := b.toNat%64

def utf8Runes : Bytes → List Char
  | [] => []
  | a::t =>
    if a<0x80 then Char.ofNat a.toNat::utf8Runes t
    else match t with
      | [] => [replacementChar]
      | b::t1 =>
        if 0xC2≤a && a≤0xDF && cont b then
          Char.ofNat (a.toNat%32*64+low6 b)::utf8Runes t1
        else match t1 with
          | [] => replacementChar::utf8Runes [b]
          | c::t2 =>
            let ok2 := (secondRange a).1≤b && b≤(secondRange a).2
            if 0xE0≤a && a≤0xEF && ok2 && cont c then
              Char.ofNat (a.toNat%16*4096+low6 b*64+low6 c)::utf8Runes t2
            else match t2 with
              | [] => replacementChar::utf8Runes [b,c]
              | d::t3 =>
                if 0xF0≤a && a≤0xF4 && ok2 && cont c && cont d then
                  Char.ofNat (a.toNat%8*262144+low6 b*4096+low6 c*64+low6 d)::utf8Runes t3
                else replacementChar::utf8Runes (b::c::d::t3)

def utf8Bytes (cs : List Char) : Bytes := cs.flatMap String.utf8EncodeChar

def utf16Unit (c : Char) : List UInt16 :=
  if c.toNat<0x10000 then [UInt16.ofNat c.toNat]
  else [UInt16.ofNat (0xD800+(c.toNat-0x10000)/1024),UInt16.ofNat (0xDC00+(c.toNat-0x10000)%1024)]

def utf16Units (cs : List Char) : List UInt16 := cs.flatMap utf16Unit

private def highSurrogate (u : UInt16) : Bool := 0xD800≤u && u<0xDC00

private def lowSurrogate (u : UInt16) : Bool := 0xDC00≤u && u<0xE000

def utf16Runes : List UInt16 → List Char
  | [] => []
  | u::t =>
    if highSurrogate u then
      match t with
      | [] => [replacementChar]
      | v::t1 =>
        if lowSurrogate v then
          Char.ofNat ((u.toNat-0xD800)*1024+(v.toNat-0xDC00)+0x10000)::utf16Runes t1
        else replacementChar::utf16Runes (v::t1)
    else if lowSurrogate u then replacementChar::utf16Runes t
    else Char.ofNat u.toNat::utf16Runes t

def ValidUTF8 (s : Bytes) : Prop := ∃ cs,s=utf8Bytes cs

variable (c : Char)

theorem scalar_value : c.toNat<0x110000 ∧ (c.toNat<0xD800 ∨ 0xE000 ≤ c.toNat) := by
  rcases c.valid with h | h
  all_goals
    simp only [Char.toNat]
    omega

theorem utf16Runes_unit (t : List UInt16) : utf16Runes (utf16Unit c++t)=c::utf16Runes t := by
  obtain ⟨hmax,hgap⟩ := scalar_value c
  unfold utf16Unit
  split_ifs with hbmp
  · have hhigh : highSurrogate (UInt16.ofNat c.toNat)=false := by
      simp [highSurrogate,UInt16.le_iff_toNat_le]
      omega
    have hlow : lowSurrogate (UInt16.ofNat c.toNat)=false := by
      simp [lowSurrogate,UInt16.le_iff_toNat_le]
      omega
    have hvalue : (UInt16.ofNat c.toNat).toNat=c.toNat := by
      simp
      omega
    rw [List.singleton_append,utf16Runes.eq_def]
    simp [hhigh,hlow,hvalue]
  · have hhigh : (UInt16.ofNat (0xD800+(c.toNat-0x10000)/1024)).toNat =
        0xD800+(c.toNat-0x10000)/1024 := by
      simp
      omega
    have hlow : (UInt16.ofNat (0xDC00+(c.toNat-0x10000)%1024)).toNat =
        0xDC00+(c.toNat-0x10000)%1024 := by
      simp
      omega
    have hfirst : highSurrogate (UInt16.ofNat (0xD800+(c.toNat-0x10000)/1024))=true := by
      simp only [highSurrogate,UInt16.le_iff_toNat_le,UInt16.lt_iff_toNat_lt,hhigh,Bool.and_eq_true,
        decide_eq_true_eq]
      exact ⟨Nat.le_add_right _ _,by simp; omega⟩
    have hsecond : lowSurrogate (UInt16.ofNat (0xDC00+(c.toNat-0x10000)%1024))=true := by
      simp only [lowSurrogate,UInt16.le_iff_toNat_le,UInt16.lt_iff_toNat_lt,hlow,Bool.and_eq_true,
        decide_eq_true_eq]
      exact ⟨Nat.le_add_right _ _,by simp; omega⟩
    have hvalue : (0xD800+(c.toNat-0x10000)/1024-0xD800)*1024+
        (0xDC00+(c.toNat-0x10000)%1024-0xDC00)+0x10000=c.toNat := by omega
    simp only [List.cons_append,List.nil_append,utf16Runes,hfirst,hsecond,if_true,hhigh,hlow,hvalue,
      Char.ofNat_toNat]

theorem utf16Runes_units (cs : List Char) : utf16Runes (utf16Units cs)=cs := by
  induction cs with
  | nil => rfl
  | cons c cs ih =>
    have hcons : utf16Units (c::cs)=utf16Unit c++utf16Units cs := rfl
    rw [hcons,utf16Runes_unit,ih]

private theorem continuation (n : Nat) :
    cont (UInt8.ofNat (n%64+128))=true ∧ low6 (UInt8.ofNat (n%64+128))=n%64 ∧
      (UInt8.ofNat (n%64+128)).toNat=n%64+128 := by
  have hvalue : (UInt8.ofNat (n%64+128)).toNat=n%64+128 := by
    simp
    omega
  refine ⟨?_,?_,hvalue⟩
  · simp only [cont,UInt8.le_iff_toNat_le]
    simp
    omega
  · rw [low6,hvalue]
    omega

private theorem lead (k n m : Nat) (hk : k < m) (h : m+n≤256) :
    (UInt8.ofNat (k%m+n)).toNat=k+n := by
  rw [Nat.mod_eq_of_lt hk]
  simp
  omega

private theorem lead_not_ascii {a : UInt8} {k n : Nat} (ha : a.toNat=k+n) (hn : 128≤n) :
    ¬ a<0x80 := by
  rw [UInt8.lt_iff_toNat_lt,ha]
  simp
  omega

private theorem lead_in {a : UInt8} {v : Nat} (ha : a.toNat=v) (lo hi : UInt8)
    (h : lo.toNat≤v ∧ v≤hi.toNat) : (decide (lo≤a) && decide (a≤hi))=true := by
  simpa only [Bool.and_eq_true,decide_eq_true_eq,UInt8.le_iff_toNat_le,ha] using h

private theorem lead_above {a : UInt8} {v : Nat} (ha : a.toNat=v) (hi : UInt8) (h : hi.toNat<v) :
    ¬ a≤hi := by
  rwa [UInt8.le_iff_toNat_le,ha,Nat.not_le]

theorem utf8Runes_one (h : c.toNat≤127) (t : Bytes) :
    utf8Runes (UInt8.ofNat c.toNat::t)=c::utf8Runes t := by
  have ha : (UInt8.ofNat c.toNat).toNat=c.toNat := by
    simp
    omega
  have hascii : UInt8.ofNat c.toNat<0x80 := by
    rw [UInt8.lt_iff_toNat_lt,ha]
    simp
    omega
  rw [utf8Runes.eq_def]
  simp [hascii,ha]

theorem utf8Runes_two (h1 : ¬ c.toNat≤127) (h2 : c.toNat≤2047) (t : Bytes) :
    utf8Runes (UInt8.ofNat (c.toNat/64%32+192)::UInt8.ofNat (c.toNat%64+128)::t) =
      c::utf8Runes t := by
  obtain ⟨hb,hlowb,-⟩ := continuation c.toNat
  have ha := lead (c.toNat/64) 192 32 (by omega) (by omega)
  have hascii := lead_not_ascii ha (by omega)
  have hlead := lead_in ha 0xC2 0xDF (by simp only [UInt8.reduceToNat]; omega)
  have hvalue : (c.toNat/64+192)%32*64+c.toNat%64=c.toNat := by omega
  rw [utf8Runes.eq_def]
  simp only [hascii,hlead,hb,Bool.and_self,if_false,if_true,ha,hlowb,hvalue,Char.ofNat_toNat]

private theorem second_ok {a b : UInt8} {k n : Nat} (ha : a.toNat=k) (hb : b.toNat=n)
    (hn : 0x80≤n ∧ n≤0xBF) (he0 : k=0xE0 → 0xA0≤n) (hed : k=0xED → n≤0x9F)
    (hf0 : k=0xF0 → 0x90≤n) (hf4 : k=0xF4 → n≤0x8F) :
    (decide ((secondRange a).1≤b) && decide (b≤(secondRange a).2))=true := by
  have hcode : ∀ x : UInt8,a=x → k=x.toNat := fun x hx => by rw [← ha,hx]
  simp only [Bool.and_eq_true,decide_eq_true_eq,UInt8.le_iff_toNat_le,hb,secondRange]
  split_ifs with h1 h2 h3 h4
  · exact ⟨he0 (hcode _ h1),hn.2⟩
  · exact ⟨hn.1,hed (hcode _ h2)⟩
  · exact ⟨hf0 (hcode _ h3),hn.2⟩
  · exact ⟨hn.1,hf4 (hcode _ h4)⟩
  · exact hn

theorem utf8Runes_three (h2 : ¬ c.toNat≤2047) (h3 : c.toNat≤65535) (t : Bytes) :
    utf8Runes (UInt8.ofNat (c.toNat/4096%16+224)::UInt8.ofNat (c.toNat/64%64+128)::
      UInt8.ofNat (c.toNat%64+128)::t)=c::utf8Runes t := by
  obtain ⟨-,hgap⟩ := scalar_value c
  obtain ⟨hb,hlowb,hvalb⟩ := continuation (c.toNat/64)
  obtain ⟨hc,hlowc,-⟩ := continuation c.toNat
  have ha := lead (c.toNat/4096) 224 16 (by omega) (by omega)
  have hascii := lead_not_ascii ha (by omega)
  have hshort := lead_above ha 0xDF (by simp only [UInt8.reduceToNat]; omega)
  have hlead := lead_in ha 0xE0 0xEF (by simp only [UInt8.reduceToNat]; omega)
  have hsecond := second_ok ha hvalb (by omega) (by omega) (by omega) (by omega) (by omega)
  have hvalue : (c.toNat/4096+224)%16*4096+c.toNat/64%64*64+c.toNat%64=c.toNat := by omega
  rw [utf8Runes.eq_def]
  simp only [hascii,hshort,hlead,hsecond,hc,decide_false,Bool.and_false,Bool.false_and,Bool.and_self,Bool.false_eq_true,if_false,if_true,ha,hlowb,hlowc,hvalue,Char.ofNat_toNat]

theorem utf8Runes_four (h3 : ¬ c.toNat≤65535) (t : Bytes) :
    utf8Runes (UInt8.ofNat (c.toNat/262144%8+240)::UInt8.ofNat (c.toNat/4096%64+128)::
      UInt8.ofNat (c.toNat/64%64+128)::UInt8.ofNat (c.toNat%64+128)::t)=c::utf8Runes t := by
  obtain ⟨hmax,-⟩ := scalar_value c
  obtain ⟨hb,hlowb,hvalb⟩ := continuation (c.toNat/4096)
  obtain ⟨hc,hlowc,-⟩ := continuation (c.toNat/64)
  obtain ⟨hd,hlowd,-⟩ := continuation c.toNat
  have ha := lead (c.toNat/262144) 240 8 (by omega) (by omega)
  have hascii := lead_not_ascii ha (by omega)
  have hshort := lead_above ha 0xDF (by simp only [UInt8.reduceToNat]; omega)
  have hthree := lead_above ha 0xEF (by simp only [UInt8.reduceToNat]; omega)
  have hlead := lead_in ha 0xF0 0xF4 (by simp only [UInt8.reduceToNat]; omega)
  have hsecond := second_ok ha hvalb (by omega) (by omega) (by omega) (by omega) (by omega)
  have hvalue : (c.toNat/262144+240)%8*262144+c.toNat/4096%64*4096+c.toNat/64%64*64+c.toNat%64 =
      c.toNat := by omega
  rw [utf8Runes.eq_def]
  simp only [hascii,hshort,hthree,hlead,hsecond,hc,hd,decide_false,Bool.and_false,Bool.false_and,Bool.and_self,Bool.false_eq_true,if_false,if_true,ha,hlowb,hlowc,hlowd,hvalue,
    Char.ofNat_toNat]

theorem utf8Runes_encodeChar (t : Bytes) :
    utf8Runes (String.utf8EncodeChar c++t)=c::utf8Runes t := by
  simp only [String.utf8EncodeChar]
  split_ifs with h1 h2 h3
  · exact utf8Runes_one c h1 t
  · exact utf8Runes_two c h1 h2 t
  · exact utf8Runes_three c h2 h3 t
  · exact utf8Runes_four c h3 t

theorem utf8Runes_bytes (cs : List Char) : utf8Runes (utf8Bytes cs)=cs := by
  induction cs with
  | nil => simp [utf8Bytes,utf8Runes]
  | cons c cs ih =>
    have hcons : utf8Bytes (c::cs)=String.utf8EncodeChar c++utf8Bytes cs := rfl
    rw [hcons,utf8Runes_encodeChar,ih]

theorem utf16Unit_ne_zero (hc : c.toNat≠0) : 0∉utf16Unit c := by
  have hv : c.toNat<0x110000 := by rcases c.valid with h | h <;> simp only [Char.toNat] <;> omega
  intro h
  unfold utf16Unit at h
  split_ifs at h with hl
  · have := congrArg UInt16.toNat (List.mem_singleton.mp h)
    simp at this
    omega
  · simp only [List.mem_cons,List.not_mem_nil,or_false] at h
    rcases h with h | h
    all_goals
      have := congrArg UInt16.toNat h
      simp at this
      omega

theorem toNat_ne_zero_of_encodeChar {c : Char} (h : String.utf8EncodeChar c≠[0]) :
    c.toNat≠0 := by
  intro hc
  apply h
  have hval : c.val.toNat=0 := hc
  simp [String.utf8EncodeChar,hval]

theorem zero_not_mem_units {cs : List Char} (h : 0∉utf8Bytes cs) : 0∉utf16Units cs := by
  intro hmem
  obtain ⟨c,hc,hunit⟩ := List.mem_flatMap.mp hmem
  have hne : c.toNat≠0 := by
    apply toNat_ne_zero_of_encodeChar
    intro hzero
    exact h (List.mem_flatMap.mpr ⟨c,hc,by simp [hzero]⟩)
  exact utf16Unit_ne_zero c hne hunit

theorem utf16Unit_ne_nil : utf16Unit c≠[] := by
  unfold utf16Unit
  split_ifs <;> simp

theorem getLast_units {cs : List Char} (h : (utf8Bytes cs).getLast?≠some 0) :
    (utf16Units cs).getLast?≠some 0 := by
  rcases List.eq_nil_or_concat' cs with rfl | ⟨init,c,rfl⟩
  · simp [utf16Units]
  have hbytes : utf8Bytes (init++[c])=utf8Bytes init++String.utf8EncodeChar c := by simp [utf8Bytes]
  have hunits : utf16Units (init++[c])=utf16Units init++utf16Unit c := by simp [utf16Units]
  have hne : c.toNat≠0 := by
    apply toNat_ne_zero_of_encodeChar
    intro hzero
    apply h
    rw [hbytes,hzero,List.getLast?_concat]
  intro hlast
  rw [hunits,List.getLast?_append_of_ne_nil _ (utf16Unit_ne_nil c)] at hlast
  exact utf16Unit_ne_zero c hne (List.mem_of_getLast? hlast)

end HermEX.Framework
