import HermEX.Lzxpress.Compress
import HermEX.Lzxpress.Decompress

namespace HermEX.Lzxpress

open Framework

variable {e : LzEncoder}

namespace LzEncoder

/-- The open word, behind it the cursor, and a half-used nibble. -/
structure Sound (e : LzEncoder) : Prop where
  word : e.indPos+4≤e.pos
  nibble : e.nibbleIdx≠0 → e.nibbleIdx<e.pos ∧
    (e.nibbleIdx<e.indPos ∨ e.indPos+4≤e.nibbleIdx) ∧
    ∃ b,e.out[e.nibbleIdx]?=some b ∧ b.toNat<16

/-- What was written stands in `fin`, but for later bits and an open nibble's high half. -/
structure Kept (e : LzEncoder) (fin : Bytes) : Prop where
  length : e.pos≤fin.length
  closed : ∀ i,i<e.pos → (i<e.indPos ∨ e.indPos+4 ≤ i) →
    (e.nibbleIdx≠0 → i≠e.nibbleIdx) → fin[i]?=e.out[i]?
  nibble : e.nibbleIdx≠0 → ∃ b b',e.out[e.nibbleIdx]?=some b ∧
    fin[e.nibbleIdx]?=some b' ∧ b'.toNat%16=b.toNat
  word : ∃ w : UInt32,StandsAt fin e.indPos (leBytes 4 w.toNat) ∧
    w.toNat/2^(32-e.indBit)=e.indic.toNat%2^e.indBit

/-- The same open word and the same room. -/
structure SameWord (e e' : LzEncoder) : Prop where
  size : e'.out.length=e.out.length
  indic : e'.indic=e.indic
  indBit : e'.indBit=e.indBit
  indPos : e'.indPos=e.indPos

theorem SameWord.trans {e' e'' : LzEncoder} (h : SameWord e e') (h' : SameWord e' e'') :
    SameWord e e'' :=
  ⟨h'.size.trans h.size,h'.indic.trans h.indic,h'.indBit.trans h.indBit,h'.indPos.trans h.indPos⟩

def reader (e : LzEncoder) (fin : Bytes) (indicator : UInt32) (indBit : Nat) : LzDecoder :=
  ⟨fin,e.pos,indicator,indBit,e.nibbleIdx⟩

end LzEncoder

theorem nibblePair_toNat {lo v : UInt8} (hlo : lo.toNat<16) (hv : v.toNat<16) :
    (lo ||| v <<< 4).toNat=v.toNat*16+lo.toNat := by
  have hor := Nat.shiftLeft_add_eq_or_of_lt (i := 4) hlo v.toNat
  have hshift : (v <<< 4).toNat=v.toNat <<< 4 := by
    simp [Nat.shiftLeft_eq]
    omega
  rw [UInt8.toNat_or,hshift,Nat.or_comm,← hor,Nat.shiftLeft_eq]

theorem lowNibble_toNat (b : UInt8) : (b &&& 0x0F).toNat=b.toNat%16 := by
  exact Nat.and_two_pow_sub_one_eq_mod b.toNat 4

theorem highNibble_toNat (b : UInt8) : (b >>> 4).toNat=b.toNat/16 := by
  exact Nat.shiftRight_eq_div_pow b.toNat 4

def Mirrors {α : Type} (l k : Nat) (write : LzEncoder → Option LzEncoder)
    (read : LzDecoder → Except LzError (α×LzDecoder)) (x : α) : Prop :=
  ∀ e : LzEncoder,e.Sound → e.pos+k≤e.out.length →
    ∃ e',write e=some e' ∧ e'.Sound ∧ e.SameWord e' ∧ e.pos+l≤e'.pos ∧
      e'.pos≤e.pos+k ∧ ∀ fin,e'.Kept fin → e.Kept fin ∧
        ∀ ind bit,read (e.reader fin ind bit)=.ok (x,e'.reader fin ind bit)

attribute [local simp] LzEncoder.writeLengthEscape

namespace Mirrors

variable {α β : Type}

variable {l k n m offset : Nat} {write' write : LzEncoder → Option LzEncoder}
  {read : LzDecoder → Except LzError (α×LzDecoder)} {x : α}
  {q : α → LzDecoder → Except LzError (β×LzDecoder)}

theorem mono {l' k' : Nat} (h : Mirrors l k write read x) (hl : l'≤l) (hk : k≤k') :
    Mirrors l' k' write read x := by
  intro e he hroom
  obtain ⟨e',hw,hs,hsame,hlo,hhi,hread⟩ := h e he (by omega)
  exact ⟨e',hw,hs,hsame,by omega,by omega,hread⟩

theorem congr {read' : LzDecoder → Except LzError (α×LzDecoder)} (h : Mirrors l k write read x)
    (hw : ∀ e,write' e=write e) (hr : ∀ d,read' d=read d) : Mirrors l k write' read' x := by
  obtain rfl : write'=write := funext hw
  obtain rfl : read'=read := funext hr
  exact h

theorem bind {l' k' : Nat} {y : β} (h : Mirrors l k write read x)
    (h' : Mirrors l' k' write' (q x) y) :
    Mirrors (l+l') (k+k') (fun e => write e >>= write')
      (fun d => read d >>= fun r => q r.1 r.2) y := by
  intro e he hroom
  obtain ⟨e₁,hw,hs,hsame,hlo,hhi,hread⟩ := h e he (by omega)
  have hsize := hsame.size
  obtain ⟨e₂,hw',hs',hsame',hlo',hhi',hread'⟩ := h' e₁ hs (by omega)
  refine ⟨e₂,by simp [hw,hw'],hs',hsame.trans hsame',by omega,by omega,?_⟩
  intro fin hk
  obtain ⟨hk₁,hr'⟩ := hread' fin hk
  obtain ⟨hk₀,hr⟩ := hread fin hk₁
  refine ⟨hk₀,?_⟩
  intro ind bit
  have hfirst := hr ind bit
  have hsecond := hr' ind bit
  simp [hfirst,hsecond,Bind.bind,Except.bind]

theorem andThen {y : β} (h : Mirrors l k write read x) (hq : ∀ d,q x d=.ok (y,d)) :
    Mirrors l k write (fun d => read d >>= fun r => q r.1 r.2) y := by
  intro e he hroom
  obtain ⟨e',hw,hs,hsame,hlo,hhi,hread⟩ := h e he hroom
  refine ⟨e',hw,hs,hsame,hlo,hhi,?_⟩
  intro fin hk
  refine ⟨(hread fin hk).1,?_⟩
  intro ind bit
  have hfirst := (hread fin hk).2 ind bit
  simp [hfirst,Bind.bind,Except.bind,hq]

theorem append (w : Bytes) (hw : w≠[]) :
    Mirrors w.length w.length (fun e => e.append w) (fun d => d.take w.length) (leNat w) := by
  intro e he hroom
  obtain ⟨out,hput,hlen,hat,hframe⟩ := put_of_le e.out e.pos w hroom
  have hword := he.word
  have hold : ∀ i,i<e.pos → out[i]?=e.out[i]? := fun i hi => hframe i (.inl hi)
  refine ⟨{e with out,pos:=e.pos+w.length},by simp [LzEncoder.append,hput],⟨?_,?_⟩,
    ⟨hlen,rfl,rfl,rfl⟩,Nat.le_refl _,Nat.le_refl _,?_⟩
  · show e.indPos+4≤e.pos+w.length
    omega
  · intro hn
    obtain ⟨hlt,hapart,b,hb,hsmall⟩ := he.nibble hn
    exact ⟨Nat.lt_add_right _ hlt,hapart,b,(hold _ hlt).trans hb,hsmall⟩
  · intro fin hk
    have hmem : StandsAt fin e.pos w := by
      intro j hj
      rw [← hat j hj]
      apply hk.closed (e.pos+j) (Nat.add_lt_add_left hj _) (.inr (by show e.indPos+4 ≤ _; omega))
      intro hn
      have hlt := (he.nibble hn).1
      show e.pos+j≠e.nibbleIdx
      omega
    refine ⟨⟨?_,?_,?_,hk.word⟩,?_⟩
    · exact Nat.le_trans (Nat.le_add_right _ _) hk.length
    · intro i hi hout hn
      rw [← hold i hi]
      exact hk.closed i (Nat.lt_add_right _ hi) hout hn
    · intro hn
      obtain ⟨b,b',hb,hb',heq⟩ := hk.nibble hn
      exact ⟨b,b',(hold _ (he.nibble hn).1).symm.trans hb,hb',heq⟩
    · intro ind bit
      have hhas : (e.reader fin ind bit).has w.length=true := decide_eq_true (hmem.length_le hw)
      have hread : ((e.reader fin ind bit).input.drop (e.reader fin ind bit).inIdx).take w.length =
          w := hmem.read
      simp only [LzDecoder.take,if_pos hhas,hread]
      rfl

theorem freshNibble {v : UInt8} (hv : v.toNat<16) (he : e.Sound) (hn : e.nibbleIdx=0)
    (hroom : e.pos+1≤e.out.length) :
    ∃ e',e.writeNibble v=some e' ∧ e'.Sound ∧ e.SameWord e' ∧ e'.pos=e.pos+1 ∧
      ∀ fin,e'.Kept fin → e.Kept fin ∧ ∀ ind bit,
        (e.reader fin ind bit).lengthNibble=.ok (v.toUInt32,e'.reader fin ind bit) := by
  obtain ⟨out,hput,hlen,hat,hframe⟩ := put_of_le e.out e.pos [v] hroom
  have hword := he.word
  have hpos : e.pos≠0 := by omega
  have hbyte : out[e.pos]?=some v := by simpa using hat 0 (by simp)
  have hold : ∀ i,i<e.pos → out[i]?=e.out[i]? := fun i hi => hframe i (.inl hi)
  refine ⟨{e with out,pos:=e.pos+1,nibbleIdx:=e.pos},
    by simp [LzEncoder.writeNibble,LzEncoder.append,hn,hput],⟨?_,?_⟩,⟨hlen,rfl,rfl,rfl⟩,rfl,?_⟩
  · show e.indPos+4≤e.pos+1
    omega
  · intro _
    exact ⟨Nat.lt_succ_self _,.inr hword,v,hbyte,hv⟩
  · intro fin hk
    obtain ⟨b,b',hb,hb',heq⟩ := hk.nibble hpos
    obtain rfl : v=b := Option.some.inj (hbyte.symm.trans hb)
    refine ⟨⟨Nat.le_of_succ_le hk.length,?_,fun h => absurd hn h,hk.word⟩,?_⟩
    · intro i hi hout _
      rw [← hold i hi]
      exact hk.closed i (Nat.lt_succ_of_lt hi) hout fun _ => Nat.ne_of_lt hi
    · intro ind bit
      have hhas : (e.reader fin ind bit).has 1=true := decide_eq_true hk.length
      have hstands : StandsAt fin e.pos [b'] := by
        intro j hj
        obtain rfl : j=0 := by simpa using hj
        exact hb'
      have hread : (fin.drop e.pos).take 1=[b'] := hstands.read
      have hvalue : (UInt8.ofNat (leNat [b']) &&& 0x0F).toUInt32=v.toUInt32 := by
        have hsame : UInt8.ofNat (leNat [b'])=b' := by simp [leNat]
        have hlow : b' &&& 0x0F=v := UInt8.toNat_inj.mp ((lowNibble_toNat b').trans heq)
        rw [hsame,hlow]
      have hzero : ¬ (e.reader fin ind bit).nibbleIdx≠0 := by simp [LzEncoder.reader,hn]
      rw [LzDecoder.lengthNibble,if_neg hzero,LzDecoder.take,if_pos hhas]
      simp [LzEncoder.reader,hread,Bind.bind,Except.bind,hvalue]

theorem sharedNibble {v : UInt8} (hv : v.toNat<16) (he : e.Sound) (hn : e.nibbleIdx≠0)
    (hroom : e.pos≤e.out.length) :
    ∃ e',e.writeNibble v=some e' ∧ e'.Sound ∧ e.SameWord e' ∧ e'.pos=e.pos ∧
      ∀ fin,e'.Kept fin → e.Kept fin ∧ ∀ ind bit,
        (e.reader fin ind bit).lengthNibble=.ok (v.toUInt32,e'.reader fin ind bit) := by
  obtain ⟨hlt,hapart,lo,hlo,hsmall⟩ := he.nibble hn
  obtain ⟨out,hput,hlen,hat,hframe⟩ := put_of_le e.out e.nibbleIdx
    [lo ||| v <<< 4] (by simp only [List.length_singleton]; omega)
  have hbyte : out[e.nibbleIdx]?=some (lo ||| v <<< 4) := by simpa using hat 0 (by simp)
  refine ⟨{e with out,nibbleIdx:=0},by simp [LzEncoder.writeNibble,hn,hlo,hput],
    ⟨he.word,fun h => absurd rfl h⟩,⟨hlen,rfl,rfl,rfl⟩,rfl,?_⟩
  intro fin hk
  have hfin : fin[e.nibbleIdx]?=some (lo ||| v <<< 4) :=
    (hk.closed e.nibbleIdx hlt hapart fun h => absurd rfl h).trans hbyte
  have hpair := nibblePair_toNat hsmall hv
  refine ⟨⟨hk.length,?_,?_,hk.word⟩,?_⟩
  · intro i hi hout hne
    have hold : out[i]?=e.out[i]? := hframe i (by simp only [List.length_singleton]; omega)
    rw [← hold]
    exact hk.closed i hi hout fun h => absurd rfl h
  · intro _
    exact ⟨lo,_,hlo,hfin,by rw [hpair]; omega⟩
  · intro ind bit
    have hget : fin.getD e.nibbleIdx 0=lo ||| v <<< 4 := by
      rw [List.getD_eq_getElem?_getD,hfin,Option.getD_some]
    have hhigh : (lo ||| v <<< 4) >>> 4=v := by
      apply UInt8.toNat_inj.mp
      rw [highNibble_toNat,hpair]
      omega
    have hopen : (e.reader fin ind bit).nibbleIdx≠0 := hn
    rw [LzDecoder.lengthNibble,if_pos hopen]
    simp only [LzEncoder.reader,hget,hhigh]

theorem nibble (v : UInt8) (hv : v.toNat<16) :
    Mirrors 0 1 (fun e => e.writeNibble v) LzDecoder.lengthNibble v.toUInt32 := by
  intro e he hroom
  by_cases hn : e.nibbleIdx=0
  · obtain ⟨e',hw,hs,hsame,hpos,hread⟩ := freshNibble hv he hn hroom
    exact ⟨e',hw,hs,hsame,by omega,by omega,hread⟩
  · obtain ⟨e',hw,hs,hsame,hpos,hread⟩ := sharedNibble hv he hn (by omega)
    exact ⟨e',hw,hs,hsame,by omega,by omega,hread⟩

theorem number (hk : 0<k) (hn : n<256^k) :
    Mirrors k k (fun e => e.append (leBytes k n)) (fun d => d.take k) n := by
  have hne : leBytes k n≠[] := by
    intro hnil
    have hlen := leBytes_length k n
    rw [hnil,List.length_nil] at hlen
    omega
  have h := append (leBytes k n) hne
  rwa [leBytes_length,leNat_leBytes k n hn] at h

theorem longLength {v : Nat} (hlo : 22≤v) (hhi : v<2^16) :
    Mirrors 2 2 (fun e => e.writeLongLength v) LzDecoder.longLength (UInt32.ofNat (v-22)) := by
  have hbound : v<256^2 := hhi
  have hne : ¬ v=0 := by omega
  have hbig : ¬ v<15+7 := by omega
  have h := (number (by omega) hbound).andThen (q := fun n d =>
    d.wideLength n >>= fun r =>
      if r.1<15+7 then .error .corrupt else .ok (UInt32.ofNat (r.1-(15+7)),r.2))
    (y := UInt32.ofNat (v-22)) (by
      simp [LzDecoder.wideLength,hne,Bind.bind,Except.bind,hbig])
  refine h.congr ?_ fun d => rfl
  intro e
  exact if_pos hhi

def escapeSize (matchLen : Nat) : Nat :=
  if matchLen<15 then 1 else if matchLen<270 then 2 else 4

def afterNibble (length : UInt32) (d : LzDecoder) : Except LzError (UInt32×LzDecoder) :=
  if length≠15 then .ok (length,d)
  else d.take 1 >>= fun r =>
    if r.1=255 then r.2.longLength >>= fun x => .ok (x.1+15,x.2)
    else .ok (UInt32.ofNat r.1+15,r.2)

theorem byte (hn : n<256) :
    Mirrors 1 1 (fun e => e.append [UInt8.ofNat n]) (fun d => d.take 1) n :=
  number (k := 1) (by omega) hn

theorem shortEscape (hm : m<15) :
    Mirrors 0 1 (fun e => e.writeLengthEscape m) LzDecoder.extendedLength (UInt32.ofNat m) := by
  have hnib : (UInt8.ofNat m).toNat=m := UInt8.toNat_ofNat_of_lt' (Nat.lt_trans hm (by decide))
  have hnum : (UInt32.ofNat m).toNat=m := UInt32.toNat_ofNat_of_lt' (Nat.lt_trans hm (by decide))
  have hvalue : (UInt8.ofNat m).toUInt32=UInt32.ofNat m := by
    apply UInt32.toNat_inj.mp
    rw [UInt8.toNat_toUInt32,hnib,hnum]
  have hne : UInt32.ofNat m≠15 := by
    intro heq
    have h15 : (UInt32.ofNat m).toNat=15 := congrArg UInt32.toNat heq
    omega
  have hfirst := nibble (UInt8.ofNat m) (by omega)
  rw [hvalue] at hfirst
  refine (hfirst.andThen (q := afterNibble) ?_).congr ?_ fun d => rfl
  · intro d
    exact if_pos hne
  · have hmin : min m 15=m := by omega
    simp [hm,hmin]

theorem ofNat_sub_add (h : k ≤ m) : UInt32.ofNat (m-k)+UInt32.ofNat k=UInt32.ofNat m := by
  rw [← UInt32.ofNat_add,Nat.sub_add_cancel h]

theorem byteEscape (hlo : 15 ≤ m) (hhi : m<270) :
    Mirrors 1 2 (fun e => e.writeLengthEscape m) LzDecoder.extendedLength (UInt32.ofNat m) := by
  have hvalue : UInt32.ofNat (m-15)+15=UInt32.ofNat m := ofNat_sub_add hlo
  have hbyte := (byte (n := m-15) (by omega)).andThen (q := fun n d =>
    if n=255 then d.longLength >>= fun x => .ok (x.1+15,x.2) else .ok (UInt32.ofNat n+15,d))
    (by
      intro d
      rw [if_neg (by omega),hvalue])
  have hafter : Mirrors 1 1 (fun e => e.append [UInt8.ofNat (m-15)]) (afterNibble 15)
      (UInt32.ofNat m) := hbyte.congr (fun _ => rfl) fun d => rfl
  have hnib := nibble 15 (by decide)
  refine (hnib.bind hafter).congr ?_ fun d => rfl
  have hmin : min m 15=15 := by omega
  have hmin' : min (m-15) 255=m-15 := by omega
  have hlong : ¬ m<15 := by omega
  have hfit : m-15<255 := by omega
  simp [hlong,hmin,hmin',hfit]

theorem longEscape (hlo : 270 ≤ m) (hhi : m+7<2^16) :
    Mirrors 3 4 (fun e => e.writeLengthEscape m) LzDecoder.extendedLength (UInt32.ofNat m) := by
  have hbias : m+7-22=m-15 := by omega
  have hvalue : UInt32.ofNat (m-15)+15=UInt32.ofNat m := ofNat_sub_add (by omega)
  have hlong := (longLength (by omega) hhi).andThen
    (q := fun x d => .ok (x+15,d)) (by
      intro d
      rw [hbias,hvalue])
  have hbyte := (byte (by omega)).bind (q := fun n d =>
    if n=255 then d.longLength >>= fun x => .ok (x.1+15,x.2) else .ok (UInt32.ofNat n+15,d))
    (hlong.congr (fun _ => rfl) fun d => if_pos rfl)
  have hafter : Mirrors 3 3 (fun e => e.append [255] >>= fun e => e.writeLongLength (m+7))
      (afterNibble 15) (UInt32.ofNat m) := hbyte.congr (fun _ => rfl) fun d => rfl
  have hnib := nibble 15 (by decide)
  refine (hnib.bind hafter).congr ?_ fun d => rfl
  have hmin : min m 15=15 := by omega
  have hmin' : min (m-15) 255=255 := by omega
  have hshort : ¬ m<15 := by omega
  have hfit : ¬ m-15<255 := by omega
  have hback : m-15+7+15=m+7 := by omega
  simp [hshort,hmin,hmin',hfit,hback]

theorem lengthEscape (hm : m+7<2^16) :
    Mirrors 0 (escapeSize m) (fun e => e.writeLengthEscape m) LzDecoder.extendedLength
      (UInt32.ofNat m) := by
  unfold escapeSize
  split_ifs with hshort hbyte
  · exact shortEscape hshort
  · exact (byteEscape (by omega) hbyte).mono (by omega) (by omega)
  · exact (longEscape (by omega) hm).mono (by omega) (by omega)

theorem metaWord (ho : offset<8192) (hn : n<8) :
    (offset <<< 3 ||| n)<256^2 ∧ (offset <<< 3 ||| n) >>> 3=offset ∧
      (offset <<< 3 ||| n) &&& 7=n := by
  have hor := Nat.shiftLeft_add_eq_or_of_lt (i := 3) hn offset
  rw [Nat.shiftLeft_eq] at hor
  have hand := Nat.and_two_pow_sub_one_eq_mod (offset <<< 3 ||| n) 3
  rw [← Nat.shiftLeft_eq] at hor
  refine ⟨?_,?_,?_⟩
  · omega
  · omega
  · refine hand.trans ?_
    omega

def afterMeta (word : Nat) (d : LzDecoder) : Except LzError ((Nat×UInt32)×LzDecoder) :=
  if UInt32.ofNat (word &&& 7)=7 then
    d.extendedLength >>= fun r => .ok ((word >>> 3+1,r.1+7+3),r.2)
  else .ok ((word >>> 3+1,UInt32.ofNat (word &&& 7)+3),d)

theorem shortReference (hm : m<7) (ho : offset<8192) :
    Mirrors 2 2 (fun e => e.writeReference m offset) LzDecoder.reference
      (offset+1,UInt32.ofNat (m+3)) := by
  have hmin : min m 7=m := by omega
  obtain ⟨hsmall,hoffset,hlength⟩ := metaWord ho (show m<8 by omega)
  have hne : UInt32.ofNat m≠7 := by
    intro heq
    have hnum : (UInt32.ofNat m).toNat=m := UInt32.toNat_ofNat_of_lt' (Nat.lt_trans hm (by decide))
    have h7 : (UInt32.ofNat m).toNat=7 := congrArg UInt32.toNat heq
    omega
  have h := (number (by omega) hsmall).andThen (q := afterMeta)
    (y := (offset+1,UInt32.ofNat (m+3))) (by
      intro d
      rw [afterMeta,hlength,hoffset,if_neg hne,UInt32.ofNat_add]
      rfl)
  refine h.congr ?_ fun d => rfl
  have hshort : ¬ 7 ≤ m := by omega
  simp [LzEncoder.writeReference,hshort,hmin]

theorem longReference (hlo : 7 ≤ m) (hhi : m<2^16) (ho : offset<8192) :
    Mirrors 2 (2+escapeSize (m-7)) (fun e => e.writeReference m offset) LzDecoder.reference
      (offset+1,UInt32.ofNat (m+3)) := by
  obtain ⟨hsmall,hoffset,hlength⟩ := metaWord ho (show 7<8 by omega)
  have hvalue : UInt32.ofNat (m-7)+7+3=UInt32.ofNat (m+3) := by
    have hseven : UInt32.ofNat (m-7)+7=UInt32.ofNat m := ofNat_sub_add hlo
    rw [hseven,UInt32.ofNat_add]
    rfl
  have hescape := (lengthEscape (m := m-7) (by omega)).andThen
    (q := fun n d => .ok ((offset+1,n+7+3),d)) (y := (offset+1,UInt32.ofNat (m+3))) (by
      intro d
      rw [hvalue])
  have hafter : Mirrors 0 (escapeSize (m-7)) (fun e => e.writeLengthEscape (m-7))
      (afterMeta (offset <<< 3 ||| 7)) (offset+1,UInt32.ofNat (m+3)) := by
    refine hescape.congr (fun _ => rfl) ?_
    intro d
    have hseven : UInt32.ofNat 7=7 := rfl
    rw [afterMeta,hlength,hoffset,if_pos hseven]
  refine ((number (by omega) hsmall).bind hafter).congr ?_ fun d => rfl
  simp [LzEncoder.writeReference,hlo]

theorem reference (hm : m<2^16) (ho : offset<8192) :
    Mirrors 2 (m+2) (fun e => e.writeReference m offset) LzDecoder.reference
      (offset+1,UInt32.ofNat (m+3)) := by
  by_cases hshort : m<7
  · exact (shortReference hshort ho).mono (by omega) (by omega)
  · have hsize : 2+escapeSize (m-7) ≤ m+2 := by
      unfold escapeSize
      split_ifs <;> omega
    exact (longReference (by omega) hm ho).mono (by omega) hsize

end Mirrors
end HermEX.Lzxpress
