import Mathlib.Tactic.Ring
import HermEX.Lzxpress.Mirror

namespace HermEX.Lzxpress

open Framework

variable {n there uPos maxLen u : Nat} {fin data : Bytes} {d : LzDecoder} {e : LzEncoder}

theorem pushed_mod {b k : Nat} (hb : b<2) (hk : k<32) :
    (n*2+b)%2^32%2^(k+1)=n%2^k*2+b := by
  have hdvd : 2^(k+1) ∣ 2^32 := Nat.pow_dvd_pow 2 (by omega)
  have hsplit : n*2+b=2^(k+1)*(n/2^k)+(n%2^k*2+b) := by
    have hdiv := Nat.div_add_mod n (2^k)
    calc n*2+b=(2^k*(n/2^k)+n%2^k)*2+b := by rw [hdiv]
      _=2^k*2*(n/2^k)+(n%2^k*2+b) := by ring
  have hlt : n%2^k*2+b<2^(k+1) := by omega
  rw [Nat.mod_mod_of_dvd _ hdvd,hsplit,Nat.mul_add_mod,Nat.mod_eq_of_lt hlt]

theorem push_toNat (indic bit : UInt32) (hb : bit.toNat<2) :
    (indic <<< 1 ||| bit).toNat=(indic.toNat*2+bit.toNat)%2^32 := by
  have hor := Nat.shiftLeft_add_eq_or_of_lt (i := 1) hb (indic.toNat%2^31)
  have hshift : (indic <<< 1).toNat=(indic.toNat%2^31) <<< 1 := by
    simp
    omega
  rw [UInt32.toNat_or,hshift,← hor,Nat.shiftLeft_eq]
  omega

theorem bit_toNat (w : UInt32) {j : Nat} (hj : j<32) :
    ((w >>> UInt32.ofNat j) &&& 1).toNat=w.toNat/2^j%2 := by
  have hnum : (UInt32.ofNat j).toNat=j := UInt32.toNat_ofNat_of_lt' (Nat.lt_trans hj (by decide))
  rw [UInt32.toNat_and,UInt32.toNat_shiftRight,hnum,Nat.mod_eq_of_lt hj,Nat.shiftRight_eq_div_pow]
  exact Nat.and_one_is_mod _

theorem next_bit {w b k : Nat} (hb : b<2) (hk : k<32)
    (h : w/2^(32-(k+1))=(n*2+b)%2^32%2^(k+1)) :
    w/2^(32-k)=n%2^k ∧ w/2^(31-k)%2=b := by
  rw [pushed_mod hb hk] at h
  have hstep : w/2^(32-k)=w/2^(31-k)/2 := by
    rw [Nat.div_div_eq_div_mul,← Nat.pow_succ]
    congr 2
    omega
  have hsame : 32-(k+1)=31-k := by omega
  rw [hsame] at h
  omega

namespace LzEncoder

/-- The open word has room, and an empty one was just reserved. -/
structure Ready (e : LzEncoder) : Prop extends Sound e where
  bit : e.indBit<32
  fresh : e.indBit=0 → e.pos=e.indPos+4

def NextBit (e : LzEncoder) (fin : Bytes) (bit : UInt32) : Prop :=
  ∃ w : UInt32,StandsAt fin e.indPos (leBytes 4 w.toNat) ∧ w.toNat/2^(31-e.indBit)%2=bit.toNat

variable {e : LzEncoder} {bit : UInt32}

theorem pushBit_room (he : e.Sound) (hroom : e.indBit+1<32) (hb : bit.toNat<2) :
    ∃ e',e.pushBit bit=some e' ∧ e'.Ready ∧ e'.indBit=e.indBit+1 ∧ e'.indPos=e.indPos ∧
      e'.pos=e.pos ∧ e'.nibbleIdx=e.nibbleIdx ∧ e'.out.length=e.out.length ∧
      ∀ fin,e'.Kept fin → e.Kept fin ∧ e.NextBit fin bit := by
  have hne : ¬ e.indBit+1=32 := by omega
  refine ⟨_,if_neg hne,⟨⟨he.word,he.nibble⟩,hroom,fun h => by simp at h⟩,rfl,rfl,rfl,rfl,rfl,?_⟩
  intro fin hk
  obtain ⟨w,hat,hbits⟩ := hk.word
  rw [push_toNat e.indic bit hb] at hbits
  obtain ⟨hold,hnew⟩ := next_bit hb (by omega) hbits
  exact ⟨⟨hk.length,hk.closed,hk.nibble,w,hat,hold⟩,w,hat,hnew⟩

theorem pushBit_full (he : e.Sound) (hfull : e.indBit+1=32) (hb : bit.toNat<2)
    (hsize : e.pos≤e.out.length) :
    ∃ e',e.pushBit bit=some e' ∧ e'.Ready ∧ e'.indBit=0 ∧ e'.indPos=e.pos ∧
      e'.pos=e.pos+4 ∧ e'.nibbleIdx=e.nibbleIdx ∧ e'.out.length=e.out.length ∧
      ∀ fin,e'.Kept fin → e.Kept fin ∧ e.NextBit fin bit := by
  have hword := he.word
  have hlen4 : (leBytes 4 (e.indic <<< 1 ||| bit).toNat).length=4 := leBytes_length 4 _
  obtain ⟨out,hput,hlen,hat,hframe⟩ := put_of_le e.out e.indPos
    (leBytes 4 (e.indic <<< 1 ||| bit).toNat) (by omega)
  refine ⟨⟨out,e.pos+4,e.indic <<< 1 ||| bit,0,e.pos,e.nibbleIdx⟩,
    by simp only [pushBit,hfull,if_true,hput,Option.map_some],
    ⟨⟨Nat.le_refl _,?_⟩,by show 0<32; omega,fun _ => rfl⟩,rfl,rfl,rfl,rfl,hlen,?_⟩
  · intro hn
    obtain ⟨hlt,hapart,b,hb,hsmall⟩ := he.nibble hn
    exact ⟨Nat.lt_add_right _ hlt,.inl hlt,b,(hframe _ hapart).trans hb,hsmall⟩
  · intro fin hk
    have hin : ∀ i,i<e.pos → (e.nibbleIdx≠0 → i≠e.nibbleIdx) → fin[i]?=out[i]? :=
      fun i hi hn => hk.closed i (Nat.lt_add_right _ hi) (.inl hi) hn
    have hfin : StandsAt fin e.indPos (leBytes 4 (e.indic <<< 1 ||| bit).toNat) := by
      apply hat.congr
      intro j hlo hhi
      apply hin j (by omega)
      intro hn
      have hapart := (he.nibble hn).2.1
      omega
    have hbits : (e.indic <<< 1 ||| bit).toNat/2^(32-(e.indBit+1)) =
        (e.indic.toNat*2+bit.toNat)%2^32%2^(e.indBit+1) := by
      rw [push_toNat e.indic bit hb,hfull]
      simp
    obtain ⟨hold,hnew⟩ := next_bit hb (by omega) hbits
    refine ⟨⟨Nat.le_trans (Nat.le_add_right _ _) hk.length,?_,?_,_,hfin,hold⟩,_,hfin,hnew⟩
    · intro i hi hout hn
      rw [hin i hi hn,hframe i hout]
    · intro hn
      obtain ⟨b,b',hb,hb',heq⟩ := hk.nibble hn
      exact ⟨b,b',(hframe _ (he.nibble hn).2.1).symm.trans hb,hb',heq⟩

/-- The decoder stands before the token to be written. -/
structure Faces (e : LzEncoder) (fin : Bytes) (d : LzDecoder) : Prop where
  input : d.input=fin
  nibble : d.nibbleIdx=e.nibbleIdx
  load : e.indBit=0 → d.indBit=0 ∧ d.inIdx=e.indPos
  loaded : e.indBit≠0 → d.indBit=32-e.indBit ∧ d.inIdx=e.pos ∧
    StandsAt fin e.indPos (leBytes 4 d.indicator.toNat)

theorem word_unique {i : Nat} {v w : UInt32} (hv : StandsAt fin i (leBytes 4 v.toNat))
    (hw : StandsAt fin i (leBytes 4 w.toNat)) : v=w := by
  have hread := hv.read
  have hread' := hw.read
  have hnat := congrArg leNat (hread.symm.trans hread')
  rw [leNat_leBytes 4 _ v.toNat_lt,leNat_leBytes 4 _ w.toNat_lt] at hnat
  exact UInt32.toNat_inj.mp hnat

theorem nextBit_faces (he : e.Ready) {d : LzDecoder} (hd : e.Faces fin d) (hbit : e.NextBit fin bit)
    (hmore : e.pos<fin.length) :
    ∃ w : UInt32,StandsAt fin e.indPos (leBytes 4 w.toNat) ∧
      d.nextBit=.ok (some bit,e.reader fin w (31-e.indBit)) := by
  obtain ⟨w,hat,hval⟩ := hbit
  have hroom := he.bit
  have hbits : (w >>> UInt32.ofNat (31-e.indBit)) &&& 1=bit := by
    apply UInt32.toNat_inj.mp
    rw [bit_toNat w (by omega),hval]
  refine ⟨w,hat,?_⟩
  by_cases hfresh : e.indBit=0
  · obtain ⟨hzero,hidx⟩ := hd.load hfresh
    have hpos := he.fresh hfresh
    have hhas : d.has 4=true := by
      apply decide_eq_true
      rw [hd.input,hidx]
      omega
    have hread := hat.read
    rw [leBytes_length] at hread
    have hword : UInt32.ofNat (leNat ((d.input.drop d.inIdx).take 4))=w := by
      rw [hd.input,hidx,hread,leNat_leBytes 4 _ w.toNat_lt,UInt32.ofNat_toNat]
    have hdata : ¬ d.inIdx+4=d.input.length := by
      rw [hd.input,hidx]
      omega
    have htop : (w >>> 31) &&& 1=bit := by
      rw [hfresh] at hbits
      exact hbits
    simp only [LzDecoder.nextBit,hzero,if_true,LzDecoder.take,hhas,Bind.bind,Except.bind,hdata,
      if_false,hword,hfresh,htop,reader,hd.nibble,hpos]
    rw [hd.input,hidx]
  · obtain ⟨hleft,hidx,hat'⟩ := hd.loaded hfresh
    obtain rfl := word_unique hat hat'
    have hne : ¬ d.indBit=0 := by omega
    have hless : d.indBit-1=31-e.indBit := by omega
    simp only [LzDecoder.nextBit,hne,if_false,hless,hbits,reader,hd.nibble]
    rw [hd.input,hidx]

theorem emit {α : Type} {l k : Nat} {write : LzEncoder → Option LzEncoder}
    {read : LzDecoder → Except LzError (α×LzDecoder)} {x : α} (hm : Mirrors l k write read x)
    (hl : 0<l) (he : e.Ready) (hroom : e.pos+k≤e.out.length) (hb : bit.toNat<2) :
    ∃ e',write e >>= (fun e₁ => e₁.pushBit bit)=some e' ∧ e'.Ready ∧
      e'.out.length=e.out.length ∧ e.pos<e'.pos ∧ 8*e'.pos+e'.indBit≤8*(e.pos+k)+e.indBit+1 ∧
      ∀ fin,e'.Kept fin → e.Kept fin ∧ e.pos<fin.length ∧ ∀ d,e.Faces fin d →
        ∃ d₁ d₂,d.nextBit=.ok (some bit,d₁) ∧ read d₁=.ok (x,d₂) ∧ e'.Faces fin d₂ := by
  obtain ⟨e₁,hw,hs,hsame,hlo,hhi,hread⟩ := hm e he.toSound hroom
  have hsize := hsame.size
  have hbit := hsame.indBit
  have hpos := hsame.indPos
  have hmax := he.bit
  -- Both ways to push the bit leave the decoder in front of the next token.
  have hpush : ∃ e',e₁.pushBit bit=some e' ∧ e'.Ready ∧ e'.out.length=e₁.out.length ∧
      e₁.pos≤e'.pos ∧ 8*e'.pos+e'.indBit≤8*e₁.pos+e₁.indBit+1 ∧
      ∀ fin,e'.Kept fin → e₁.Kept fin ∧ e₁.NextBit fin bit ∧ ∀ w : UInt32,
        StandsAt fin e₁.indPos (leBytes 4 w.toNat) →
          e'.Faces fin (e₁.reader fin w (31-e₁.indBit)) := by
    by_cases hfull : e₁.indBit+1=32
    · obtain ⟨e',hp,hr,hib,hip,hpp,hn,ho,hk⟩ := pushBit_full hs hfull hb (by omega)
      refine ⟨e',hp,hr,ho,by omega,by omega,fun fin hfin => ⟨(hk fin hfin).1,(hk fin hfin).2,?_⟩⟩
      intro w _
      exact ⟨rfl,hn.symm,fun _ => ⟨by show 31-e₁.indBit=0; omega,hip.symm⟩,
        fun h => absurd hib h⟩
    · obtain ⟨e',hp,hr,hib,hip,hpp,hn,ho,hk⟩ := pushBit_room hs (by omega) hb
      refine ⟨e',hp,hr,ho,by omega,by omega,fun fin hfin => ⟨(hk fin hfin).1,(hk fin hfin).2,?_⟩⟩
      intro w hat
      refine ⟨rfl,hn.symm,fun h => absurd h (by omega),fun _ => ⟨?_,hpp.symm,hip ▸ hat⟩⟩
      show 31-e₁.indBit=32-e'.indBit
      omega
  obtain ⟨e',hp,hr,ho,hpp,hgrow,hk⟩ := hpush
  refine ⟨e',by simp [hw,hp],hr,by omega,by omega,by omega,?_⟩
  intro fin hfin
  obtain ⟨hk₁,hnext,hfaces⟩ := hk fin hfin
  obtain ⟨hk₀,hr₁⟩ := hread fin hk₁
  have hmore : e.pos<fin.length := Nat.lt_of_lt_of_le (by omega) hk₁.length
  have hnext₀ : e.NextBit fin bit := by
    unfold NextBit at hnext ⊢
    rwa [hbit,hpos] at hnext
  refine ⟨hk₀,hmore,?_⟩
  intro d hd
  obtain ⟨w,hat,hbits⟩ := nextBit_faces he hd hnext₀ hmore
  refine ⟨_,_,hbits,hr₁ w (31-e.indBit),?_⟩
  rw [← hbit]
  exact hfaces w (hpos.symm ▸ hat)

theorem flush_word (indic : UInt32) {k : Nat} (hk : k<32) :
    ((if k≠0 then indic <<< UInt32.ofNat (32-k) else indic) |||
      0xFFFFFFFF >>> UInt32.ofNat k).toNat/2^(32-k)=indic.toNat%2^k := by
  by_cases hzero : k=0
  · subst hzero
    rw [Nat.pow_zero,Nat.mod_one]
    exact Nat.div_eq_of_lt (UInt32.toNat_lt _)
  · have hnum : (UInt32.ofNat (32-k)).toNat=32-k :=
      UInt32.toNat_ofNat_of_lt' (Nat.lt_of_le_of_lt (Nat.sub_le _ _) (by decide))
    have hnum' : (UInt32.ofNat k).toNat=k := UInt32.toNat_ofNat_of_lt' (Nat.lt_trans hk (by decide))
    have hpow : 2^32=2^k*2^(32-k) := by rw [← Nat.pow_add,Nat.add_sub_cancel' (Nat.le_of_lt hk)]
    have hleft : (indic <<< UInt32.ofNat (32-k)).toNat >>> (32-k)=indic.toNat%2^k := by
      have hcount : (32-k)%32=32-k := Nat.mod_eq_of_lt (by omega)
      rw [UInt32.toNat_shiftLeft,hnum,hcount,Nat.shiftLeft_eq,Nat.shiftRight_eq_div_pow,hpow,
        Nat.mul_mod_mul_right,Nat.mul_div_cancel _ (Nat.pow_pos (by omega))]
    have hright : (0xFFFFFFFF >>> UInt32.ofNat k : UInt32).toNat >>> (32-k)=0 := by
      have hones : (0xFFFFFFFF : UInt32).toNat=2^32-1 := rfl
      rw [UInt32.toNat_shiftRight,hnum',Nat.mod_eq_of_lt hk,← Nat.shiftRight_add,
        Nat.add_sub_cancel' (Nat.le_of_lt hk),hones,Nat.shiftRight_eq_div_pow]
      decide
    rw [if_pos hzero,← Nat.shiftRight_eq_div_pow,UInt32.toNat_or,Nat.shiftRight_or_distrib,hleft,
      hright,Nat.or_zero]

theorem flush_kept (he : e.Ready) (hsize : e.pos≤e.out.length) :
    ∃ fin,e.flush=some fin ∧ e.Kept fin := by
  have hword := he.word
  obtain ⟨out,hput,hlen,hat,hframe⟩ := put_of_le e.out e.indPos
    (leBytes 4 ((if e.indBit≠0 then e.indic <<< UInt32.ofNat (32-e.indBit) else e.indic) |||
      0xFFFFFFFF >>> UInt32.ofNat e.indBit).toNat) (by rw [leBytes_length]; omega)
  have hpos : e.pos≤out.length := by omega
  have htake : ∀ i,i<e.pos → (out.take e.pos)[i]?=out[i]? := fun i hi => List.getElem?_take_of_lt hi
  refine ⟨out.take e.pos,?_,?_,?_,?_,_,?_,flush_word e.indic he.bit⟩
  · simp only [flush,hput,Bind.bind,Option.bind,if_pos hpos]
  · rw [List.length_take_of_le hpos]
  · intro i hi hout _
    rw [htake i hi,hframe i hout]
  · intro hn
    obtain ⟨hlt,hapart,b,hb,hsmall⟩ := he.nibble hn
    exact ⟨b,b,hb,((htake _ hlt).trans (hframe _ hapart)).trans hb,Nat.mod_eq_of_lt hsmall⟩
  · apply hat.congr
    intro j _ hhi
    rw [leBytes_length] at hhi
    exact htake j (by omega)

end LzEncoder
/-- Behind the position, inside the window, with the same bytes. -/
structure Match (data : Bytes) (uPos maxLen there mlen : Nat) : Prop where
  before : there<uPos
  near : uPos-there≤8192
  short : mlen ≤ maxLen
  long : 3 ≤ mlen
  same : ∀ i,i < mlen → data[uPos+i]?=data[there+i]?

theorem matchLength_same {here : Nat} (hlt : there<here) {more l : Nat}
    (hroom : here+l+more≤data.length) (hsame : ∀ i,i<l → data[here+i]?=data[there+i]?) :
    ∃ n,matchLength data here there more l=some n ∧ n≤l+more ∧
      ∀ i,i<n → data[here+i]?=data[there+i]? := by
  induction more generalizing l with
  | zero => exact ⟨l,rfl,Nat.le_refl _,hsame⟩
  | succ more ih =>
    have ha := List.getElem?_eq_getElem (show here+l<data.length by omega)
    have hb := List.getElem?_eq_getElem (show there+l<data.length by omega)
    by_cases heq : data[here+l]?=data[there+l]?
    · obtain ⟨n,hn,hle,hall⟩ := ih (l := l+1) (by omega) (by
        intro i hi
        by_cases hil : i=l
        · rw [hil,heq]
        · exact hsame i (by omega))
      refine ⟨n,?_,by omega,hall⟩
      rw [ha,hb,Option.some.injEq] at heq
      simp only [matchLength,ha,hb,Bind.bind,Option.bind,heq]
      exact hn
    · refine ⟨l,?_,by omega,hsame⟩
      rw [ha,hb,Option.some.injEq] at heq
      simp [matchLength,ha,hb,heq]

theorem hopeless_some (hlt : there<uPos) (hroom : uPos+maxLen≤data.length) {best : Best}
    (hbest : ∀ t m,best=some (t,m) → Match data uPos maxLen t m) :
    ∃ skip,hopeless data there best=some skip := by
  cases best with
  | none => exact ⟨false,rfl⟩
  | some p =>
    obtain ⟨start,len⟩ := p
    have hm := hbest start len rfl
    have hbefore := hm.before
    have hshort := hm.short
    by_cases hlong : 1000<len
    · have ha := List.getElem?_eq_getElem (show there+len-1<data.length by omega)
      have hb := List.getElem?_eq_getElem (show start+len-1<data.length by omega)
      exact ⟨_,by simp only [hopeless,hlong,ha,hb]; rfl⟩
    · exact ⟨false,by simp [hopeless,hlong]⟩

theorem lookupLoop_match (hash : Hash) (offset : UInt32)
    (hroom : offset.toNat+maxLen≤data.length) (hs : List UInt16) (best : Best)
    (hbest : ∀ t m,best=some (t,m) → Match data offset.toNat maxLen t m) :
    ∃ best',lookupLoop hash data offset maxLen hs best=some best' ∧
      ∀ t m,best'=some (t,m) → Match data offset.toNat maxLen t m := by
  induction hs generalizing best with
  | nil => exact ⟨best,rfl,hbest⟩
  | cons h hs ih =>
    by_cases hbreak : offset≤hash.at h
    · exact ⟨best,by simp [lookupLoop,if_pos hbreak],hbest⟩
    · have hlt : (hash.at h).toNat<offset.toNat := by
        rw [UInt32.le_iff_toNat_le] at hbreak
        omega
      by_cases hfar : window<offset-hash.at h
      · obtain ⟨best',hl,hb'⟩ := ih best hbest
        exact ⟨best',by simpa [lookupLoop,if_neg hbreak,if_pos hfar] using hl,hb'⟩
      · have hnear : offset.toNat-(hash.at h).toNat≤8192 := by
          have hsub := UInt32.toNat_sub_of_le offset (hash.at h)
            (UInt32.le_iff_toNat_le.mpr (Nat.le_of_lt hlt))
          rw [UInt32.lt_iff_toNat_lt,hsub] at hfar
          exact Nat.le_of_not_lt hfar
        obtain ⟨skip,hskip⟩ := hopeless_some hlt hroom hbest
        obtain ⟨l,hl,hle,hsame⟩ := matchLength_same hlt (l := 0) (by simpa using hroom) (by simp)
        simp only [lookupLoop,if_neg hbreak,if_neg hfar,hskip,hl]
        cases skip with
        | true => exact ih best hbest
        | false =>
          apply ih
          intro t m htm
          split_ifs at htm with hbetter
          · obtain ⟨rfl,rfl⟩ := Prod.mk.inj (Option.some.inj htm)
            exact ⟨hlt,hnear,by omega,by omega,hsame⟩
          · exact hbest t m htm

theorem findMatch_match (hash : Hash) (hdata : data.length<2^32) (hpos : uPos<data.length) :
    ∃ best hash',findMatch hash data uPos=some (best,hash') ∧
      ∀ there mlen,best=some (there,mlen) →
        Match data uPos (min (data.length-uPos) (0xFFFF+3)) there mlen := by
  unfold findMatch
  by_cases hshort : min (data.length-uPos) (0xFFFF+3)<3
  · exact ⟨none,hash,if_pos hshort,by simp⟩
  · have h0 := List.getElem?_eq_getElem hpos
    have h1 := List.getElem?_eq_getElem (show uPos+1<data.length by omega)
    have h2 := List.getElem?_eq_getElem (show uPos+2<data.length by omega)
    have hoff : (UInt32.ofNat uPos).toNat=uPos := UInt32.toNat_ofNat_of_lt' (Nat.lt_trans hpos hdata)
    have hfit : (UInt32.ofNat uPos).toNat+min (data.length-uPos) (0xFFFF+3)≤data.length := by omega
    have hlook := fun h : UInt16 =>
      lookupLoop_match hash (UInt32.ofNat uPos) hfit (h::probes h) none (by simp)
    obtain ⟨best,hl,hb⟩ := hlook (threeByteHash data[uPos] data[uPos+1] data[uPos+2])
    rw [hoff] at hb
    refine ⟨best,storeMatch hash (threeByteHash data[uPos] data[uPos+1] data[uPos+2])
      (UInt32.ofNat uPos),?_,hb⟩
    simp only [if_neg hshort,h0,h1,h2,Bind.bind,Option.bind,lookupMatch,hl]

theorem copyMatch_take {offset : Nat} (hlo : 1≤offset) (hhi : offset≤u)
    (hroom : u+n≤data.length) (hsame : ∀ i,i<n → data[u+i]?=data[u-offset+i]?) :
    LzDecoder.copyMatch data.length offset n (data.take u)=.ok (data.take (u+n)) := by
  induction n generalizing u with
  | zero => rfl
  | succ n ih =>
    have hlen : (data.take u).length=u := List.length_take_of_le (by omega)
    have hgo : ¬ ((data.take u).length<offset ∨ data.length≤(data.take u).length) := by omega
    have hnext : data.take u++[(data.take u).getD ((data.take u).length-offset) 0] =
        data.take (u+1) := by
      have hlt : u<data.length := by omega
      have hfirst := hsame 0 (by omega)
      rw [Nat.add_zero,Nat.add_zero,List.getElem?_eq_getElem hlt] at hfirst
      rw [hlen,List.getD_eq_getElem?_getD,List.getElem?_take_of_lt (by omega),← hfirst,
        Option.getD_some,List.take_succ_eq_append_getElem hlt]
    have hrest := ih (u := u+1) (by omega) (by omega) (by
      intro i hi
      have hi' := hsame (i+1) (by omega)
      have h1 : u+1+i=u+(i+1) := by omega
      have h2 : u+1-offset+i=u-offset+(i+1) := by omega
      rw [h1,h2,hi'])
    rw [LzDecoder.copyMatch,if_neg hgo,hnext,hrest]
    congr 2
    omega

theorem decompress_round {v rounds : Nat} {d₁ d₂ : LzDecoder} {bit : UInt32}
    (hbit : d.nextBit=.ok (some bit,d₁))
    (htok : d₁.token bit (data.take u) data.length=.ok (data.take v,d₂)) (hv : v≤data.length)
    (hrest : v<data.length → d₂.inIdx<d₂.input.length ∧
      decompressLoop data.length rounds d₂ (data.take v)=.ok data) :
    decompressLoop data.length (rounds+1) d (data.take u)=.ok data := by
  have hlen : (data.take v).length=v := List.length_take_of_le hv
  simp only [decompressLoop,hbit,htok,Bind.bind,Except.bind]
  by_cases hend : v<data.length
  · obtain ⟨hmore,hloop⟩ := hrest hend
    rw [if_neg (by omega),hloop]
  · rw [if_pos (.inl (by omega)),List.take_of_length_le (by omega)]

def Owes (data : Bytes) (uPos : Nat) (e : LzEncoder) (result : Option Bytes) : Prop :=
  ∃ fin,result=some fin ∧ e.Kept fin ∧ (uPos<data.length → e.pos<fin.length ∧
    ∀ d rounds,e.Faces fin d → fin.length-e.pos ≤ rounds →
      decompressLoop data.length rounds d (data.take uPos)=.ok data)

theorem LzEncoder.Faces.inIdx_le (he : e.Ready) (h : e.Faces fin d) :
    d.inIdx≤e.pos := by
  by_cases hfresh : e.indBit=0
  · have hpos := he.fresh hfresh
    have hidx := (h.load hfresh).2
    omega
  · exact Nat.le_of_eq (h.loaded hfresh).2.1

theorem owes_token {α : Type} {c l k : Nat} {write : LzEncoder → Option LzEncoder}
    {read : LzDecoder → Except LzError (α×LzDecoder)} {x : α} (hm : Mirrors l k write read x)
    (hl : 0<l) (hk : k ≤ c) (h1 : 1 ≤ c) (bit : UInt32) (hb : bit.toNat<2)
    (hc : uPos+c≤data.length) (htok : ∀ d d',read d=.ok (x,d') →
      d.token bit (data.take uPos) data.length=.ok (data.take (uPos+c),d')) (he : e.Ready)
    (hsize : e.out.length=data.length*2+64) (hroom : 8*e.pos+e.indBit≤32+9*uPos)
    (next : LzEncoder → Option Bytes)
    (hnext : ∀ e' : LzEncoder,e'.Ready → e'.out.length=data.length*2+64 →
      8*e'.pos+e'.indBit≤32+9*(uPos+c) → Owes data (uPos+c) e' (next e')) :
    Owes data uPos e ((write e >>= fun e₁ => e₁.pushBit bit) >>= next) := by
  obtain ⟨e',hw,hr,ho,hlt,hgrow,hback⟩ := LzEncoder.emit hm hl he (by omega) hb
  obtain ⟨fin,hfin,hkept,hrest⟩ := hnext e' hr (ho.trans hsize) (by omega)
  obtain ⟨hk₀,hmore,hdec⟩ := hback fin hkept
  refine ⟨fin,by rw [hw]; exact hfin,hk₀,fun _ => ⟨hmore,?_⟩⟩
  intro d rounds hd hrounds
  obtain ⟨d₁,d₂,hbit,hread,hfaces⟩ := hdec d hd
  obtain ⟨r,rfl⟩ : ∃ r,rounds=r+1 := ⟨rounds-1,by omega⟩
  apply decompress_round hbit (htok d₁ d₂ hread) hc
  intro hend
  obtain ⟨hmore',hloop⟩ := hrest hend
  refine ⟨?_,hloop d₂ r hfaces (by omega)⟩
  have hidx := hfaces.inIdx_le hr
  rw [hfaces.input]
  omega

theorem token_literal (hu : u<data.length) {d' : LzDecoder}
    (h : d.take 1=.ok (data[u].toNat,d')) :
    d.token 0 (data.take u) data.length=.ok (data.take (u+1),d') := by
  have hlen : (data.take u).length=u := List.length_take_of_le (Nat.le_of_lt hu)
  have hhas : d.has 1=true := by
    unfold LzDecoder.take at h
    split_ifs at h with hhas
    exact hhas
  have hgo : ¬ (d.has 1=false ∨ data.length≤(data.take u).length) := by
    rw [hlen,hhas]
    simp
    omega
  have hnext : data.take u++[data[u]]=data.take (u+1) :=
    (List.take_succ_eq_append_getElem hu).symm
  simp only [LzDecoder.token,if_true,LzDecoder.literal,if_neg hgo,h,Bind.bind,Except.bind,
    UInt8.ofNat_toNat,hnext]

theorem token_reference {mlen : Nat} (hm : Match data u maxLen there mlen)
    (hroom : u+maxLen≤data.length) (hmax : maxLen≤0xFFFF+3) {d' : LzDecoder}
    (h : d.reference=.ok ((u-there-1+1,UInt32.ofNat (mlen-3+3)),d')) :
    d.token 1 (data.take u) data.length=.ok (data.take (u+mlen),d') := by
  have hbefore := hm.before
  have hshort := hm.short
  have hlong := hm.long
  have hlength : (UInt32.ofNat (mlen-3+3)).toNat=mlen := by
    rw [Nat.sub_add_cancel hlong]
    exact UInt32.toNat_ofNat_of_lt' (Nat.lt_of_le_of_lt (Nat.le_trans hshort hmax) (by decide))
  have hoffset : u-there-1+1=u-there := by omega
  have hcopy : LzDecoder.copyMatch data.length (u-there) mlen (data.take u) =
      .ok (data.take (u+mlen)) := by
    apply copyMatch_take (by omega) (by omega) (by omega)
    intro i hi
    have hback : u-(u-there)=there := by omega
    rw [hback]
    exact hm.same i hi
  have hone : ¬ (1 : UInt32)=0 := by decide
  simp only [LzDecoder.token,if_neg hone,LzDecoder.backReference,h,Bind.bind,Except.bind,hlength,
    hoffset,hcopy]

theorem compressLoop_owes (hdata : data.length<2^32) (fuel : Nat) (hash : Hash)
    (hpos : uPos≤data.length) (hfuel : data.length-uPos<fuel) (he : e.Ready)
    (hsize : e.out.length=data.length*2+64) (hroom : 8*e.pos+e.indBit≤32+9*uPos) :
    Owes data uPos e (compressLoop data fuel hash uPos e) := by
  induction fuel generalizing hash uPos e with
  | zero => omega
  | succ fuel ih =>
    by_cases hmore : uPos<data.length
    · obtain ⟨best,hash',hfind,hmatch⟩ := findMatch_match hash hdata hmore
      cases best with
      | none =>
        have hb := List.getElem?_eq_getElem hmore
        have hbyte : Mirrors 1 1 (fun e => e.append [data[uPos]]) (fun d => d.take 1)
            data[uPos].toNat := by
          have h := Mirrors.byte data[uPos].toNat_lt
          rwa [UInt8.ofNat_toNat] at h
        have hstep := owes_token hbyte (by omega) (Nat.le_refl 1) (Nat.le_refl 1) 0 (by decide)
          hmore (fun d d' h => token_literal hmore h) he hsize hroom
          (compressLoop data fuel hash' (uPos+1))
          (fun e' he' hs hr => ih hash' hmore (by omega) he' hs hr)
        simp only [compressLoop,if_pos hmore,hfind,hb]
        exact hstep
      | some p =>
        obtain ⟨there,mlen⟩ := p
        have hm := hmatch there mlen rfl
        have hnear := hm.near
        have hshort := hm.short
        have hlong := hm.long
        have href : Mirrors 2 (mlen-3+2)
            (fun e => e.writeReference (mlen-3) (uPos-there-1)) LzDecoder.reference
            (uPos-there-1+1,UInt32.ofNat (mlen-3+3)) :=
          Mirrors.reference (by omega) (by omega)
        have hstep := owes_token href (by omega) (show mlen-3+2 ≤ mlen by omega) (by omega)
          1 (by decide) (by omega)
          (fun d d' h => token_reference hm (by omega) (by omega) h) he hsize hroom
          (compressLoop data fuel hash' (uPos+mlen))
          (fun e' he' hs hr => ih hash' (by omega) (by omega) he' hs hr)
        simp only [compressLoop,if_pos hmore,hfind]
        exact hstep
    · obtain ⟨fin,hflush,hkept⟩ := LzEncoder.flush_kept he (by omega)
      exact ⟨fin,by simp [compressLoop,if_neg hmore,hflush],hkept,fun h => absurd h hmore⟩

/-- Every text is compressed within the buffer, and comes back. -/
theorem decompress_compress (data : Bytes) (hne : 1 ≤ data.length) (hdata : data.length < 2^32) :
    ∃ out,compress data = some out ∧ decompress out data.length = .ok data := by
  have hzero : ¬ data.length=0 := by omega
  obtain ⟨buf,hput,hlen,-,-⟩ := put_of_le (List.replicate (data.length*2+64) 0) 0
    (leBytes 4 0) (by rw [leBytes_length,List.length_replicate]; omega)
  rw [List.length_replicate] at hlen
  have hstart : LzEncoder.reserveIndicator ⟨List.replicate (data.length*2+64) 0,0,0,0,0,0⟩ =
      some ⟨buf,4,0,0,0,0⟩ := by
    simp [LzEncoder.reserveIndicator,LzEncoder.append,hput]
  have hready : LzEncoder.Ready ⟨buf,4,0,0,0,0⟩ :=
    ⟨⟨Nat.le_refl _,fun h => absurd rfl h⟩,Nat.succ_pos 31,fun _ => rfl⟩
  obtain ⟨fin,hfin,hkept,hback⟩ := compressLoop_owes hdata (data.length+1) .empty (Nat.zero_le _)
    (by omega) hready hlen (Nat.le_refl 32)
  obtain ⟨hmore,hread⟩ := hback (by omega)
  refine ⟨fin,by simp only [compress,if_neg hzero,hstart,Bind.bind,Option.bind,hfin],?_⟩
  have hfull : ¬ fin.length=0 := by omega
  rw [decompress,if_neg hfull]
  exact hread ⟨fin,0,0,0,0⟩ fin.length
    ⟨rfl,rfl,fun _ => ⟨rfl,rfl⟩,fun h => absurd rfl h⟩ (Nat.sub_le _ _)

theorem decompress_compress_repeated :
    ∃ out,compress (List.replicate 40 0x61) = some out ∧
      decompress out 40 = .ok (List.replicate 40 0x61) :=
  decompress_compress (List.replicate 40 0x61) (by decide) (by decide)

/-- Three literals and a match into its own copy. -/
example : decompress [0xFF,0xFF,0xFF,0x1F,0x61,0x62,0x63,0x17,0x00,0x02] 15 =
    .ok (List.replicate 5 [0x61,0x62,0x63]).flatten := by
  decide +kernel

end HermEX.Lzxpress
