import Mathlib.Data.List.Forall2
import HermEX.Framework.Reassembly
import HermEX.Ics.FtCodec

namespace HermEX.Ics

open Framework Mapi

def nakedFrame : Frame UInt8 where
  whole w := ∃ us : List (UInt8×UInt8),(0,0)∉us ∧ w=us.flatMap (fun u => [u.1,u.2])++[0,0]
  part t := ∃ (us : List (UInt8×UInt8)) (x : Bytes),(0,0)∉us ∧ x.length<2 ∧
    t=us.flatMap (fun u => [u.1,u.2])++x

def nameBodyFrame (kind : UInt8) : Frame UInt8 :=
  if kind=mnidID then .fixed 4
  else if kind=mnidString then nakedFrame
  else if kind=kindNone then .empty
  else .stuck

def nameFrame : Frame UInt8 := .head 16 fun _ => .head 1 fun k => nameBodyFrame (k.getD 0 0)

def nameOfFrame (propid : UInt16) : Frame UInt8 :=
  if 0x8000≤propid then nameFrame else .empty

def scalarFrames : List (PropType×Frame UInt8) :=
  [(ptShort,.fixed 2),(ptLong,.fixed 4),(ptError,.fixed 4),(ptFloat,.fixed 4),
    (ptDouble,.fixed 8),(ptAppTime,.fixed 8),(ptBoolean,.fixed 2),(ptCurrency,.fixed 8),
    (ptI8,.fixed 8),(ptSysTime,.fixed 8),(ptCLSID,.fixed 16),(ptUnicode,countedFrame),
    (ptString8,countedFrame),(ptBinary,countedFrame),(ptObject,countedFrame)]

def mvElemFrames : List (PropType×Frame UInt8) :=
  [(ptMvShort,.fixed 2),(ptMvLong,.fixed 4),(ptMvCurrency,.fixed 8),(ptMvI8,.fixed 8),
    (ptMvSysTime,.fixed 8),(ptMvFloat,.fixed 4),(ptMvDouble,.fixed 8),(ptMvAppTime,.fixed 8),
    (ptMvCLSID,.fixed 16),(ptMvString8,countedFrame),(ptMvUnicode,countedFrame),
    (ptMvBinary,countedFrame)]

def mvBodyFrame (F : Frame UInt8) (n : Nat) : Frame UInt8 where
  whole w := n≤ maxMVCount ∧ (F.times n).whole w
  part t := n≤ maxMVCount ∧ 2*n≤t.length ∧ (F.times n).part t

def mvCountFrame (typ : PropType) (count : UInt32) : Frame UInt8 :=
  match mvElemFrames.lookup typ with
  | some F => mvBodyFrame F count.toNat
  | none => .refused

def mvFrame (typ : PropType) : Frame UInt8 :=
  .head 4 fun h => mvCountFrame typ (UInt32.ofNat (leNat h))

def valueFrame (typ : PropType) : Frame UInt8 :=
  match scalarFrames.lookup typ with
  | some F => F
  | none => if isMultivalue typ then mvFrame typ else .refused

def afterWordFrame (word : UInt32) : Frame UInt8 :=
  if isMarker word then .empty
  else (nameOfFrame (PropTag.id word)).seq (valueFrame (elementType word))

def elementFrame : Frame UInt8 := .head 4 fun h => afterWordFrame (UInt32.ofNat (leNat h))

theorem unit_notMem_cons {u : UInt8×UInt8} {us : List (UInt8×UInt8)} :
    (0,0)∉u::us ↔ ¬(u.1=0 ∧ u.2=0) ∧ (0,0)∉us := by
  simp [Prod.ext_iff,eq_comm]

theorem nakedUnits_reads : Reads nakedFrame nakedUnits where
  whole w hw := by
    obtain ⟨us,h0,rfl⟩ := hw
    refine ⟨us.flatMap (fun u => [u.1,u.2])++[0,0],fun t => ?_⟩
    induction us with
    | nil => simp [nakedUnits]
    | cons u us ih =>
      obtain ⟨hu,h0⟩ := unit_notMem_cons.mp h0
      have ht := ih h0
      simp only [List.flatMap_cons,List.cons_append,List.nil_append,nakedUnits,if_neg hu] at ht ⊢
      rw [ht]
      rfl
  part t ht := by
    obtain ⟨us,x,h0,hx,rfl⟩ := ht
    induction us with
    | nil =>
      cases x with
      | nil => rfl
      | cons a x => cases x with
        | nil => rfl
        | cons b x => simp only [List.length_cons] at hx; omega
    | cons u us ih =>
      obtain ⟨hu,h0⟩ := unit_notMem_cons.mp h0
      have ht := ih h0
      simp [nakedUnits,if_neg hu,ht]
  some_inv b a t h := by
    fun_induction nakedUnits b generalizing a t with
    | case1 x y r hxy =>
      obtain ⟨rfl,rfl⟩ := hxy
      obtain ⟨rfl,rfl⟩ := Prod.mk.inj (Option.some.inj h)
      exact ⟨[0,0],rfl,[],by simp,rfl⟩
    | case2 x y r hxy ih =>
      obtain ⟨⟨c,s⟩,hc,he⟩ := Option.map_eq_some_iff.mp h
      obtain ⟨w,rfl,us,h0,rfl⟩ := ih c s hc
      obtain ⟨-,rfl⟩ := Prod.mk.inj he
      exact ⟨x::y::(us.flatMap (fun u => [u.1,u.2])++[0,0]),rfl,(x,y)::us,
        unit_notMem_cons.mpr ⟨hxy,h0⟩,rfl⟩
    | case3 => simp at h
  none_inv b h := by
    fun_induction nakedUnits b with
    | case1 x y r hxy => simp at h
    | case2 x y r hxy ih =>
      obtain ⟨us,z,h0,hz,rfl⟩ := ih (by simpa using h)
      exact ⟨(x,y)::us,z,unit_notMem_cons.mpr ⟨hxy,h0⟩,hz,rfl⟩
    | case3 b hb =>
      refine ⟨[],b,by simp,?_,rfl⟩
      cases b with
      | nil => simp
      | cons a b => cases b with
        | nil => simp
        | cons c b => exact (hb a c b rfl).elim

theorem decodeNameBody_reads (g : GUID) (k : UInt8) :
    Reads (nameBodyFrame k) (decodeNameBody g k) := by
  unfold nameBodyFrame
  by_cases h1 : k=mnidID
  · have he : decodeNameBody g k=Reader.u32.map fun l => ⟨k,g,l,[]⟩ := by
      funext b; rw [decodeNameBody,if_pos h1]
    rw [if_pos h1,he]
    exact Reads.u32.map_reader _
  · rw [if_neg h1]
    by_cases h2 : k=mnidString
    · have he : decodeNameBody g k=readNakedUTF16.map fun s => ⟨k,g,0,s⟩ := by
        funext b; rw [decodeNameBody,if_neg h1,if_pos h2]
      rw [if_pos h2,he]
      exact (nakedUnits_reads.map_reader _).map_reader _
    · rw [if_neg h2]
      by_cases h3 : k=kindNone
      · have he : decodeNameBody g k=fun b => some (⟨k,g,0,[]⟩,b) := by
          funext b; rw [decodeNameBody,if_neg h1,if_neg h2,if_pos h3]
        rw [if_pos h3,he]
        exact Reads.empty _
      · have he : decodeNameBody g k=fun _ => none := by
          funext b; rw [decodeNameBody,if_neg h1,if_neg h2,if_neg h3]
        rw [if_neg h3,he]
        exact Reads.stuck

theorem decodeName_reads : Reads nameFrame decodeName := by
  let body := fun (x k : Bytes) => decodeNameBody (.ofFlat x) (k.getD 0 0)
  have h1 (x : Bytes) : Reads (.head 1 fun k => nameBodyFrame (k.getD 0 0))
      (fun t => if 1≤t.length then body x (t.take 1) (t.drop 1) else none) :=
    Reads.head fun k _ => decodeNameBody_reads _ _
  have h2 : Reads nameFrame (fun b => if 16≤b.length then
      (if 1≤(b.drop 16).length then body (b.take 16) ((b.drop 16).take 1) ((b.drop 16).drop 1)
        else none) else none) := Reads.head fun x _ => h1 x
  convert h2 using 1
  funext b
  by_cases hb : 16≤b.length
  · cases ht : b.drop 16 <;> simp [decodeName,Reader.bytes,Reader.byte,hb,ht,body]
  · simp [decodeName,Reader.bytes,hb]

theorem decodeNameOf_reads (propid : UInt16) :
    Reads (nameOfFrame propid) (decodeNameOf propid) := by
  unfold nameOfFrame decodeNameOf
  split_ifs
  · exact decodeName_reads.map_reader _
  · exact Reads.empty none

theorem lookup_rel {κ α γ : Type} [BEq κ] {R : α → γ → Prop} {xs : List (κ×α)}
    {ys : List (κ×γ)} (h : List.Forall₂ (fun x y => x.1=y.1 ∧ R x.2 y.2) xs ys) (k : κ) :
    Option.Rel R (xs.lookup k) (ys.lookup k) := by
  induction h with
  | nil => exact .none
  | @cons x y xs ys hxy _ ih =>
    obtain ⟨kx,x⟩ := x
    obtain ⟨ky,y⟩ := y
    obtain ⟨rfl,hxy⟩ := hxy
    simp only [List.lookup_cons]
    cases k==kx with
    | true => exact .some hxy
    | false => exact ih

theorem scalarFrames_read : List.Forall₂ (fun x y => x.1=y.1 ∧ Reads x.2 y.2)
    scalarFrames fxValueReaders :=
  .cons ⟨rfl,Reads.u16.map_reader fun x => Value.int16 x.toInt16⟩ <|
  .cons ⟨rfl,Reads.u32.map_reader fun x => Value.int32 x.toInt32⟩ <|
  .cons ⟨rfl,Reads.u32.map_reader Value.uint32⟩ <|
  .cons ⟨rfl,Reads.u32.map_reader Value.float32⟩ <|
  .cons ⟨rfl,Reads.u64.map_reader Value.float64⟩ <|
  .cons ⟨rfl,Reads.u64.map_reader Value.float64⟩ <|
  .cons ⟨rfl,Reads.u16.map_reader fun x => Value.bool (x != 0)⟩ <|
  .cons ⟨rfl,Reads.u64.map_reader fun x => Value.int64 x.toInt64⟩ <|
  .cons ⟨rfl,Reads.u64.map_reader fun x => Value.int64 x.toInt64⟩ <|
  .cons ⟨rfl,Reads.u64.map_reader Value.uint64⟩ <|
  .cons ⟨rfl,(Reads.bytes 16).map_reader fun x => Value.guid (.ofFlat x)⟩ <|
  .cons ⟨rfl,Reads.lenPrefixed.map_reader fun x => Value.string (decodeUTF16 x)⟩ <|
  .cons ⟨rfl,Reads.lenPrefixed.map_reader fun x => Value.string (trimNUL x)⟩ <|
  .cons ⟨rfl,Reads.lenPrefixed.map_reader Value.bytes⟩ <|
  .cons ⟨rfl,Reads.lenPrefixed.map_reader Value.bytes⟩ .nil

theorem fixed_whole_length {k : Nat} {w : Bytes} (h : (Frame.fixed k).whole w) :
    w.length=k := by
  obtain ⟨hk,he⟩ := h
  have := List.drop_eq_nil_iff.mp he
  omega

theorem counted_whole_length {w : Bytes} (h : countedFrame.whole w) : 4≤w.length := h.1

theorem decodeMVElems_decodes {T : Type} {F : Frame UInt8} {read : Reader T}
    (wrap : List T → Value) (hr : Reads F read) (h2 : ∀ w,F.whole w → 2≤w.length) (n : UInt32)
    (hn : n.toNat≤ maxMVCount) :
    Decodes (mvBodyFrame F n.toNat) (decodeMVElems read wrap n) := by
  have hd := Decodes.of_reads (ε := FxError) ((hr.replicate n.toNat).map_reader wrap)
  have he (b : Bytes) (hb : 2*n.toNat≤b.length) : decodeMVElems read wrap n b=
      .ofRead b ((read.replicate n.toNat).map wrap b) := by
    rw [decodeMVElems,if_neg (by omega)]
  have hs (b : Bytes) (hb : ¬2*n.toNat≤b.length) :
      decodeMVElems read wrap n b=.fail (.countExceeds n b.length) := by
    rw [decodeMVElems,if_pos (by omega)]
  constructor
  · rintro w ⟨-,hw⟩
    obtain ⟨a,ha⟩ := hd.whole w hw
    have hl := Frame.times_whole_length h2 n.toNat w hw
    exact ⟨a,fun t => (he _ (by rw [List.length_append]; omega)).trans (ha t)⟩
  · rintro t ⟨-,hl,ht⟩
    exact (he t hl).trans (hd.part t ht)
  · intro b a m h
    by_cases hb : 2*n.toNat≤b.length
    · obtain ⟨w,t,hw,hl,hF⟩ := hd.done_inv b a m ((he b hb).symm.trans h)
      exact ⟨w,t,hw,hl,hn,hF⟩
    · rw [hs b hb] at h
      simp at h
  · intro b h
    by_cases hb : 2*n.toNat≤b.length
    · exact ⟨hn,hb,hd.more_inv b ((he b hb).symm.trans h)⟩
    · rw [hs b hb] at h
      simp at h

theorem mvElemFrames_read : List.Forall₂ (fun x y => x.1=y.1 ∧
    ∀ n : UInt32,n.toNat≤ maxMVCount → Decodes (mvBodyFrame x.2 n.toNat) (y.2 n))
    mvElemFrames mvReaders := by
  have fixed {T : Type} {k : Nat} {r : Reader T} {wrap : List T → Value} (hk : 2≤k)
      (hr : Reads (.fixed k) r) (n : UInt32) (hn : n.toNat≤ maxMVCount) :
      Decodes (mvBodyFrame (.fixed k) n.toNat) (decodeMVElems r wrap n) :=
    decodeMVElems_decodes wrap hr (fun w hw => by rw [fixed_whole_length hw]; exact hk) n hn
  have counted {T : Type} {r : Reader T} {wrap : List T → Value} (hr : Reads countedFrame r)
      (n : UInt32) (hn : n.toNat≤ maxMVCount) :
      Decodes (mvBodyFrame countedFrame n.toNat) (decodeMVElems r wrap n) :=
    decodeMVElems_decodes wrap hr (fun w hw => by have := counted_whole_length hw; omega) n hn
  exact .cons ⟨rfl,fixed (by decide) (Reads.u16.map_reader _)⟩ <|
    .cons ⟨rfl,fixed (by decide) (Reads.u32.map_reader _)⟩ <|
    .cons ⟨rfl,fixed (by decide) (Reads.u64.map_reader _)⟩ <|
    .cons ⟨rfl,fixed (by decide) (Reads.u64.map_reader _)⟩ <|
    .cons ⟨rfl,fixed (by decide) Reads.u64⟩ <| .cons ⟨rfl,fixed (by decide) Reads.u32⟩ <|
    .cons ⟨rfl,fixed (by decide) Reads.u64⟩ <| .cons ⟨rfl,fixed (by decide) Reads.u64⟩ <|
    .cons ⟨rfl,fixed (by decide) ((Reads.bytes 16).map_reader _)⟩ <|
    .cons ⟨rfl,counted (Reads.lenPrefixed.map_reader _)⟩ <|
    .cons ⟨rfl,counted (Reads.lenPrefixed.map_reader _)⟩ <|
    .cons ⟨rfl,counted Reads.lenPrefixed⟩ .nil

variable (typ : PropType)

theorem decodeMVBody_decodes (n : UInt32) :
    Decodes (mvCountFrame typ n) (decodeMVBody typ n) := by
  have hrel := lookup_rel (R := fun F (r : MvReader) => ∀ n : UInt32,n.toNat≤ maxMVCount →
    Decodes (mvBodyFrame F n.toNat) (r n)) mvElemFrames_read typ
  unfold mvCountFrame
  by_cases hc : maxMVCount<n.toNat
  · have he : decodeMVBody typ n=fun _ => .fail (.implausibleCount n) := by
      funext b; rw [decodeMVBody,if_pos hc]
    rw [he]
    generalize mvElemFrames.lookup typ=o
    cases o with
    | none => exact Decodes.refused _
    | some F =>
      refine ⟨?_,?_,by simp,by simp⟩
      · rintro w ⟨hn,-⟩; omega
      · rintro t ⟨hn,-⟩; omega
  · cases hl : mvReaders.lookup typ with
    | none =>
      have he : decodeMVBody typ n=fun _ => .fail (.unsupportedFXType typ) := by
        funext b; simp [decodeMVBody,hc,hl]
      rw [hl] at hrel
      rw [he]
      generalize mvElemFrames.lookup typ=o at hrel ⊢
      cases hrel
      exact Decodes.refused _
    | some read =>
      have he : decodeMVBody typ n=read n := by funext b; simp [decodeMVBody,hc,hl]
      rw [hl] at hrel
      rw [he]
      generalize mvElemFrames.lookup typ=o at hrel ⊢
      cases hrel with
      | some hF => exact hF n (by omega)

theorem decodeMV_decodes : Decodes (mvFrame typ) (decodeMV typ) :=
  Decodes.u32 (decodeMVBody_decodes typ)

theorem decodeValue_decodes : Decodes (valueFrame typ) (decodeValue typ) := by
  have hrel := lookup_rel scalarFrames_read typ
  unfold valueFrame decodeValue
  generalize scalarFrames.lookup typ=o,fxValueReaders.lookup typ=r at hrel ⊢
  cases hrel with
  | some hF => exact Decodes.of_reads hF
  | none =>
    by_cases hm : isMultivalue typ
    · simp only [if_pos hm]
      exact decodeMV_decodes typ
    · simp only [if_neg hm]
      exact Decodes.refused _

theorem decodeAfterWord_decodes (word : UInt32) :
    Decodes (afterWordFrame word) (decodeAfterWord word) := by
  unfold afterWordFrame
  by_cases hm : isMarker word
  · have he : decodeAfterWord word=fun b => .ofRead b (some (.marker word,b)) := by
      funext b; simp [decodeAfterWord,hm,Outcome.ofRead]
    rw [if_pos hm,he]
    exact Decodes.of_reads (Reads.empty _)
  · have he : decodeAfterWord word=fun b => .seq b (decodeNameOf (PropTag.id word) b)
        fun name body => (decodeValue (elementType word) body).map fun v =>
          .prop ⟨PropTag.mk (PropTag.id word) (elementType word),name,v⟩ := by
      funext b; rw [decodeAfterWord,if_neg hm]
    rw [if_neg hm,he]
    exact Decodes.seq (decodeNameOf_reads _) fun name => (decodeValue_decodes _).map _

theorem decodeElement_decodes : Decodes elementFrame decodeElement :=
  Decodes.u32 decodeAfterWord_decodes

theorem elementFrame_whole_ne_nil (w : Bytes) (h : elementFrame.whole w) : w≠[] := by
  rintro rfl
  exact absurd h.1 (by decide)

theorem elementFrame_part_nil : elementFrame.part [] := .inl (by decide)

end HermEX.Ics
