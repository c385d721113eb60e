import HermEX.Framework.Codec
import HermEX.Framework.Runs
import HermEX.Ics.Frames

namespace HermEX.Ics

open Framework Mapi

variable {s : GoString} {T : Type} {asVal : Value → Option T} {read : Reader Value}
  (wrap : T → Value) {typ : PropType} {v : Value} (id : UInt16) {header : Bytes}

theorem units_append (us : List UInt16) (t : Bytes) :
    units (us.flatMap (fun u => leBytes 2 u.toNat)++t)=us++units t := by
  induction us with
  | nil => simp
  | cons u us ih =>
    have hu : leNat (leBytes 2 u.toNat)=u.toNat := leNat_leBytes 2 _ u.toNat_lt
    have hpair : leBytes 2 u.toNat=[UInt8.ofNat u.toNat,UInt8.ofNat (u.toNat/256)] := rfl
    rw [hpair] at hu
    simp only [List.flatMap_cons,hpair,List.cons_append,List.nil_append,units,hu,ih,
      UInt16.ofNat_toNat]

theorem decodeUTF16_encodeUTF16 (hs : ValidUTF8 s) (hlast : s.getLast?≠some 0) :
    decodeUTF16 (encodeUTF16 s)=s := by
  obtain ⟨cs,rfl⟩ := hs
  have hunits : units (encodeUTF16 (utf8Bytes cs))=utf16Units cs++[0] := by
    rw [encodeUTF16,units_append,utf8Runes_bytes]
    rfl
  have hstop : (utf16Units cs).rdropWhile (· == 0)=utf16Units cs := by
    rw [List.rdropWhile_eq_self_iff]
    intro hne hzero
    apply getLast_units hlast
    rw [List.getLast?_eq_getLast_of_ne_nil hne]
    simpa using hzero
  rw [decodeUTF16,hunits,List.rdropWhile_concat_pos _ _ _ (by rfl),hstop,utf16Runes_units]

theorem unit_zero {u : UInt16} (hlow : UInt8.ofNat u.toNat=0)
    (hhigh : UInt8.ofNat (u.toNat/256)=0) : u=0 := by
  have h1 := congrArg UInt8.toNat hlow
  have h2 := congrArg UInt8.toNat hhigh
  have hlt := u.toNat_lt
  simp only [UInt8.toNat_ofNat',UInt8.toNat_zero] at h1 h2
  apply UInt16.toNat_inj.mp
  rw [UInt16.toNat_zero]
  omega

theorem nakedUnits_units {us : List UInt16} (h : 0∉us) :
    Returns (us.flatMap (fun u => leBytes 2 u.toNat)++[0,0]) nakedUnits
      (us.flatMap (fun u => leBytes 2 u.toNat)++[0,0]) := by
  intro rest
  induction us with
  | nil => simp [nakedUnits]
  | cons u us ih =>
    have hu : ¬ (UInt8.ofNat u.toNat=0 ∧ UInt8.ofNat (u.toNat/256)=0) := by
      rintro ⟨hlow,hhigh⟩
      exact h (by simp [unit_zero hlow hhigh])
    have hpair : leBytes 2 u.toNat=[UInt8.ofNat u.toNat,UInt8.ofNat (u.toNat/256)] := rfl
    have hrest := ih fun hmem => h (List.mem_cons_of_mem u hmem)
    simp only [List.flatMap_cons,hpair,List.cons_append,List.nil_append,nakedUnits,if_neg hu,
      hrest,Option.map_some]

theorem readNakedUTF16_encodeUTF16 (hs : ValidUTF8 s) (hzero : 0∉s) :
    Returns (encodeUTF16 s) readNakedUTF16 s := by
  have hlast : s.getLast?≠some 0 := fun h => hzero (List.mem_of_getLast? h)
  have hback := decodeUTF16_encodeUTF16 hs hlast
  have hread : Returns (encodeUTF16 s) nakedUnits (encodeUTF16 s) := by
    obtain ⟨cs,rfl⟩ := hs
    rw [encodeUTF16,utf8Runes_bytes]
    exact nakedUnits_units (zero_not_mem_units hzero)
  have h := hread.map decodeUTF16
  rwa [hback] at h

/-- A text that both string types can carry. -/
structure Text (s : GoString) : Prop where
  valid : ValidUTF8 s
  last : s.getLast?≠some 0
  wide : (encodeUTF16 s).length<2^32
  narrow : (s++[0]).length<2^32

theorem unicode_back (h : Text s) :
    Returns (leBytes 4 (encodeUTF16 s).length++encodeUTF16 s)
      (Reader.lenPrefixed.map decodeUTF16) s := by
  have hread := (Returns.lenPrefixed h.wide).map decodeUTF16
  rwa [decodeUTF16_encodeUTF16 h.valid h.last] at hread

theorem string8_back (h : Text s) :
    Returns (leBytes 4 (s++[0]).length++(s++[0])) (Reader.lenPrefixed.map trimNUL) s := by
  have htrim : trimNUL (s++[0])=s := by simp [trimNUL]
  have hread := (Returns.lenPrefixed h.narrow).map trimNUL
  rwa [htrim] at hread

theorem guid_back (g : GUID) : Returns g.flat ((Reader.bytes 16).map GUID.ofFlat) g := by
  have hread := (Returns.bytes g.flat).map GUID.ofFlat
  rwa [GUID.ofFlat_flat,GUID.flat_length] at hread

/-- Valid texts, lengths that fit, and not too many elements. -/
def Transferable : Value → Prop
  | .string s => Text s
  | .bytes b => b.length<2^32
  | .int16s xs => xs.length ≤ maxMVCount
  | .int32s xs => xs.length ≤ maxMVCount
  | .float32s xs => xs.length ≤ maxMVCount
  | .float64s xs => xs.length ≤ maxMVCount
  | .int64s xs => xs.length ≤ maxMVCount
  | .uint64s xs => xs.length ≤ maxMVCount
  | .guids xs => xs.length ≤ maxMVCount
  | .strings xs => xs.length ≤ maxMVCount ∧ ∀ s∈xs,Text s
  | .bytess xs => xs.length ≤ maxMVCount ∧ ∀ b∈xs,b.length<2^32
  | _ => True

def ScalarBack (write : Bytes → Value → Encoded) (read : Reader Value) : Prop :=
  ∀ header v h b,Transferable v → write header v=.ok (h,b) → ∃ w,h++b=header++w ∧ Returns w read v

theorem fxTyped_back {write : Bytes → T → Bytes×Bytes}
    (hback : ∀ header x,Transferable (wrap x) →
      ∃ w,(write header x).1++(write header x).2=header++w ∧ Returns w read (wrap x))
    (hval : ∀ v x,asVal v=some x → v=wrap x := by intro v x h; cases v <;> simp_all) :
    ScalarBack (fxTyped asVal write) read := by
  intro header v h b hv hw
  unfold fxTyped at hw
  cases hx : asVal v with
  | none => simp [hx] at hw
  | some x =>
    obtain rfl := hval v x hx
    obtain ⟨w,hbytes,hread⟩ := hback header x hv
    simp only [hx,Except.ok.injEq] at hw
    rw [hw] at hbytes
    exact ⟨w,hbytes,hread⟩

theorem fxFixed_back {k : Nat} {bits : T → Nat}
    (hback : ∀ x,Returns (leBytes k (bits x)) read (wrap x))
    (hval : ∀ v x,asVal v=some x → v=wrap x := by intro v x h; cases v <;> simp_all) :
    ScalarBack (fxFixed asVal k bits) read :=
  fxTyped_back wrap (fun header x _ => ⟨leBytes k (bits x),by simp,hback x⟩) hval

theorem tearable_back {f : T → Bytes}
    (hback : ∀ x,Transferable (wrap x) → Returns (leBytes 4 (f x).length++f x) read (wrap x))
    (hval : ∀ v x,asVal v=some x → v=wrap x := by intro v x h; cases v <;> simp_all) :
    ScalarBack (fxTyped asVal fun h x => appendTearable h (f x)) read :=
  fxTyped_back wrap (fun header x hx =>
    ⟨leBytes 4 (f x).length++f x,by simp [appendTearable],hback x hx⟩) hval

theorem bool_back (x : Bool) :
    Returns (leBytes 2 x.toNat) (Reader.u16.map fun n => .bool (n != 0)) (Value.bool x) := by
  cases x with
  | false => exact (Returns.u16 0).map fun n => Value.bool (n != 0)
  | true => exact (Returns.u16 1).map fun n => Value.bool (n != 0)

theorem fxBinary_back : ScalarBack fxBinary fxReadBinary :=
  tearable_back Value.bytes fun _ hx => (Returns.lenPrefixed hx).map Value.bytes

theorem fxDouble_back : ScalarBack fxDouble fxReadDouble :=
  fxFixed_back Value.float64 fun x => (Returns.u64 x).map Value.float64

theorem fxInt64_back : ScalarBack fxInt64 fxReadInt64 :=
  fxFixed_back Value.int64 fun x =>
    (Returns.u64 x.toUInt64).map fun n => Value.int64 n.toInt64

theorem asString_some (v : Value) (s : GoString) (h : asString v=some s) : v=.string s := by
  cases v <;> simp_all [asString]

theorem fxValue_back : List.Forall₂ (fun x y => x.1=y.1 ∧ ScalarBack x.2 y.2)
    fxValueWriters fxValueReaders := by
  refine .cons ⟨rfl,?_⟩ <| .cons ⟨rfl,?_⟩ <| .cons ⟨rfl,?_⟩ <| .cons ⟨rfl,?_⟩ <|
    .cons ⟨rfl,fxDouble_back⟩ <| .cons ⟨rfl,fxDouble_back⟩ <| .cons ⟨rfl,?_⟩ <|
    .cons ⟨rfl,fxInt64_back⟩ <| .cons ⟨rfl,fxInt64_back⟩ <| .cons ⟨rfl,?_⟩ <| .cons ⟨rfl,?_⟩ <|
    .cons ⟨rfl,?_⟩ <| .cons ⟨rfl,?_⟩ <| .cons ⟨rfl,fxBinary_back⟩ <|
    .cons ⟨rfl,fxBinary_back⟩ .nil
  · exact fxFixed_back Value.int16 fun x =>
      (Returns.u16 x.toUInt16).map fun n => Value.int16 n.toInt16
  · exact fxFixed_back Value.int32 fun x =>
      (Returns.u32 x.toUInt32).map fun n => Value.int32 n.toInt32
  · exact fxFixed_back Value.uint32 fun x => (Returns.u32 x).map Value.uint32
  · exact fxFixed_back Value.float32 fun x => (Returns.u32 x).map Value.float32
  · exact fxFixed_back Value.bool bool_back
  · exact fxFixed_back Value.uint64 fun x => (Returns.u64 x).map Value.uint64
  · exact fxTyped_back Value.guid fun header x _ =>
      ⟨x.flat,by simp,(guid_back x).map_comp Value.guid⟩
  · exact tearable_back Value.string (fun _ hs => (unicode_back hs).map_comp Value.string)
      asString_some
  · exact tearable_back Value.string (fun _ hs => (string8_back hs).map_comp Value.string)
      asString_some

def MultiBack (write : Bytes → Value → Except FxError Bytes) (read : MvReader) : Prop :=
  ∀ b v b',Transferable v → write b v=.ok b' →
    ∃ (count : UInt32) (w : Bytes),b'=b++(leBytes 4 count.toNat++w) ∧
      count.toNat ≤ maxMVCount ∧ Yields w (read count) v

theorem mvTyped_back {asVals : Value → Option (List T)} {write : T → Bytes} {read : Reader T}
    (wrap : List T → Value)
    (hback : ∀ xs,Transferable (wrap xs) → ∀ x∈xs,Returns (write x) read x)
    (htwo : ∀ x,2≤(write x).length := by simp)
    (hcount : ∀ xs,Transferable (wrap xs) → xs.length ≤ maxMVCount := by exact fun _ h => h)
    (hval : ∀ v xs,asVals v=some xs → v=wrap xs := by intro v xs h; cases v <;> simp_all) :
    MultiBack (mvTyped asVals write) (decodeMVElems read wrap) := by
  intro b v b' hv hw
  unfold mvTyped at hw
  cases hx : asVals v with
  | none => simp [hx] at hw
  | some xs =>
    obtain rfl := hval v xs hx
    have hmax := hcount xs hv
    have hsmall : xs.length<2^32 := by
      unfold maxMVCount at hmax
      omega
    have hlen : (UInt32.ofNat xs.length).toNat=xs.length := UInt32.toNat_ofNat_of_lt' hsmall
    simp only [hx,Except.ok.injEq] at hw
    refine ⟨UInt32.ofNat xs.length,xs.flatMap write,by rw [hlen,← hw,appendMVElems],
      by rwa [hlen],?_⟩
    intro rest
    -- Two bytes for each element, so the count is never held to be too large.
    have hbytes := le_length_flatMap htwo xs
    have hroom : ¬ (xs.flatMap write++rest).length<(UInt32.ofNat xs.length).toNat*2 := by
      rw [hlen,List.length_append]
      omega
    have hread := ((Returns.replicate (hback xs hv)).map wrap).yields (ε := FxError) rest
    rw [decodeMVElems,if_neg hroom,hlen]
    exact hread

theorem mvInt64_back : MultiBack mvInt64 mvReadInt64 :=
  mvTyped_back Value.int64s fun _ _ x _ => (Returns.u64 x.toUInt64).map UInt64.toInt64

theorem mvDouble_back : MultiBack mvDouble mvReadDouble :=
  mvTyped_back Value.float64s fun _ _ x _ => Returns.u64 x

theorem asStrings_some (v : Value) (xs : List GoString) (h : asStrings v=some xs) :
    v=.strings xs := by
  cases v <;> simp_all [asStrings]

theorem two_le_lenPrefixed (b : Bytes) : 2≤(appendLenPrefixed b).length := by
  rw [appendLenPrefixed,List.length_append,leBytes_length]
  omega

theorem mv_back : List.Forall₂ (fun x y => x.1=y.1 ∧ MultiBack x.2 y.2) mvWriters mvReaders := by
  refine .cons ⟨rfl,?_⟩ <| .cons ⟨rfl,?_⟩ <| .cons ⟨rfl,mvInt64_back⟩ <|
    .cons ⟨rfl,mvInt64_back⟩ <| .cons ⟨rfl,?_⟩ <| .cons ⟨rfl,?_⟩ <| .cons ⟨rfl,mvDouble_back⟩ <|
    .cons ⟨rfl,mvDouble_back⟩ <| .cons ⟨rfl,?_⟩ <| .cons ⟨rfl,?_⟩ <| .cons ⟨rfl,?_⟩ <|
    .cons ⟨rfl,?_⟩ .nil
  · exact mvTyped_back Value.int16s fun _ _ x _ => (Returns.u16 x.toUInt16).map UInt16.toInt16
  · exact mvTyped_back Value.int32s fun _ _ x _ => (Returns.u32 x.toUInt32).map UInt32.toInt32
  · exact mvTyped_back Value.uint64s fun _ _ x _ => Returns.u64 x
  · exact mvTyped_back Value.float32s fun _ _ x _ => Returns.u32 x
  · exact mvTyped_back Value.guids (fun _ _ x _ => guid_back x) (by simp [GUID.flat_length])
  · exact mvTyped_back Value.strings (fun _ h s hs => string8_back (h.2 s hs))
      (fun s => two_le_lenPrefixed (s++[0])) (fun _ h => h.1) asStrings_some
  · exact mvTyped_back Value.strings (fun _ h s hs => unicode_back (h.2 s hs))
      (fun s => two_le_lenPrefixed (encodeUTF16 s)) (fun _ h => h.1) asStrings_some
  · exact mvTyped_back Value.bytess (fun _ h b hb => Returns.lenPrefixed (h.2 b hb))
      two_le_lenPrefixed fun _ h => h.1

theorem rel_some {α γ : Type} {R : α → γ → Prop} {o : Option α} {o' : Option γ}
    (h : Option.Rel R o o') {a : α} (ha : o=some a) : ∃ c,o'=some c ∧ R a c := by
  subst ha
  cases h with
  | some h => exact ⟨_,rfl,h⟩

theorem rel_none {α γ : Type} {R : α → γ → Prop} {o : Option α} {o' : Option γ}
    (h : Option.Rel R o o') (ha : o=none) : o'=none := by
  subst ha
  cases h with
  | none => rfl

theorem appendMV_back {b b' : Bytes} (hv : Transferable v) (he : appendMV b typ v=.ok b') :
    ∃ w,b'=b++w ∧ Yields w (decodeMV typ) v := by
  unfold appendMV at he
  cases hw : mvWriters.lookup typ with
  | none => simp [hw] at he
  | some write =>
    rw [hw] at he
    obtain ⟨read,hr,hback⟩ := rel_some (lookup_rel mv_back typ) hw
    obtain ⟨count,w,hbytes,hmax,hread⟩ := hback b v b' hv he
    refine ⟨leBytes 4 count.toNat++w,hbytes,?_⟩
    apply (Returns.u32 count).seq
    intro rest
    rw [decodeMVBody,if_neg (Nat.not_lt.mpr hmax),hr]
    exact hread rest

theorem encodeValue_back {h b : Bytes} (hv : Transferable v)
    (he : encodeValue typ header v=.ok (h,b)) :
    ∃ w,h++b=header++w ∧ Yields w (decodeValue typ) v := by
  have hrel := lookup_rel fxValue_back typ
  unfold encodeValue at he
  cases hw : fxValueWriters.lookup typ with
  | some write =>
    rw [hw] at he
    obtain ⟨read,hr,hback⟩ := rel_some hrel hw
    obtain ⟨w,hbytes,hread⟩ := hback header v h b hv he
    refine ⟨w,hbytes,?_⟩
    intro rest
    rw [decodeValue,hr]
    exact hread.yields rest
  | none =>
    rw [hw] at he
    have hr := rel_none hrel hw
    by_cases hmv : isMultivalue typ=true
    · simp only [hmv] at he
      obtain ⟨b',hb',hpair⟩ := map_eq_ok he
      obtain ⟨rfl,rfl⟩ := Prod.mk.inj hpair
      obtain ⟨w,rfl,hread⟩ := appendMV_back hv hb'
      refine ⟨w,by simp,?_⟩
      intro rest
      rw [decodeValue,hr]
      simp only [hmv]
      exact hread rest
    · simp [hmv] at he

theorem lookup_key {κ α : Type} [BEq κ] [LawfulBEq κ] {xs : List (κ×α)} {k : κ} {a : α}
    (h : xs.lookup k=some a) : k∈xs.map Prod.fst := by
  induction xs with
  | nil => simp at h
  | cons x xs ih =>
    rw [List.lookup_cons] at h
    cases hk : k == x.1 with
    | true => simp [eq_of_beq hk]
    | false =>
      rw [hk] at h
      exact List.mem_cons_of_mem _ (ih h)

theorem encodeValue_flag {x : Bytes×Bytes} (he : encodeValue typ header v=.ok x) :
    typ &&& fxCodepageFlag=0 := by
  have hscalar : (fxValueWriters.map Prod.fst).all (· &&& fxCodepageFlag=0)=true := by decide
  have hmulti : (mvWriters.map Prod.fst).all (· &&& fxCodepageFlag=0)=true := by decide
  unfold encodeValue at he
  cases hw : fxValueWriters.lookup typ with
  | some write => exact of_decide_eq_true (List.all_eq_true.mp hscalar typ (lookup_key hw))
  | none =>
    rw [hw] at he
    by_cases hmv : isMultivalue typ=true
    · simp only [appendMV] at he
      cases hm : mvWriters.lookup typ with
      | some write => exact of_decide_eq_true (List.all_eq_true.mp hmulti typ (lookup_key hm))
      | none => simp [hm,Except.map] at he
    · simp [hmv] at he

def wireName (n : PropertyName) : PropertyName :=
  ⟨n.kind,n.guid,if n.kind=mnidID then n.lid else 0,if n.kind=mnidString then n.name else []⟩

theorem appendName_back {n : PropertyName} (hvalid : ValidUTF8 n.name) (hzero : 0∉n.name)
    {b b' : Bytes} (he : appendName b n=.ok b') :
    ∃ w,b'=b++w ∧ Returns w decodeName (wireName n) := by
  have hguid : Returns n.guid.flat (Reader.bytes 16) n.guid.flat := by
    have h := Returns.bytes n.guid.flat
    rwa [GUID.flat_length] at h
  have hkind : Returns [n.kind] Reader.byte n.kind := fun rest => rfl
  -- What is left is the part behind the kind byte.
  have hname : ∀ w,Returns w (decodeNameBody n.guid n.kind) (wireName n) →
      Returns (n.guid.flat++([n.kind]++w)) decodeName (wireName n) := by
    intro w hw
    apply hguid.bind (q := fun f c => (Reader.byte c).bind fun y =>
      decodeNameBody (.ofFlat f) y.1 y.2)
    rwa [GUID.ofFlat_flat]
  unfold appendName at he
  split_ifs at he with hid hstring hnone
  · obtain rfl := Except.ok.inj he
    refine ⟨n.guid.flat++([n.kind]++leBytes 4 n.lid.toNat),by simp,hname _ ?_⟩
    intro rest
    have hread := (Returns.u32 n.lid).map (fun l => (⟨n.kind,n.guid,l,[]⟩ : PropertyName)) rest
    have hwire : wireName n=⟨n.kind,n.guid,n.lid,[]⟩ := by simp [wireName,hid,mnidID,mnidString]
    rw [hwire,decodeNameBody,if_pos hid,hread]
  · obtain rfl := Except.ok.inj he
    refine ⟨n.guid.flat++([n.kind]++encodeUTF16 n.name),by simp,hname _ ?_⟩
    intro rest
    have hread := (readNakedUTF16_encodeUTF16 hvalid hzero).map
      (fun s => (⟨n.kind,n.guid,0,s⟩ : PropertyName)) rest
    have hwire : wireName n=⟨n.kind,n.guid,0,n.name⟩ := by rw [wireName,if_neg hid,if_pos hstring]
    rw [hwire,decodeNameBody,if_neg hid,if_pos hstring,hread]
  · obtain rfl := Except.ok.inj he
    refine ⟨n.guid.flat++([n.kind]++[]),by simp,hname _ ?_⟩
    intro rest
    have hwire : wireName n=⟨n.kind,n.guid,0,[]⟩ := by simp [wireName,hid,hstring]
    rw [hwire,decodeNameBody,if_neg hid,if_neg hstring,if_pos hnone,List.nil_append]

theorem tag_toNat (typ : PropType) : (PropTag.mk id typ).toNat=id.toNat*65536+typ.toNat := by
  have hid := id.toNat_lt
  have hor := Nat.shiftLeft_add_eq_or_of_lt typ.toNat_lt id.toNat
  have hsmall : id.toNat <<< 16%2^32=id.toNat <<< 16 := by omega
  have hmk : (PropTag.mk id typ).toNat=id.toNat <<< 16%2^32 ||| typ.toNat := by simp [PropTag.mk]
  rw [hmk,hsmall,← hor,Nat.shiftLeft_eq]

theorem tag_id (typ : PropType) : PropTag.id (PropTag.mk id typ)=id := by
  apply UInt16.toNat_inj.mp
  have hid := id.toNat_lt
  have htyp := typ.toNat_lt
  have htag := tag_toNat id typ
  simp only [PropTag.id]
  simp
  omega

theorem tag_type (typ : PropType) : PropTag.type (PropTag.mk id typ)=typ := by
  apply UInt16.toNat_inj.mp
  have htyp := typ.toNat_lt
  have htag := tag_toNat id typ
  simp only [PropTag.type,UInt32.toNat_toUInt16]
  omega

theorem tag_mk (tag : PropTag) : PropTag.mk (PropTag.id tag) (PropTag.type tag)=tag := by
  apply UInt32.toNat_inj.mp
  have hlt := tag.toNat_lt
  rw [tag_toNat]
  simp only [PropTag.id,PropTag.type]
  simp
  omega

namespace StreamProp

def wireType (p : StreamProp) : PropType := fxWireType (PropTag.type p.tag) (PropTag.id p.tag)

def word (p : StreamProp) : PropTag := PropTag.mk (PropTag.id p.tag) p.wireType

def inlineName (p : StreamProp) : Option PropertyName :=
  if 0x8000≤PropTag.id p.tag then p.name.map wireName else none

variable {p : StreamProp}

theorem word_plain (hm : isMarker p.tag=false) (hg : p.tag≠metaTagIdsetGiven) :
    isMarker p.word=false ∧ p.word≠metaTagIdsetGiven := by
  by_cases hstring : PropTag.type p.tag≠ptString8 ∧ PropTag.type p.tag≠ptUnicode
  · have hword : p.word=p.tag := by rw [word,wireType,fxWireType,if_pos hstring,tag_mk]
    rw [hword]
    exact ⟨hm,hg⟩
  · have htype : PropTag.type p.word=ptString8 ∨ PropTag.type p.word=ptUnicode := by
      rw [word,tag_type,wireType,fxWireType,if_neg hstring]
      split_ifs
      · exact .inl rfl
      · exact .inr rfl
    have hmarkers : (metaTagIdsetGiven::markerSet).all (fun m =>
        PropTag.type m≠ptString8 ∧ PropTag.type m≠ptUnicode)=true := by decide
    have hnot : p.word∉metaTagIdsetGiven::markerSet := by
      intro hmem
      obtain ⟨h8,hu⟩ := of_decide_eq_true (List.all_eq_true.mp hmarkers _ hmem)
      exact htype.elim h8 hu
    rw [List.mem_cons,not_or] at hnot
    refine ⟨?_,hnot.1⟩
    rw [isMarker,List.contains_eq_mem,decide_eq_false hnot.2]

theorem encodeHeader_back (hname : ∀ n,p.name=some n → ValidUTF8 n.name ∧ 0∉n.name)
    (he : encodeHeader p p.wireType=.ok header) :
    ∃ w,header=leBytes 4 p.word.toNat++w ∧
      Returns w (decodeNameOf (PropTag.id p.tag)) p.inlineName := by
  unfold encodeHeader at he
  by_cases hid : 0x8000≤PropTag.id p.tag
  · rw [if_pos hid] at he
    cases hn : p.name with
    | none => simp [hn] at he
    | some n =>
      rw [hn] at he
      obtain ⟨hvalid,hzero⟩ := hname n hn
      obtain ⟨w,hw,hread⟩ := appendName_back hvalid hzero he
      refine ⟨w,hw,?_⟩
      rw [decodeNameOf,inlineName,if_pos hid,if_pos hid,hn]
      exact hread.map some
  · rw [if_neg hid] at he
    obtain rfl := Except.ok.inj he
    refine ⟨[],(List.append_nil _).symm,?_⟩
    rw [decodeNameOf,inlineName,if_neg hid,if_neg hid]
    exact fun rest => rfl

theorem decodeAfterWord_back (hm : isMarker p.word=false) (hg : p.word≠metaTagIdsetGiven)
    (hflag : p.wireType &&& fxCodepageFlag=0) {v w : Bytes}
    (hv : Returns v (decodeNameOf (PropTag.id p.tag)) p.inlineName)
    (hw : Yields w (decodeValue p.wireType) p.value) :
    Yields (v++w) (decodeAfterWord p.word) (.prop ⟨p.word,p.inlineName,p.value⟩) := by
  have hid : PropTag.id p.word=PropTag.id p.tag := tag_id _ _
  have htype : elementType p.word=p.wireType := by
    have hlow : p.word.toUInt16=p.wireType := tag_type _ _
    simp [elementType,hg,hlow,hflag]
  have hbody := hv.seq (q := fun name body => (decodeValue p.wireType body).map fun x =>
    Item.prop ⟨p.word,name,x⟩) (hw.map fun x => Item.prop ⟨p.word,p.inlineName,x⟩)
  intro rest
  have hrest := hbody rest
  simp only [decodeAfterWord,hm,hid,htype]
  exact hrest

end StreamProp

theorem encodeProp_yields {p : StreamProp} {header body : Bytes}
    (he : encodeProp p=.ok (header,body)) (hm : isMarker p.tag=false)
    (hg : p.tag≠metaTagIdsetGiven) (hvalue : Transferable p.value)
    (hname : ∀ n,p.name=some n → ValidUTF8 n.name ∧ 0∉n.name) :
    Yields (header++body) decodeElement (.prop ⟨p.word,p.inlineName,p.value⟩) := by
  obtain ⟨h,hheader,hbody⟩ := bind_eq_ok he
  obtain ⟨v,rfl,hv⟩ := StreamProp.encodeHeader_back hname hheader
  obtain ⟨w,hbytes,hw⟩ := encodeValue_back hvalue hbody
  obtain ⟨hmarker,hgiven⟩ := StreamProp.word_plain hm hg
  have hafter := StreamProp.decodeAfterWord_back hmarker hgiven (encodeValue_flag hbody) hv hw
  rw [hbytes,List.append_assoc]
  exact (Returns.u32 p.word).seq hafter

/-- Every property the encoder takes comes back, whatever follows. -/
theorem decodeElement_encodeProp (p : StreamProp) (header body : Bytes)
    (he : encodeProp p = .ok (header,body)) (hm : isMarker p.tag = false)
    (hg : p.tag ≠ metaTagIdsetGiven) (hvalue : Transferable p.value)
    (hname : ∀ n,p.name = some n → ValidUTF8 n.name ∧ 0 ∉ n.name) (rest : Bytes) :
    decodeElement (header ++ body ++ rest) =
      .done (.prop ⟨PropTag.mk (PropTag.id p.tag)
        (fxWireType (PropTag.type p.tag) (PropTag.id p.tag)),p.inlineName,p.value⟩)
        (header.length+body.length) := by
  rw [← List.length_append]
  exact encodeProp_yields he hm hg hvalue hname rest

theorem decodeElement_encodeProp_named :
    let p : StreamProp := ⟨0x8001001E,some ⟨mnidString,.zero,0,[0x6B]⟩,.string [0x68,0x69]⟩
    ∃ header body,encodeProp p = .ok (header,body) ∧
      decodeElement (header ++ body ++ [0xAA]) =
        .done (.prop ⟨0x8001001F,some ⟨mnidString,.zero,0,[0x6B]⟩,.string [0x68,0x69]⟩)
          (header.length+body.length) := by
  intro p
  have htext : ∀ cs : List Char,ValidUTF8 (utf8Bytes cs) := fun cs => ⟨cs,rfl⟩
  have he : encodeProp p=.ok (leBytes 4 0x8001001F++GUID.zero.flat++[1,0x6B,0,0,0,6,0,0,0],
      [0x68,0,0x69,0,0,0]) := by decide
  have hvalue : Transferable p.value := ⟨htext ['h','i'],by decide,by decide,by decide⟩
  have hname : ∀ n,p.name=some n → ValidUTF8 n.name ∧ 0∉n.name := by
    intro n hn
    cases hn
    exact ⟨htext ['k'],by decide⟩
  have hback := decodeElement_encodeProp p _ _ he (by decide) (by decide) hvalue hname [0xAA]
  have hword : PropTag.mk (PropTag.id p.tag) (fxWireType (PropTag.type p.tag) (PropTag.id p.tag)) =
      0x8001001F := by decide
  have hinline : p.inlineName=p.name := by decide
  rw [hword,hinline] at hback
  exact ⟨_,_,he,hback⟩

/-- A name beside a tag that takes none is left behind. -/
theorem encodeProp_drops_name :
    let name : PropertyName := ⟨mnidID,.zero,7,[0x6B]⟩
    let low : StreamProp := ⟨0x0E070003,some name,.int32 5⟩
    let high : StreamProp := ⟨0x80010003,some name,.int32 5⟩
    (∃ header,encodeProp low = .ok (header,[]) ∧
      decodeElement header = .done (.prop ⟨0x0E070003,none,.int32 5⟩) header.length) ∧
    ∃ header,encodeProp high = .ok (header,[]) ∧
      decodeElement header =
        .done (.prop ⟨0x80010003,some ⟨mnidID,.zero,7,[]⟩,.int32 5⟩) header.length := by
  refine ⟨⟨leBytes 4 0x0E070003++leBytes 4 5,by decide,by decide⟩,
    leBytes 4 0x80010003++GUID.zero.flat++[0]++leBytes 4 7++leBytes 4 5,by decide,
    by decide⟩

end HermEX.Ics
