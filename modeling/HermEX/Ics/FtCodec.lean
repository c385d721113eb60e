import Mathlib.Data.List.DropRight
import HermEX.Framework.Unicode
import HermEX.Mapi.Types

namespace HermEX.Ics

open Framework Mapi

structure StreamProp where
  tag : PropTag
  name : Option PropertyName
  value : Value
deriving DecidableEq

inductive Item where
  | marker (m : UInt32)
  | prop (p : StreamProp)
deriving DecidableEq

inductive FxError where
  | unsupportedFXType (t : PropType)
  | missingName (tag : PropTag)
  | invalidKind (k : UInt8)
  | wrongGoType
  | implausibleCount (n : UInt32)
  | countExceeds (n : UInt32) (left : Nat)
deriving DecidableEq

def markerSet : List UInt32 :=
  [0x40090003,0x400A0003,0x400B0003,0x400C0003,0x400D0003,0x40100003,0x40010003,0x40020003,
    0x40030003,0x40040003,0x40000003,0x400E0003,0x40120003,0x407D0003,0x40130003,0x40140003,
    0x402F0003,0x403A0003,0x403B0003,0x4074000B,0x4075000B,0x40150003,0x407B0102,0x40180003]

def isMarker (w : UInt32) : Bool := markerSet.contains w

def metaTagIdsetGiven : UInt32 := 0x40170003

def cpUTF16 : UInt16 := 1200
def fxCodepageFlag : UInt16 := 0x8000
def propIDMessageCls : UInt16 := 0x001A
def maxMVCount : Nat := 2^20

def isMultivalue (t : PropType) : Bool := t&&&mvFlag==mvFlag

def encodeUTF16 (s : GoString) : Bytes :=
  (utf16Units (utf8Runes s)).flatMap (fun u => leBytes 2 u.toNat)++[0,0]

abbrev Encoded := Except FxError (Bytes×Bytes)

def appendTearable (header body : Bytes) : Bytes×Bytes := (header++leBytes 4 body.length,body)

def fxTyped {T : Type} (asVal : Value → Option T) (write : Bytes → T → Bytes×Bytes)
    (header : Bytes) (v : Value) : Encoded :=
  match asVal v with
  | some x => .ok (write header x)
  | none => .error .wrongGoType

def fxFixed {T : Type} (asVal : Value → Option T) (k : Nat) (bits : T → Nat) :
    Bytes → Value → Encoded :=
  fxTyped asVal fun h x => (h++leBytes k (bits x),[])

def fxDouble : Bytes → Value → Encoded :=
  fxFixed (fun | .float64 x => some x | _ => none) 8 UInt64.toNat

def fxInt64 : Bytes → Value → Encoded :=
  fxFixed (fun | .int64 x => some x | _ => none) 8 fun x => x.toUInt64.toNat

def fxBinary : Bytes → Value → Encoded :=
  fxTyped (fun | .bytes x => some x | _ => none) appendTearable

def asString : Value → Option GoString
  | .string s => some s
  | _ => none

def fxValueWriters : List (PropType×(Bytes → Value → Encoded)) :=
  [(ptShort,fxFixed (fun | .int16 x => some x | _ => none) 2 fun x => x.toUInt16.toNat),
    (ptLong,fxFixed (fun | .int32 x => some x | _ => none) 4 fun x => x.toUInt32.toNat),
    (ptError,fxFixed (fun | .uint32 x => some x | _ => none) 4 UInt32.toNat),
    (ptFloat,fxFixed (fun | .float32 x => some x | _ => none) 4 UInt32.toNat),
    (ptDouble,fxDouble),
    (ptAppTime,fxDouble),
    (ptBoolean,fxFixed (fun | .bool x => some x | _ => none) 2 Bool.toNat),
    (ptCurrency,fxInt64),
    (ptI8,fxInt64),
    (ptSysTime,fxFixed (fun | .uint64 x => some x | _ => none) 8 UInt64.toNat),
    (ptCLSID,fxTyped (fun | .guid x => some x | _ => none) fun h x => (h++x.flat,[])),
    (ptUnicode,fxTyped asString fun h s => appendTearable h (encodeUTF16 s)),
    (ptString8,fxTyped asString fun h s => appendTearable h (s++[0])),
    (ptBinary,fxBinary),
    (ptObject,fxBinary)]

def appendLenPrefixed (body : Bytes) : Bytes := leBytes 4 body.length++body

def appendMVElems {T : Type} (write : T → Bytes) (xs : List T) : Bytes :=
  leBytes 4 xs.length++xs.flatMap write

def mvTyped {T : Type} (asVals : Value → Option (List T)) (write : T → Bytes) (b : Bytes)
    (v : Value) : Except FxError Bytes :=
  match asVals v with
  | some xs => .ok (b++appendMVElems write xs)
  | none => .error .wrongGoType

def mvInt64 : Bytes → Value → Except FxError Bytes :=
  mvTyped (fun | .int64s xs => some xs | _ => none) fun x => leBytes 8 x.toUInt64.toNat

def mvDouble : Bytes → Value → Except FxError Bytes :=
  mvTyped (fun | .float64s xs => some xs | _ => none) fun x => leBytes 8 x.toNat

def asStrings : Value → Option (List GoString)
  | .strings xs => some xs
  | _ => none

def mvWriters : List (PropType×(Bytes → Value → Except FxError Bytes)) :=
  [(ptMvShort,mvTyped (fun | .int16s xs => some xs | _ => none) fun x =>
      leBytes 2 x.toUInt16.toNat),
    (ptMvLong,mvTyped (fun | .int32s xs => some xs | _ => none) fun x =>
      leBytes 4 x.toUInt32.toNat),
    (ptMvCurrency,mvInt64),
    (ptMvI8,mvInt64),
    (ptMvSysTime,mvTyped (fun | .uint64s xs => some xs | _ => none) fun x => leBytes 8 x.toNat),
    (ptMvFloat,mvTyped (fun | .float32s xs => some xs | _ => none) fun x => leBytes 4 x.toNat),
    (ptMvDouble,mvDouble),
    (ptMvAppTime,mvDouble),
    (ptMvCLSID,mvTyped (fun | .guids xs => some xs | _ => none) GUID.flat),
    (ptMvString8,mvTyped asStrings fun s => appendLenPrefixed (s++[0])),
    (ptMvUnicode,mvTyped asStrings fun s => appendLenPrefixed (encodeUTF16 s)),
    (ptMvBinary,mvTyped (fun | .bytess xs => some xs | _ => none) appendLenPrefixed)]

def appendMV (b : Bytes) (typ : PropType) (v : Value) : Except FxError Bytes :=
  match mvWriters.lookup typ with
  | some write => write b v
  | none => .error (.unsupportedFXType typ)

def appendName (b : Bytes) (n : PropertyName) : Except FxError Bytes :=
  let b := b++n.guid.flat++[n.kind]
  if n.kind=mnidID then .ok (b++leBytes 4 n.lid.toNat)
  else if n.kind=mnidString then .ok (b++encodeUTF16 n.name)
  else if n.kind=kindNone then .ok b
  else .error (.invalidKind n.kind)

def fxWireType (typ : PropType) (propid : UInt16) : PropType :=
  if typ≠ptString8 ∧ typ≠ptUnicode then typ
  else if propid=propIDMessageCls then ptString8
  else ptUnicode

def encodeHeader (p : StreamProp) (wireType : PropType) : Except FxError Bytes :=
  let header := leBytes 4 (PropTag.mk (PropTag.id p.tag) wireType).toNat
  if 0x8000≤PropTag.id p.tag then
    match p.name with
    | none => .error (.missingName p.tag)
    | some n => appendName header n
  else .ok header

def encodeValue (wireType : PropType) (header : Bytes) (v : Value) : Encoded :=
  match fxValueWriters.lookup wireType with
  | some write => write header v
  | none =>
    if isMultivalue wireType then (appendMV header wireType v).map fun h => (h,[])
    else .error (.unsupportedFXType wireType)

def encodeProp (p : StreamProp) : Encoded :=
  let wireType := fxWireType (PropTag.type p.tag) (PropTag.id p.tag)
  (encodeHeader p wireType).bind fun header => encodeValue wireType header p.value

def units : Bytes → List UInt16
  | a::b::t => UInt16.ofNat (leNat [a,b])::units t
  | _ => []

def decodeUTF16 (b : Bytes) : GoString := utf8Bytes (utf16Runes ((units b).rdropWhile (· == 0)))

def trimNUL (b : Bytes) : Bytes :=
  if b.getLast?=some 0 then b.dropLast else b

def fxReadDouble : Reader Value := Reader.u64.map .float64

def fxReadInt64 : Reader Value := Reader.u64.map fun x => .int64 x.toInt64

def fxReadBinary : Reader Value := Reader.lenPrefixed.map .bytes

def fxValueReaders : List (PropType×Reader Value) :=
  [(ptShort,Reader.u16.map fun x => .int16 x.toInt16),
    (ptLong,Reader.u32.map fun x => .int32 x.toInt32),
    (ptError,Reader.u32.map .uint32),
    (ptFloat,Reader.u32.map .float32),
    (ptDouble,fxReadDouble),
    (ptAppTime,fxReadDouble),
    (ptBoolean,Reader.u16.map fun x => .bool (x != 0)),
    (ptCurrency,fxReadInt64),
    (ptI8,fxReadInt64),
    (ptSysTime,Reader.u64.map .uint64),
    (ptCLSID,(Reader.bytes 16).map fun x => .guid (.ofFlat x)),
    (ptUnicode,Reader.lenPrefixed.map fun x => .string (decodeUTF16 x)),
    (ptString8,Reader.lenPrefixed.map fun x => .string (trimNUL x)),
    (ptBinary,fxReadBinary),
    (ptObject,fxReadBinary)]

abbrev MvReader := UInt32 → Bytes → Outcome FxError Value

def decodeMVElems {T : Type} (read : Reader T) (wrap : List T → Value) : MvReader :=
  fun count b =>
    if b.length< count.toNat*2 then .fail (.countExceeds count b.length)
    else .ofRead b ((read.replicate count.toNat).map wrap b)

def mvReadInt64 : MvReader := decodeMVElems (Reader.u64.map UInt64.toInt64) .int64s

def mvReadDouble : MvReader := decodeMVElems Reader.u64 .float64s

def mvReaders : List (PropType×MvReader) :=
  [(ptMvShort,decodeMVElems (Reader.u16.map UInt16.toInt16) .int16s),
    (ptMvLong,decodeMVElems (Reader.u32.map UInt32.toInt32) .int32s),
    (ptMvCurrency,mvReadInt64),
    (ptMvI8,mvReadInt64),
    (ptMvSysTime,decodeMVElems Reader.u64 .uint64s),
    (ptMvFloat,decodeMVElems Reader.u32 .float32s),
    (ptMvDouble,mvReadDouble),
    (ptMvAppTime,mvReadDouble),
    (ptMvCLSID,decodeMVElems ((Reader.bytes 16).map GUID.ofFlat) .guids),
    (ptMvString8,decodeMVElems (Reader.lenPrefixed.map trimNUL) .strings),
    (ptMvUnicode,decodeMVElems (Reader.lenPrefixed.map decodeUTF16) .strings),
    (ptMvBinary,decodeMVElems Reader.lenPrefixed .bytess)]

def decodeMVBody (typ : PropType) (count : UInt32) (b : Bytes) : Outcome FxError Value :=
  if maxMVCount< count.toNat then .fail (.implausibleCount count)
  else match mvReaders.lookup typ with
    | none => .fail (.unsupportedFXType typ)
    | some read => read count b

def decodeMV (typ : PropType) (b : Bytes) : Outcome FxError Value :=
  .seq b (Reader.u32 b) (decodeMVBody typ)

def decodeValue (typ : PropType) (b : Bytes) : Outcome FxError Value :=
  match fxValueReaders.lookup typ with
  | some read => .ofRead b (read b)
  | none => if isMultivalue typ then decodeMV typ b else .fail (.unsupportedFXType typ)

def nakedUnits : Reader Bytes
  | a::b::t => if a=0 ∧ b=0 then some ([a,b],t)
      else (nakedUnits t).map fun x => (a::b::x.1,x.2)
  | _ => none

def readNakedUTF16 : Reader GoString := Reader.map decodeUTF16 nakedUnits

def decodeNameBody (guid : GUID) (kind : UInt8) : Reader PropertyName := fun b =>
  if kind=mnidID then (Reader.u32.map fun l => ⟨kind,guid,l,[]⟩) b
  else if kind=mnidString then (readNakedUTF16.map fun s => ⟨kind,guid,0,s⟩) b
  else if kind=kindNone then some (⟨kind,guid,0,[]⟩,b)
  else none

def decodeName : Reader PropertyName := fun b =>
  (Reader.bytes 16 b).bind fun x => (Reader.byte x.2).bind fun y =>
    decodeNameBody (.ofFlat x.1) y.1 y.2

def decodeNameOf (propid : UInt16) : Reader (Option PropertyName) :=
  if 0x8000≤propid then Reader.map some decodeName else fun b => some (none,b)

def elementType (word : UInt32) : PropType :=
  let t := if word=metaTagIdsetGiven then ptBinary else word.toUInt16
  if t&&&fxCodepageFlag≠0 then
    if t&&&~~~fxCodepageFlag=cpUTF16 then ptUnicode else ptString8
  else t

def decodeAfterWord (word : UInt32) (b : Bytes) : Outcome FxError Item :=
  if isMarker word then .done (.marker word) 0
  else
    let propid := PropTag.id word
    let typ := elementType word
    .seq b (decodeNameOf propid b) fun name body =>
      (decodeValue typ body).map fun v => .prop ⟨PropTag.mk propid typ,name,v⟩

def decodeElement (b : Bytes) : Outcome FxError Item := .seq b (Reader.u32 b) decodeAfterWord

end HermEX.Ics
