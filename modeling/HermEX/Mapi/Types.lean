import HermEX.Framework.Bytes

namespace HermEX.Mapi

open Framework

abbrev GoString := Bytes

structure GUID where
  data1 : UInt32
  data2 : UInt16
  data3 : UInt16
  data4 : Vector UInt8 8
deriving DecidableEq

def GUID.flat (g : GUID) : Bytes :=
  leBytes 4 g.data1.toNat++leBytes 2 g.data2.toNat++leBytes 2 g.data3.toNat++g.data4.toList

theorem GUID.flat_length (g : GUID) : g.flat.length=16 := by simp [flat]

def GUID.zero : GUID := ⟨0,0,0,Vector.replicate 8 0⟩

def GUID.ofFlat (f : Bytes) : GUID :=
  ⟨UInt32.ofNat (leNat (f.take 4)),UInt16.ofNat (leNat ((f.drop 4).take 2)),
    UInt16.ofNat (leNat ((f.drop 6).take 2)),Vector.ofFn fun i => f.getD (8+i.val) 0⟩

theorem GUID.ofFlat_flat (g : GUID) : GUID.ofFlat g.flat=g := by
  have h1 : leNat (leBytes 4 g.data1.toNat)=g.data1.toNat :=
    leNat_leBytes 4 _ (by simpa using g.data1.toNat_lt)
  have h2 : leNat (leBytes 2 g.data2.toNat)=g.data2.toNat :=
    leNat_leBytes 2 _ (by simpa using g.data2.toNat_lt)
  have h3 : leNat (leBytes 2 g.data3.toNat)=g.data3.toNat :=
    leNat_leBytes 2 _ (by simpa using g.data3.toNat_lt)
  have htake1 : g.flat.take 4=leBytes 4 g.data1.toNat := by
    exact List.take_left' (leBytes_length 4 _)
  have hdrop1 : g.flat.drop 4=leBytes 2 g.data2.toNat ++
      (leBytes 2 g.data3.toNat++g.data4.toList) := by
    exact List.drop_left' (leBytes_length 4 _)
  have hdrop2 : g.flat.drop 6=leBytes 2 g.data3.toNat++g.data4.toList := by
    have hsix : g.flat.drop 6=(g.flat.drop 4).drop 2 := by rw [List.drop_drop]
    rw [hsix,hdrop1]
    exact List.drop_left' (leBytes_length 2 _)
  have hdrop3 : g.flat.drop 8=g.data4.toList := by
    have height : g.flat.drop 8=(g.flat.drop 6).drop 2 := by rw [List.drop_drop]
    rw [height,hdrop2]
    exact List.drop_left' (leBytes_length 2 _)
  have htake2 : (g.flat.drop 4).take 2=leBytes 2 g.data2.toNat := by
    exact List.take_left' (leBytes_length 2 _)
  have htake3 : (g.flat.drop 6).take 2=leBytes 2 g.data3.toNat := by
    exact List.take_left' (leBytes_length 2 _)
  have hrest : (Vector.ofFn fun i : Fin 8 => g.flat.getD (8+i.val) 0)=g.data4 := by
    apply Vector.ext
    intro i hi
    have hget : g.flat.getD (8+i) 0=(g.flat.drop 8).getD i 0 := by simp
    rw [Vector.getElem_ofFn,hget,hdrop3]
    simp [hi]
  rw [ofFlat,htake1,htake2,htake3,hrest,h1,h2,h3]
  simp

abbrev PropType := UInt16

def ptShort : PropType := 0x0002
def ptLong : PropType := 0x0003
def ptFloat : PropType := 0x0004
def ptDouble : PropType := 0x0005
def ptCurrency : PropType := 0x0006
def ptAppTime : PropType := 0x0007
def ptError : PropType := 0x000A
def ptBoolean : PropType := 0x000B
def ptObject : PropType := 0x000D
def ptI8 : PropType := 0x0014
def ptString8 : PropType := 0x001E
def ptUnicode : PropType := 0x001F
def ptSysTime : PropType := 0x0040
def ptCLSID : PropType := 0x0048
def ptBinary : PropType := 0x0102
def ptMvShort : PropType := 0x1002
def ptMvLong : PropType := 0x1003
def ptMvFloat : PropType := 0x1004
def ptMvDouble : PropType := 0x1005
def ptMvCurrency : PropType := 0x1006
def ptMvAppTime : PropType := 0x1007
def ptMvI8 : PropType := 0x1014
def ptMvString8 : PropType := 0x101E
def ptMvUnicode : PropType := 0x101F
def ptMvSysTime : PropType := 0x1040
def ptMvCLSID : PropType := 0x1048
def ptMvBinary : PropType := 0x1102

def mvFlag : PropType := 0x1000

abbrev PropTag := UInt32

def PropTag.id (t : PropTag) : UInt16 := (t>>>16).toUInt16
def PropTag.type (t : PropTag) : PropType := t.toUInt16

def PropTag.mk (id : UInt16) (typ : PropType) : PropTag := (id.toUInt32<<<16)|||typ.toUInt32

def mnidID : UInt8 := 0
def mnidString : UInt8 := 1
def kindNone : UInt8 := 0xFF

structure PropertyName where
  kind : UInt8
  guid : GUID
  lid : UInt32
  name : GoString
deriving DecidableEq

/-- Under its Go type; floats are their bit patterns. -/
inductive Value where
  | int16 (x : Int16)
  | int32 (x : Int32)
  | uint32 (x : UInt32)
  | float32 (bits : UInt32)
  | float64 (bits : UInt64)
  | bool (x : Bool)
  | int64 (x : Int64)
  | uint64 (x : UInt64)
  | guid (x : GUID)
  | string (x : GoString)
  | bytes (x : Bytes)
  | int16s (xs : List Int16)
  | int32s (xs : List Int32)
  | float32s (bits : List UInt32)
  | float64s (bits : List UInt64)
  | int64s (xs : List Int64)
  | uint64s (xs : List UInt64)
  | guids (xs : List GUID)
  | strings (xs : List GoString)
  | bytess (xs : List Bytes)
deriving DecidableEq

/-- The replica and the counter value, in 48 bits. -/
structure EID where
  replID : UInt16
  gcValue : Nat

def makeEIDEx (replid : UInt16) (value : Nat) : EID := ⟨replid,value⟩

end HermEX.Mapi
