import HermEX.Framework.Bytes

namespace HermEX.Lzxpress

open Framework

inductive LzError where
  | corrupt
deriving DecidableEq

structure LzDecoder where
  input : Bytes
  inIdx : Nat
  indicator : UInt32
  indBit : Nat
  nibbleIdx : Nat

namespace LzDecoder

variable (d : LzDecoder)

def has (n : Nat) : Bool := d.inIdx+n≤d.input.length

def take (d : LzDecoder) (n : Nat) : Except LzError (Nat×LzDecoder) :=
  if d.has n then .ok (leNat ((d.input.drop d.inIdx).take n),{d with inIdx:=d.inIdx+n})
  else .error .corrupt

def nextBit : Except LzError (Option UInt32×LzDecoder) := do
  if d.indBit=0 then
    let (word,d) ← d.take 4
    let d := {d with indicator:=UInt32.ofNat word}
    if d.inIdx=d.input.length then .ok (none,d)
    else .ok (some ((d.indicator >>> 31) &&& 1),{d with indBit:=31})
  else
    .ok (some ((d.indicator >>> UInt32.ofNat (d.indBit-1)) &&& 1),{d with indBit:=d.indBit-1})

def literal (out : Bytes) (outSize : Nat) : Except LzError (Bytes×LzDecoder) :=
  if d.has 1=false ∨ outSize≤out.length then .error .corrupt
  else do
    let (b,d) ← d.take 1
    .ok (out++[UInt8.ofNat b],d)

def lengthNibble : Except LzError (UInt32×LzDecoder) :=
  if d.nibbleIdx≠0 then
    .ok (((d.input.getD d.nibbleIdx 0) >>> 4).toUInt32,{d with nibbleIdx:=0})
  else do
    let (b,d') ← d.take 1
    .ok ((UInt8.ofNat b &&& 0x0F).toUInt32,{d' with nibbleIdx:=d.inIdx})

def wideLength (n : Nat) : Except LzError (Nat×LzDecoder) :=
  if n=0 then d.take 4 else .ok (n,d)

def longLength : Except LzError (UInt32×LzDecoder) := do
  let (n,d) ← d.take 2
  let (n,d) ← d.wideLength n
  if n<15+7 then .error .corrupt else .ok (UInt32.ofNat (n-(15+7)),d)

def extendedLength : Except LzError (UInt32×LzDecoder) := do
  let (length,d) ← d.lengthNibble
  if length≠15 then .ok (length,d)
  else
    let (b,d) ← d.take 1
    if b=255 then
      let (length,d) ← d.longLength
      .ok (length+15,d)
    else .ok (UInt32.ofNat b+15,d)

def reference : Except LzError ((Nat×UInt32)×LzDecoder) := do
  let (word,d) ← d.take 2
  let offset := word >>> 3+1
  let length := UInt32.ofNat (word &&& 7)
  if length=7 then
    let (extended,d) ← d.extendedLength
    .ok ((offset,extended+7+3),d)
  else .ok ((offset,length+3),d)

def copyMatch (outSize offset : Nat) : Nat → Bytes → Except LzError Bytes
  | 0,out => .ok out
  | n+1,out =>
    if out.length<offset ∨ outSize≤out.length then .error .corrupt
    else copyMatch outSize offset n (out++[out.getD (out.length-offset) 0])

def backReference (out : Bytes) (outSize : Nat) :
    Except LzError (Bytes×LzDecoder) := do
  let (ref,d) ← d.reference
  let out ← copyMatch outSize ref.1 ref.2.toNat out
  .ok (out,d)

def token (bit : UInt32) (out : Bytes) (outSize : Nat) :
    Except LzError (Bytes×LzDecoder) :=
  if bit=0 then d.literal out outSize else d.backReference out outSize

end LzDecoder

def decompressLoop (outSize : Nat) : Nat → LzDecoder → Bytes → Except LzError Bytes
  | 0,_,_ => .error .corrupt
  | fuel+1,d,out => do
      let (bit,d) ← d.nextBit
      match bit with
      | none => .ok out
      | some bit =>
        let (out,d) ← d.token bit out outSize
        if outSize≤out.length ∨ d.input.length≤d.inIdx then .ok out
        else decompressLoop outSize fuel d out

def decompress (input : Bytes) (outSize : Nat) : Except LzError Bytes :=
  if input.length=0 then .ok []
  else decompressLoop outSize input.length ⟨input,0,0,0,0⟩ []

end HermEX.Lzxpress
