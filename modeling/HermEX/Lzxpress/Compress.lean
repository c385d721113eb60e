import HermEX.Framework.Buffer

namespace HermEX.Lzxpress

open Framework

def hashSearch : Nat := 5
def hashMask : UInt16 := 0x0FFF

def window : UInt32 := 8192

abbrev Hash := Vector UInt32 4096

theorem slot_lt (h : UInt16) : (h &&& hashMask).toNat<4096 := by
  have hand : (h &&& hashMask).toNat≤hashMask.toNat := by exact Nat.and_le_right
  exact Nat.lt_succ_of_le hand

variable (hash : Hash) (h : UInt16)

def slot : Fin 4096 := ⟨(h &&& hashMask).toNat,slot_lt h⟩

def Hash.empty : Hash := Vector.replicate 4096 0xFFFFFFFF

def Hash.at : UInt32 := hash.get (slot h)

def Hash.store (offset : UInt32) : Hash := hash.set (slot h).val offset (slot h).isLt

def threeByteHash (b0 b1 b2 : UInt8) : UInt16 :=
  let a := b0.toUInt16
  let bb := b1.toUInt16 ^^^ 0x2E
  let c := b2.toUInt16 ^^^ 0x55
  let ca := c-a
  let d := ((a+bb) <<< 8) ^^^ (ca <<< 5) ^^^ (c+bb) ^^^ (0x0CAB+a)
  d &&& hashMask

def probes : List UInt16 := (List.range' 1 (hashSearch-1)).map fun i => h+UInt16.ofNat i

def worstSlot (offset : UInt32) : UInt16 :=
  ((probes h).foldl (fun w h2 =>
    if w.2<offset-hash.at h2 then (h2,offset-hash.at h2) else w) (h,offset-hash.at h)).1

def storeMatch (offset : UInt32) : Hash :=
  if offset≤hash.at h then hash.store h offset
  else match (probes h).find? fun h2 => decide (offset≤hash.at h2) with
    | some h2 => hash.store h2 offset
    | none => hash.store (worstSlot hash h offset) offset

def matchLength (data : Bytes) (here there : Nat) : Nat → Nat → Option Nat
  | 0,l => some l
  | more+1,l => do
      let a ← data[here+l]?
      let b ← data[there+l]?
      if a=b then matchLength data here there more (l+1) else some l

abbrev Best := Option (Nat×Nat)

def Best.len (best : Best) : Nat := (best.map Prod.snd).getD 0

def hopeless (data : Bytes) (there : Nat) : Best → Option Bool
  | none => some false
  | some (start,len) =>
    if 1000<len then do
      let a ← data[there+len-1]?
      let b ← data[start+len-1]?
      some (a != b)
    else some false

def lookupLoop (hash : Hash) (data : Bytes) (offset : UInt32) (maxLen : Nat) :
    List UInt16 → Best → Option Best
  | [],best => some best
  | h::hs,best =>
    let o := hash.at h
    if offset≤o then some best
    else if window<offset-o then lookupLoop hash data offset maxLen hs best
    else do
      let skip ← hopeless data o.toNat best
      if skip then lookupLoop hash data offset maxLen hs best
      else do
        let l ← matchLength data offset.toNat o.toNat maxLen 0
        lookupLoop hash data offset maxLen hs (if 2<l ∧ best.len<l then some (o.toNat,l) else best)

def lookupMatch (data : Bytes) (offset : UInt32) (maxLen : Nat) :
    Option Best :=
  lookupLoop hash data offset maxLen (h::probes h) none

def findMatch (data : Bytes) (uPos : Nat) : Option (Best×Hash) :=
  let maxLen := min (data.length-uPos) (0xFFFF+3)
  if maxLen<3 then some (none,hash)
  else do
    let b0 ← data[uPos]?
    let b1 ← data[uPos+1]?
    let b2 ← data[uPos+2]?
    let h := threeByteHash b0 b1 b2
    let offset := UInt32.ofNat uPos
    let best ← lookupMatch hash h data offset maxLen
    some (best,storeMatch hash h offset)

structure LzEncoder where
  out : Bytes
  pos : Nat
  indic : UInt32
  indBit : Nat
  indPos : Nat
  nibbleIdx : Nat

namespace LzEncoder

variable (e : LzEncoder)

def append (w : Bytes) : Option LzEncoder :=
  (put e.out e.pos w).map fun out => {e with out,pos:=e.pos+w.length}

def reserveIndicator : Option LzEncoder := e.append (leBytes 4 0)

def pushBit (bit : UInt32) : Option LzEncoder :=
  let indic := e.indic <<< 1 ||| bit
  if e.indBit+1=32 then
    (put e.out e.indPos (leBytes 4 indic.toNat)).map fun out =>
      {e with out,indic,indBit:=0,indPos:=e.pos,pos:=e.pos+4}
  else some {e with indic,indBit:=e.indBit+1}

def literal (b : UInt8) : Option LzEncoder := do
  let e ← e.append [b]
  e.pushBit 0

def writeNibble (v : UInt8) : Option LzEncoder :=
  if e.nibbleIdx=0 then (e.append [v]).map fun e' => {e' with nibbleIdx:=e.pos}
  else do
    let b ← e.out[e.nibbleIdx]?
    (put e.out e.nibbleIdx [b ||| v <<< 4]).map fun out => {e with out,nibbleIdx:=0}

def writeLongLength (v : Nat) : Option LzEncoder :=
  if v<2^16 then e.append (leBytes 2 v)
  else do
    let e ← e.append (leBytes 2 0)
    e.append (leBytes 4 v)

def writeLengthEscape (matchLen : Nat) : Option LzEncoder := do
  let e ← e.writeNibble (UInt8.ofNat (min matchLen 15))
  if matchLen<15 then some e
  else do
    let e ← e.append [UInt8.ofNat (min (matchLen-15) 255)]
    if matchLen-15<255 then some e
    else e.writeLongLength (matchLen-15+7+15)

def writeReference (matchLen offset : Nat) : Option LzEncoder := do
  let e ← e.append (leBytes 2 (offset <<< 3 ||| min matchLen 7))
  if 7 ≤ matchLen then e.writeLengthEscape (matchLen-7) else some e

def matchRef (matchLen offset : Nat) : Option LzEncoder := do
  let e ← e.writeReference matchLen offset
  e.pushBit 1

def flush : Option Bytes := do
  let indic := if e.indBit≠0 then e.indic <<< UInt32.ofNat (32-e.indBit) else e.indic
  let indic := indic ||| 0xFFFFFFFF >>> UInt32.ofNat e.indBit
  let out ← put e.out e.indPos (leBytes 4 indic.toNat)
  if e.pos≤out.length then some (out.take e.pos) else none

end LzEncoder

def compressLoop (data : Bytes) : Nat → Hash → Nat → LzEncoder → Option Bytes
  | 0,_,_,_ => none
  | fuel+1,hash,uPos,e =>
    if uPos<data.length then do
      let found ← findMatch hash data uPos
      match found.1 with
      | none => do
          let b ← data[uPos]?
          let e ← e.literal b
          compressLoop data fuel found.2 (uPos+1) e
      | some (there,mlen) => do
          let e ← e.matchRef (mlen-3) (uPos-there-1)
          compressLoop data fuel found.2 (uPos+mlen) e
    else e.flush

def compress (data : Bytes) : Option Bytes :=
  if data.length=0 then some []
  else do
    let e : LzEncoder := ⟨List.replicate (data.length*2+64) 0,0,0,0,0,0⟩
    let e ← e.reserveIndicator
    compressLoop data (data.length+1) .empty 0 e

end HermEX.Lzxpress
