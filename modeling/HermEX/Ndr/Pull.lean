import HermEX.Mapi.Types

namespace HermEX.Ndr

open Framework Mapi

inductive NdrErr where
  | underflow
  | format

structure Pull where
  buf : Bytes
  off : Nat

abbrev PullM := StateT Pull (Except NdrErr)

def runPull {α : Type} (x : PullM α) (buf : Bytes) : Except NdrErr α := (x ⟨buf,0⟩).map Prod.fst

namespace Pull

def need (n : Nat) : PullM Unit := do
  let p ← get
  if p.off+n>p.buf.length then throw .underflow

def align (n : Nat) : PullM Unit :=
  modify fun p => if p.off%n≠0 then {p with off:=p.off+(n-p.off%n)} else p

def raw (n : Nat) : PullM Bytes := do
  need n
  let p ← get
  set {p with off:=p.off+n}
  return (p.buf.drop p.off).take n

def uint16 : PullM UInt16 := do
  align 2
  let b ← raw 2
  return UInt16.ofNat (leNat b)

def uint32 : PullM UInt32 := do
  align 4
  let b ← raw 4
  return UInt32.ofNat (leNat b)

def guid : PullM GUID := do
  let data1 ← uint32
  let data2 ← uint16
  let data3 ← uint16
  let data4 ← raw 8
  return ⟨data1,data2,data3,Vector.ofFn fun i => data4.getD i.val 0⟩

end Pull
end HermEX.Ndr
