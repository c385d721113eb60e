import Mathlib.Data.Nat.ModEq
import HermEX.Framework.Framing

namespace HermEX.Framework

abbrev Bytes := List UInt8

def leBytes : Nat → Nat → Bytes
  | 0,_ => []
  | k+1,n => UInt8.ofNat n::leBytes k (n/256)

def leNat : Bytes → Nat
  | [] => 0
  | b::bs => b.toNat+256*leNat bs

@[simp] theorem leBytes_length (k n : Nat) : (leBytes k n).length=k := by
  induction k generalizing n with
  | zero => rfl
  | succ k ih => simp [leBytes,ih]

theorem leNat_leBytes (k n : Nat) (h : n<256^k) : leNat (leBytes k n)=n := by
  induction k generalizing n with
  | zero => simp only [Nat.pow_zero] at h; simp only [leBytes,leNat]; omega
  | succ k ih =>
    have hd : n/256<256^k := by
      rw [Nat.div_lt_iff_lt_mul (by omega)]
      rwa [Nat.pow_succ] at h
    have hb : (UInt8.ofNat n).toNat=n%256 := by simp
    rw [leBytes,leNat,ih _ hd,hb]
    omega

abbrev Reader (α : Type) := Bytes → Option (α×Bytes)

namespace Reader

def map {α γ : Type} (f : α → γ) (r : Reader α) : Reader γ :=
  fun b => (r b).map fun x => (f x.1,x.2)

def bytes (n : Nat) : Reader Bytes := fun b => if n≤b.length then some (b.take n,b.drop n) else none

def byte : Reader UInt8
  | [] => none
  | x::t => some (x,t)

def u16 : Reader UInt16 := (bytes 2).map fun x => UInt16.ofNat (leNat x)

def u32 : Reader UInt32 := (bytes 4).map fun x => UInt32.ofNat (leNat x)

def u64 : Reader UInt64 := (bytes 8).map fun x => UInt64.ofNat (leNat x)

def lenPrefixed : Reader Bytes := fun b => (u32 b).bind fun x => bytes x.1.toNat x.2

def replicate {α : Type} (r : Reader α) : Nat → Reader (List α)
  | 0 => fun b => some ([],b)
  | n+1 => fun b => (r b).bind fun x => (replicate r n x.2).map fun y => (x.1::y.1,y.2)

end Reader

def countedFrame : Frame UInt8 := .head 4 fun h => .fixed (UInt32.ofNat (leNat h)).toNat

namespace Reads

variable {α γ : Type}

theorem map_reader {F : Frame UInt8} {r : Reader α} (hr : Reads F r) (f : α → γ) :
    Reads F (r.map f) := hr.map f

theorem bytes (n : Nat) : Reads (Frame.fixed n) (Reader.bytes n) :=
  Reads.head (r := fun x b => some (x,b)) fun x _ => Reads.empty x

theorem u16 : Reads (Frame.fixed 2) Reader.u16 := (Reads.bytes 2).map_reader _

theorem u32 : Reads (Frame.fixed 4) Reader.u32 := (Reads.bytes 4).map_reader _

theorem u64 : Reads (Frame.fixed 8) Reader.u64 := (Reads.bytes 8).map_reader _

theorem lenPrefixed : Reads countedFrame Reader.lenPrefixed := by
  have h := Reads.head (k := 4) (G := fun h => Frame.fixed (UInt32.ofNat (leNat h)).toNat)
    (r := fun h => Reader.bytes (UInt32.ofNat (leNat h)).toNat) fun h _ => Reads.bytes _
  have he : Reader.lenPrefixed=fun b => if 4≤b.length then
      Reader.bytes (UInt32.ofNat (leNat (b.take 4))).toNat (b.drop 4) else none := by
    funext b
    by_cases hb : 4≤b.length <;> simp [Reader.lenPrefixed,Reader.u32,Reader.map,Reader.bytes,hb]
  rw [he]
  exact h

theorem replicate {F : Frame UInt8} {r : Reader α} (hr : Reads F r) (n : Nat) :
    Reads (F.times n) (r.replicate n) := by
  induction n with
  | zero => exact Reads.empty []
  | succ n ih => exact hr.seq fun a => ih.map fun as => a::as

end Reads

theorem Decodes.u32 {ε α : Type} {G : UInt32 → Frame UInt8}
    {d : UInt32 → Bytes → Outcome ε α} (h : ∀ n,Decodes (G n) (d n)) :
    Decodes (.head 4 fun x => G (UInt32.ofNat (leNat x))) (fun b => .seq b (Reader.u32 b) d) :=
  Decodes.head (f := fun x => UInt32.ofNat (leNat x)) (by
    intro b
    by_cases hb : 4≤b.length <;> simp [Reader.u32,Reader.map,Reader.bytes,hb]) fun x _ => h _

end HermEX.Framework
