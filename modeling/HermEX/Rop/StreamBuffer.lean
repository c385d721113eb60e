import HermEX.Framework.Bytes
import HermEX.Framework.Runs

namespace HermEX.Rop

open Framework

def maxStreamSize : Nat := 1 <<< 30

/-- `pos` is a Go int. -/
structure StreamState where
  data : Bytes
  pos : Int
  writable : Bool
  dirty : Bool

inductive StreamRequest where
  | readStream (byteCount : UInt16) (maxByteCount : UInt32)
  | writeStream (data : Bytes) (short : data.length≤0xFFFF)
  | seekStream (origin : UInt8) (offRaw : UInt64)
  | setStreamSize (size : UInt64)

inductive StreamReply where
  | failed (code : UInt32)
  | chunk (data : Bytes)
  | written (size : UInt16)
  | position (newpos : UInt64)
  | success

def slice (b : Bytes) (i j : Int) : Option Bytes :=
  if 0≤ i ∧ i≤j ∧ j≤b.length then some ((b.drop i.toNat).take (j-i).toNat) else none

def grow (b : Bytes) (n : Int) : Bytes := b++List.replicate (n.toNat-b.length) 0

namespace StreamState

def ecAccessDenied : UInt32 := 0x80070005

def ecInvalidParam : UInt32 := 0x80070057

variable (st : StreamState)

def ropReadStream (byteCount : UInt16) (maxByteCount : UInt32) :
    Option (StreamReply×StreamState) := do
  let want := if byteCount=0xBABE then maxByteCount.toNat else byteCount.toNat
  let n := min (min (want : Int) (st.data.length-st.pos)) 0xFFFF
  let chunk ← slice st.data st.pos (st.pos+n)
  some (.chunk chunk,{st with pos:=st.pos+n})

def ropWriteStream (data : Bytes) : Option (StreamReply×StreamState) :=
  if st.writable=false then some (.failed ecAccessDenied,st)
  else do
    let end_ := st.pos+data.length
    let buf := if end_>st.data.length then grow st.data end_ else st.data
    let tail ← slice buf st.pos buf.length
    some (.written data.length.toUInt16,{st with
      data:=buf.take st.pos.toNat++(data.take tail.length++tail.drop data.length)
      pos:=end_
      dirty:=true})

def seekBase (origin : UInt8) : Option Int :=
  if origin=0 then some 0
  else if origin=1 then some st.pos
  else if origin=2 then some st.data.length
  else none

def seekTo (newpos : Int) : StreamState :=
  if newpos>st.data.length then
    if st.writable then {st with data:=grow st.data newpos,pos:=newpos}
    else {st with pos:=st.data.length}
  else {st with pos:=newpos}

def ropSeekStream (origin : UInt8) (offRaw : UInt64) : StreamReply×StreamState :=
  match st.seekBase origin with
  | none => (.failed ecInvalidParam,st)
  | some base =>
    -- the sum of two int64 wraps
    let newpos := (base+offRaw.toInt64.toInt).bmod (2^64)
    if newpos<0 ∨ newpos>maxStreamSize then (.failed ecInvalidParam,st)
    else (.position (st.seekTo newpos).pos.toNat.toUInt64,st.seekTo newpos)

def ropSetStreamSize (size : UInt64) : Option (StreamReply×StreamState) :=
  if st.writable=false then some (.failed ecAccessDenied,st)
  else if size.toNat>maxStreamSize then some (.failed ecInvalidParam,st)
  else do
    let n : Int := size.toNat
    let data ← (if n>st.data.length then some (grow st.data n) else slice st.data 0 n)
    some (.success,{st with data:=data,pos:=min st.pos n,dirty:=true})

def handle : StreamRequest → Option (StreamReply×StreamState)
  | .readStream byteCount maxByteCount => st.ropReadStream byteCount maxByteCount
  | .writeStream data _ => st.ropWriteStream data
  | .seekStream origin offRaw => some (st.ropSeekStream origin offRaw)
  | .setStreamSize size => st.ropSetStreamSize size

def step (s : Option StreamState) (r : StreamRequest) : Option StreamState :=
  s.bind fun st => (st.handle r).map Prod.snd

def opened (data : {b : Bytes // b.length≤ maxStreamSize}) (writable : Bool) : StreamState :=
  ⟨data,0,writable,false⟩

def Bounded (s : Option StreamState) : Prop :=
  ∃ st,s=some st ∧ 0≤ st.pos ∧ st.pos≤ st.data.length ∧ st.data.length≤ maxStreamSize

def reach : StreamRequest → Int
  | .writeStream data _ => if st.writable then st.pos+data.length else 0
  | _ => 0

def After (reach : Int) (st' : StreamState) : Prop :=
  0≤ st'.pos ∧ st'.pos≤ st'.data.length ∧
    (st.data.length≤ maxStreamSize → (st'.data.length≤ maxStreamSize ↔ reach≤ maxStreamSize))

variable {st} {b : Bytes} {i j n : Int}

theorem slice_eq_some (hi : 0≤ i) (hij : i≤j) (hj : j≤b.length) :
    ∃ c,slice b i j=some c ∧ (c.length : Int)=j-i := by
  refine ⟨_,if_pos ⟨hi,hij,hj⟩,?_⟩
  simp only [List.length_take,List.length_drop]
  omega

theorem length_grow (hn : b.length≤n) : ((grow b n).length : Int)=n := by
  simp only [grow,List.length_append,List.length_replicate]
  omega

variable (hlow : 0≤ st.pos) (hhigh : st.pos≤ st.data.length)

include hlow hhigh

theorem after_refused : st.After 0 st := by
  simp only [After]
  omega

theorem ropReadStream_after (byteCount : UInt16) (maxByteCount : UInt32) :
    ∃ x,st.ropReadStream byteCount maxByteCount=some x ∧ st.After 0 x.2 := by
  unfold ropReadStream
  dsimp only
  generalize (if byteCount=0xBABE then maxByteCount.toNat else byteCount.toNat)=want
  generalize hn : min (min (want : Int) (st.data.length-st.pos)) 0xFFFF=n
  have hrange : 0≤n ∧ st.pos+n≤ st.data.length := by omega
  obtain ⟨chunk,hchunk,-⟩ := slice_eq_some hlow (show st.pos≤ st.pos+n by omega) hrange.2
  rw [hchunk]
  exact ⟨_,rfl,by simp only [After]; omega⟩

theorem ropWriteStream_after (data : Bytes) : ∃ x,st.ropWriteStream data=some x ∧
    st.After (if st.writable then st.pos+data.length else 0) x.2 := by
  unfold ropWriteStream
  cases hw : st.writable with
  | false => exact ⟨_,rfl,after_refused hlow hhigh⟩
  | true =>
    simp only [Bool.true_eq_false,if_false,if_true]
    generalize hbuf : (if st.pos+data.length>st.data.length then grow st.data (st.pos+data.length)
      else st.data)=buf
    have hlen : (buf.length : Int)=max (st.data.length : Int) (st.pos+data.length) := by
      rw [← hbuf]
      split
      · rw [length_grow (by omega)]
        omega
      · omega
    obtain ⟨tail,htail,htlen⟩ := slice_eq_some hlow (show st.pos≤buf.length by omega) le_rfl
    rw [htail]
    refine ⟨_,rfl,?_⟩
    simp only [After,List.length_append,List.length_take,List.length_drop]
    omega

theorem ropSeekStream_after (origin : UInt8) (offRaw : UInt64) :
    st.After 0 (st.ropSeekStream origin offRaw).2 := by
  unfold ropSeekStream
  cases st.seekBase origin with
  | none => exact after_refused hlow hhigh
  | some base =>
    dsimp only
    unfold seekTo
    split_ifs with hout hpast
    · exact after_refused hlow hhigh
    · have hlen := length_grow (b := st.data) hpast.le
      simp only [After]
      omega
    all_goals
      simp only [After]
      omega

theorem ropSetStreamSize_after (size : UInt64) :
    ∃ x,st.ropSetStreamSize size=some x ∧ st.After 0 x.2 := by
  unfold ropSetStreamSize
  split
  · exact ⟨_,rfl,after_refused hlow hhigh⟩
  split
  · exact ⟨_,rfl,after_refused hlow hhigh⟩
  dsimp only
  generalize size.toNat=n at *
  split
  · rename_i hpast
    have hlen := length_grow (b := st.data) hpast.le
    exact ⟨_,rfl,by simp only [After]; omega⟩
  · obtain ⟨data,hdata,hlen⟩ := slice_eq_some (b := st.data) le_rfl (Int.natCast_nonneg n) (by omega)
    rw [hdata]
    exact ⟨_,rfl,by simp only [After]; omega⟩

theorem handle_after (r : StreamRequest) : ∃ x,st.handle r=some x ∧ st.After (st.reach r) x.2 := by
  cases r with
  | readStream byteCount maxByteCount => exact ropReadStream_after hlow hhigh _ _
  | writeStream data short => exact ropWriteStream_after hlow hhigh data
  | seekStream origin offRaw => exact ⟨_,rfl,ropSeekStream_after hlow hhigh origin offRaw⟩
  | setStreamSize size => exact ropSetStreamSize_after hlow hhigh size

omit hlow hhigh

theorem bounded_step_iff (s : Option StreamState) (r : StreamRequest) (h : Bounded s) :
    Bounded (step s r) ↔ ∀ st,s=some st → st.reach r≤ maxStreamSize := by
  obtain ⟨st,rfl,hlow,hhigh,hsize⟩ := h
  obtain ⟨x,hx,hlow',hhigh',hfits⟩ := handle_after hlow hhigh r
  have hstep : step (some st) r=some x.2 := by simp [step,hx]
  rw [hstep]
  constructor
  · rintro ⟨_,hst',-,-,hsize'⟩ _ hst
    cases hst'
    cases hst
    exact (hfits hsize).mp hsize'
  · intro h
    exact ⟨x.2,rfl,hlow',hhigh',(hfits hsize).mpr (h st rfl)⟩

theorem bounded_opened (data : {b : Bytes // b.length≤ maxStreamSize}) (writable : Bool) :
    Bounded (some (opened data writable)) :=
  ⟨_,rfl,le_rfl,Int.natCast_nonneg _,data.2⟩

/-- Cursor and stream stay bounded as long as no write passes the cap. -/
theorem stream_bounded_iff (data : {b : Bytes // b.length≤ maxStreamSize}) (writable : Bool)
    (rs : List StreamRequest) :
    Meets step (fun s r => Bounded (step s r)) (some (opened data writable)) rs ↔
      Meets step (fun s r => ∀ st,s=some st → st.reach r≤ maxStreamSize)
        (some (opened data writable)) rs :=
  meets_next_iff bounded_step_iff (bounded_opened data writable)

theorem write_at_cap_unbounded : ¬Meets step (fun s r => Bounded (step s r))
    (some (opened ⟨[],Nat.zero_le _⟩ true))
    [.seekStream 0 1073741824,.writeStream [7] (by decide)] := by
  rw [meets_next_iff bounded_step_iff (bounded_opened _ _)]
  rintro ⟨-,hfits,-⟩
  have hcap := hfits _ rfl
  exact absurd hcap (by decide)

end StreamState
end HermEX.Rop
