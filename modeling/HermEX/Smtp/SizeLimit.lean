import HermEX.Smtp.Server

namespace HermEX.Smtp

open Framework

variable {ρ σ : Type}

def Conn.holding (c : Conn σ) (m : Bytes) : Conn σ := {c with r:={c.r with pending:=m}}

/-- A message is sent by BDAT in some chunks. -/
inductive Sends (T : Strings) (B : Backend ρ σ) (env : Env ρ) : Conn σ → Bytes → Conn σ → Prop
  | last {c arg m} (harg : parseBDAT T arg=some (m.length,true)) :
      Sends T B env c m ((c.holding m).cmdBDAT T B env arg)
  | more {c c' arg m m'} (harg : parseBDAT T arg=some (m.length,false))
      (hrest : Sends T B env ((c.holding m).cmdBDAT T B env arg) m' c') :
      Sends T B env c (m++m') c'

variable {T : Strings} {B : Backend ρ σ} {env : Env ρ} {c c' : Conn σ} {arg m : Bytes}
  {last : Bool}

/-- It takes chunks, and those before are within the limit. -/
structure Buffering (limit : Nat) (c : Conn σ) : Prop where
  greeted : c.greeted=true
  rcpts : c.rcptCount≠0
  good : c.bdatErr=false
  within : (c.bdatBuf.getD []).length≤limit

def Failed (c : Conn σ) : Prop := c.greeted=true ∧ c.rcptCount≠0 ∧ c.bdatErr=true

theorem cmdBDAT_failed (h : Failed c) (harg : parseBDAT T arg=some (m.length,last)) :
    Failed ((c.holding m).cmdBDAT T B env arg) := by
  simp [Failed,Conn.holding,Conn.cmdBDAT,harg,Conn.readChunk,Conn.chunkViable,copyN,
    Conn.replyBDAT,Conn.reply,h.1,h.2.1,h.2.2]

theorem cmdBDAT_within (h : Buffering env.maxSize c) (hlimit : 0 < env.maxSize)
    (harg : parseBDAT T arg=some (m.length,last)) :
    let total := c.bdatBuf.getD []++m
    let c' := (c.holding m).cmdBDAT T B env arg
    (total.length > env.maxSize → Failed c') ∧ (total.length≤env.maxSize →
      if last then c'.bdatErr=false else Buffering env.maxSize c' ∧ c'.bdatBuf=some total) := by
  intro total c'
  have hlen : total.length=(c.bdatBuf.getD []).length+m.length := List.length_append
  generalize hk : env.maxSize+1-(c.bdatBuf.getD []).length=k
  have hc' : c'=Conn.replyBDAT B env {c.holding [] with
      bdatBuf:=some (c.bdatBuf.getD []++m.take k)} m.length last env.maxSize := by
    have htake : m.take (min m.length k)=m.take k := by simp [List.take_eq_take_iff,min_comm]
    simp [c',Conn.cmdBDAT,harg,Conn.readChunk,Conn.chunkViable,Conn.bufferChunk,copyN,hlimit,
      Conn.holding,hk,htake,h.greeted,h.good,Nat.pos_of_ne_zero h.rcpts]
  rw [hc',hlen]
  constructor
  · intro hbig
    have hover : env.maxSize < (c.bdatBuf.getD []).length+min k m.length := by omega
    simp [Failed,Conn.replyBDAT,Conn.holding,h.greeted,h.rcpts,h.good,hlimit,hover,Conn.reply]
  · intro hfits
    have hno := not_lt.mpr hfits
    rw [List.take_of_length_le (by omega)]
    cases last with
    | true =>
      simp [Conn.replyBDAT,Conn.holding,h.greeted,h.rcpts,h.good,hno,Conn.takeBody,Conn.resetTxn]
    | false =>
      simp [Conn.replyBDAT,Conn.holding,h.greeted,h.rcpts,h.good,hno,Conn.reply]
      exact ⟨⟨rfl,h.rcpts,rfl,by simpa using hfits⟩,rfl⟩

theorem Sends.failed (h : Sends T B env c m c') (hc : Failed c) : c'.bdatErr=true := by
  induction h with
  | last harg => exact (cmdBDAT_failed hc harg).2.2
  | more harg hrest ih => exact ih (cmdBDAT_failed hc harg)

theorem Sends.refused_iff (h : Sends T B env c m c') (hlimit : 0 < env.maxSize)
    (hc : Buffering env.maxSize c) :
    c'.bdatErr=true ↔ (c.bdatBuf.getD []++m).length > env.maxSize := by
  induction h with
  | last harg =>
    obtain ⟨hbig,hfits⟩ := cmdBDAT_within (B := B) hc hlimit harg
    refine ⟨fun he => ?_,fun hlen => (hbig hlen).2.2⟩
    by_contra hlen
    rw [hfits (not_lt.mp hlen)] at he
    cases he
  | more harg hrest ih =>
    rename_i c₀ _ _ m₀ _
    obtain ⟨hbig,hfits⟩ := cmdBDAT_within (B := B) hc hlimit harg
    rw [← List.append_assoc]
    by_cases hlen : (c₀.bdatBuf.getD []++m₀).length > env.maxSize
    · exact iff_of_true (hrest.failed (hbig hlen)) (hlen.trans_le (by simp))
    · obtain ⟨hnext,htotal⟩ := hfits (not_lt.mp hlen)
      rw [ih hnext,htotal]
      rfl

/-- Both paths refuse alike but for a message just as long as the limit. -/
theorem size_limits_agree_iff (T : Strings) (B : Backend ρ σ) (env : Env ρ) (c : Conn σ)
    (rcpts n : Nat) (trace : Bytes) (w : Wire) :
    let m := (undot w).1
    let ready := {c with greeted:=true,rcptCount:=rcpts+1,bdatBuf:=none,bdatErr:=false}
    (∀ sizes : List Nat,(∀ k∈sizes,0 < k) → trace.length+w.pending.length < sizes.length →
      ((limitedReader dotReader).after.reads sizes (trace,(newDotReader w,n+1)) = some .tooLarge ↔
        m.length > n+1)) ∧
    (∀ c',Sends T B {env with maxSize:=n+1} ready m c' → (c'.bdatErr = true ↔ m.length > n+1)) ↔
      m.length ≠ n+1 := by
  intro m ready
  have hbdat : ∀ c',Sends T B {env with maxSize:=n+1} ready m c' →
      (c'.bdatErr=true ↔ m.length > n+1) :=
    fun c' hc' => hc'.refused_iff (Nat.succ_pos n) ⟨rfl,Nat.succ_ne_zero rcpts,rfl,Nat.zero_le _⟩
  have hdata {sizes : List Nat} (hpos : ∀ k∈sizes,0 < k)
      (hlen : trace.length+w.pending.length < sizes.length) :
      (limitedReader dotReader).after.reads sizes (trace,(newDotReader w,n+1))=some .tooLarge ↔
        n+1≤ m.length := by
    rw [(limitedReader_delivers dotReader_delivers).after.reads hpos
      (by simpa [Source.after,limitedReader,dotReader,newDotReader] using hlen)]
    simp only [newDotReader,DotReader.view]
    split_ifs with hle <;> simp_all [m]
  constructor
  · intro h heq
    have hone := h.1 (List.replicate (trace.length+w.pending.length+1) 1) (by simp) (by simp)
    rw [hdata (by simp) (by simp)] at hone
    omega
  · intro hne
    refine ⟨fun sizes hpos hlen => ?_,hbdat⟩
    rw [hdata hpos hlen]
    omega

/-- Two octets are refused under a limit of two. -/
theorem size_limit_reached : (undot ⟨[cr,lf]++terminator,.eof⟩).1 = [cr,lf] ∧
    (limitedReader dotReader).after.reads [9,9,9,9,9,9] ([],(newDotReader ⟨[cr,lf]++terminator,.eof⟩,2)) =
      some .tooLarge := by
  decide

end HermEX.Smtp
