import HermEX.Framework.Runs
import HermEX.Mta.Session
import HermEX.Smtp.Turns

namespace HermEX.Mta

open Framework Directory Smtp

def backend (T : Strings) : Backend Env Session where
  auth := some Session.auth
  mail := Session.mail T
  rcpt := Session.rcpt T
  data := Session.data
  reset := Session.reset

section Bodies

variable {ρ σ : Type} (T : Strings) (B : Backend ρ σ)

def Truncated (c : Conn σ) : Conn.Verb → Bytes → Prop
  | .data,_ => ∀ l∈lines c.r.pending,trimRight l=[dot] → lf∉l
  | .bdat,arg => ∃ size last,parseBDAT T arg=some (size,last) ∧ c.r.pending.length < size
  | _,_ => False

def Refused (c c' : Conn σ) : Prop :=
  c'.bodies=c.bodies ∨ ∃ raw e,c'.bodies=c.bodies++[(raw,some e)]

theorem readChunk_truncated {c : Conn σ} {size : Nat} (h : c.r.pending.length<size)
    (limit : Nat) : c.readChunk size limit=none := by
  unfold Conn.readChunk
  split
  · have hshort : ¬size ≤ c.r.pending.length := by omega
    simp [copyN,hshort]
  · unfold Conn.bufferChunk
    generalize htoBuf : (if limit > 0 then min size (limit+1-(c.bdatBuf.getD []).length)
      else size)=toBuf
    have hshort : ¬(toBuf ≤ c.r.pending.length ∧ size-toBuf ≤ c.r.pending.length-toBuf) := by omega
    simp only [copyN,htoBuf]
    simpa using hshort

theorem run_truncated (env : Smtp.Env ρ) {c : Conn σ} {verb : Conn.Verb} {arg : Bytes}
    (h : Truncated T c verb arg) :
    (c.run T B env verb arg).txn =
      if verb=.bdat ∨ c.bdatBuf.isSome ∨ c.binaryMIME ∨ c.rcptCount=0 then c.txn
      else
        let body := (consumeData env.maxSize (env.received c.helo c.tls) c.r).1
        ⟨B.reset (B.data env.backend c.sess body).2,false,0,c.bodies++[body]⟩ := by
  cases verb with
  | bdat =>
    obtain ⟨size,last,harg,hshort⟩ := h
    simp [Conn.run,Conn.cmdBDAT,harg,readChunk_truncated hshort,Conn.close,Conn.txn]
  | data =>
    simp only [Conn.run,Conn.cmdDATA]
    by_cases hbuf : c.bdatBuf.isSome
    · simp [hbuf,Conn.reply,Conn.txn]
    by_cases hbin : c.binaryMIME
    · simp [hbuf,hbin,Conn.reply,Conn.txn]
    by_cases hcount : c.rcptCount=0
    · simp [hbuf,hbin,hcount,Conn.reply,Conn.txn]
    · simp only [hbuf,hbin,hcount]
      exact Conn.takeBody_txn B env _
  | _ => exact absurd h id

end Bodies

section Truncation

variable (T : Strings)

def Noticed (env : Smtp.Env Env) (c : Conn Session) (verb : Conn.Verb) : Prop :=
  (verb=.bdat ∨ c.bdatBuf.isSome ∨ c.binaryMIME ∨ c.rcptCount=0) ∨
    0<env.maxSize ∧ env.maxSize≤(undot c.r).1.length

/-- A message cut short is refused just over BDAT, at a size limit, or with DATA anyway. -/
theorem truncated_body_refused (env : Smtp.Env Env) (c : Conn Session) (verb : Conn.Verb)
    (arg : Bytes) (h : Truncated T c verb arg) :
    let c' := c.run T (backend T) env verb arg
    Refused c c' ∧ c'.sess.filed = c.sess.filed ∧ c'.sess.queued = c.sess.queued ↔
      Noticed env c verb := by
  intro c'
  have htxn : c'.txn=_ := run_truncated T (backend T) env h
  by_cases hseq : verb=.bdat ∨ c.bdatBuf.isSome ∨ c.binaryMIME ∨ c.rcptCount=0
  · rw [if_pos hseq] at htxn
    have hsess : c'.sess=c.sess := congrArg Conn.Txn.sess htxn
    exact iff_of_true ⟨.inl (congrArg Conn.Txn.bodies htxn),by rw [hsess],by rw [hsess]⟩ (.inl hseq)
  rw [if_neg hseq,consumeData_eq] at htxn
  by_cases hlimit : 0<env.maxSize ∧ env.maxSize≤(undot c.r).1.length
  · rw [if_pos hlimit] at htxn
    have hsess : c'.sess=c.sess.reset := congrArg Conn.Txn.sess htxn
    exact iff_of_true ⟨.inr ⟨_,_,congrArg Conn.Txn.bodies htxn⟩,by rw [hsess]; rfl,
      by rw [hsess]; rfl⟩ (.inr hlimit)
  · rw [if_neg hlimit] at htxn
    have hbodies : c'.bodies=_ := congrArg Conn.Txn.bodies htxn
    refine iff_of_false (fun hrefused => ?_) (by simp [Noticed,hseq,hlimit])
    rcases hrefused.1 with hsame | ⟨raw,e,herr⟩
    · have hlen := congrArg List.length (hbodies.symm.trans hsame)
      simp at hlen
    · have hlast := List.append_cancel_left (hbodies.symm.trans herr)
      simp at hlast

end Truncation

def siteAccounts : Accounts where
  resolve a := if a=lit "bob@l" then some (lit "/bob") else none
  resolveCatchAll := none
  authenticate := some fun _ p => if p=lit "p" then some [] else none
  smtpPrivilege _ := true
  identities := none
  isLocalDomain := some fun d => .ok (d=lit "l")
  splitRelayHost := none
  getForward := none
  expandMList := none
  openStore _ := none

def siteEnv : Env where
  accounts := siteAccounts
  spool := true
  enqueues := true
  appends _ := true
  loginAllowed _ := true
  intakeAllowed := true
  outboundAllowed _ := true
  greylisted _ _ := false
  scan _ _ _ _ := .proceed
  filing _ _ _ raw := (raw,13)
  withReturnPath raw _ := raw

def site : Smtp.Env Env := ⟨siteEnv,lit "h",false,0,0,fun _ _ => [],false,none,false⟩

def cutConn : Conn Session :=
  {newConn ⟨lit "half a mess",.eof⟩ false {Session.new with targets:=[⟨lit "bob@l",lit "/bob",false⟩]} with
    greeted:=true,hasFrom:=true,rcptCount:=1}

theorem truncated_body_refused_chunk :
    let c' := cutConn.run .ascii (backend .ascii) site .bdat (lit "20 LAST")
    Refused cutConn c' ∧ c'.sess.filed = [] ∧ c'.sess.queued = [] :=
  (truncated_body_refused .ascii site cutConn .bdat (lit "20 LAST")
    ⟨20,true,by decide,by decide⟩).mpr (.inl (.inl rfl))

/-- Over DATA the half that came is filed as the message. -/
theorem truncated_body_filed :
    lf∉cutConn.r.pending ∧
      (cutConn.run .ascii (backend .ascii) site .data []).bodies = [(lit "half a mess",none)] ∧
      (cutConn.run .ascii (backend .ascii) site .data []).sess.filed =
        [⟨lit "/bob",13,lit "half a mess"⟩] := by
  decide

end HermEX.Mta
