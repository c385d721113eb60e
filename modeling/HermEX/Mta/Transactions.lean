import HermEX.Mta.Sender

namespace HermEX.Mta

open Framework Directory Smtp

/-- The sender and the recipients of a transaction. -/
structure Envelope where
  sender : Address
  targets : List Target
  relayTargets : List DSNRecipient

def Session.envelope (s : Session) : Envelope := ⟨s.sender,s.targets,s.relayTargets⟩

def Envelope.rcpt (T : Strings) (env : Smtp.Env Env) (user : Address) (arg : Bytes)
    (e : Envelope) : Envelope :=
  match extractPath T arg (lit "TO:"),dsnRcptParams T arg with
  | some addr,some params =>
    let s := (Session.rcpt T env.backend {Session.new with sender:=e.sender,authUser:=user} addr
      params).2
    ⟨e.sender,e.targets++s.targets,e.relayTargets++s.relayTargets⟩
  | _,_ => e

def follow (T : Strings) (env : Smtp.Env Env) (user : Address) (l : Option Envelope) (arg : Bytes)
    (ok ended : Bool) : Conn.Verb → Option Envelope
  | .helo | .ehlo | .rset => none
  | .mail => if ok then (extractPath T arg (lit "FROM:")).map (⟨·,[],[]⟩) else l
  | .rcpt => if ok then l.map (.rcpt T env user arg) else l
  | _ => if ended then none else l

def ledger (T : Strings) (x : Conn Session×Option Envelope) (env : Smtp.Env Env) :
    Conn Session×Option Envelope :=
  let c := x.1.serve T (backend T) env
  (c,(Conn.nextCommand T env x.1).elim x.2 fun cmd =>
    follow T env x.1.sess.authUser x.2 cmd.2 c.accepted (c.bodies.length≠x.1.bodies.length) cmd.1)

/-- The ledger has the envelope of an open transaction. -/
structure Held (t : Conn.Txn Session) (l : Option Envelope) : Prop where
  envelope : t.hasFrom=true → l=some t.sess.envelope
  idle : t.hasFrom=false → t.rcptCount=0

variable {T : Strings} {c : Conn Session} {env : Smtp.Env Env} {verb : Conn.Verb} {arg : Bytes}
  {ok : Bool} {t : Conn.Txn Session} {l : Option Envelope}

theorem rcpt_error {env : Env} {s s' : Session} {to' : Address} {params : RcptParams}
    {e : SessionErr} (h : s.rcpt T env to' params=(.error e,s')) : s'=s := by
  unfold Session.rcpt Session.routeRecipient Session.routeLocal at h
  repeat' split at h
  all_goals simp_all

theorem Held.turn (h : Held c.txn l) (ht : Conn.Turn T (backend T) env c verb arg ok t) :
    Held t (follow T env c.sess.authUser l arg ok (t.bodies.length≠c.bodies.length) verb) := by
  have hidle {s : Session} {bodies : List (Bytes×Option ReadErr)} {l : Option Envelope} :
      Held ⟨s,false,0,bodies⟩ l := ⟨fun hf => absurd hf Bool.false_ne_true,fun _ => rfl⟩
  cases ht with
  | keep hverb hok =>
    have hl : follow T env c.sess.authUser l arg ok (c.txn.bodies.length≠c.bodies.length) verb=l := by
      cases verb <;> simp_all [follow,Conn.txn]
    rw [hl]
    exact h
  | reset | body => exact hidle
  | auth hf hx =>
    rename_i user password
    cases hf
    refine ⟨fun hf => ?_,h.idle⟩
    have hl : l=some c.sess.envelope := h.envelope hf
    rcases auth_cases env.backend c.sess user password with hs | ⟨-,path,hs⟩
    all_goals simpa [follow,backend,hs,Conn.txn,Session.see,Session.envelope] using hl
  | mail haddr hm =>
    rename_i addr params res s
    cases res with
    | error e => exact hidle
    | ok =>
      obtain ⟨rfl,-⟩ := mail_ok hm
      refine ⟨fun _ => ?_,fun hf => by cases hf⟩
      simp [follow,haddr]
      rfl
  | rcpt hfrom haddr hdsn hr =>
    rename_i addr params res s
    refine ⟨fun _ => ?_,fun hf => by cases hf⟩
    have hl : l=some c.sess.envelope := h.envelope hfrom
    cases res with
    | error e =>
      cases rcpt_error hr
      exact hl
    | ok =>
      have hs := hr.symm.trans (Session.rcpt_join env.backend c.sess addr params)
      cases congrArg Prod.snd hs
      simp [follow,hl,Envelope.rcpt,haddr,hdsn]
      rfl

theorem Held.serve (h : Held c.txn l) (env : Smtp.Env Env) :
    Held (ledger T (c,l) env).1.txn (ledger T (c,l) env).2 := by
  rcases Conn.serve_turn T (backend T) env (c := c) with ⟨hnone,hsame⟩ | ⟨verb,arg,hnext,hturn⟩
  · simpa [ledger,hnone,hsame] using h
  · simp only [ledger,hnext]
    exact h.turn (c := {c with r:=(readLine c.r env.commandLineLimit).2}) hturn

theorem body_handed (ht : Conn.Turn T (backend T) env c verb arg ok t) :
    t.bodies=c.bodies ∨ c.rcptCount≠0 := by
  cases ht with
  | body hverb hcount => exact .inr hcount
  | _ => exact .inl rfl

/-- A body meets the last accepted MAIL and the RCPTs since, with no reset and no body between. -/
theorem data_envelope (T : Strings) (r : Wire) (tls : Bool) (turns : List (Smtp.Env Env))
    (env : Smtp.Env Env) :
    let x := runSteps (ledger T) (newConn r tls Session.new,none) turns
    (x.1.serve T (backend T) env).bodies = x.1.bodies ∨ x.2 = some x.1.sess.envelope := by
  intro x
  have hstart : Held (newConn r tls Session.new).txn none :=
    ⟨fun hf => absurd hf Bool.false_ne_true,fun _ => rfl⟩
  have hheld : Held x.1.txn x.2 :=
    runSteps_invariant (s := (newConn r tls Session.new,none)) (I := fun x => Held x.1.txn x.2)
      (fun x env h => h.serve env) hstart turns
  rcases Conn.serve_turn T (backend T) env (c := x.1) with ⟨-,hsame⟩ | ⟨verb,arg,-,hturn⟩
  · exact .inl (congrArg Conn.Txn.bodies hsame)
  refine (body_handed hturn).imp_right fun hcount => hheld.envelope ?_
  by_contra hno
  exact hcount (hheld.idle (by simpa using hno))

end HermEX.Mta
