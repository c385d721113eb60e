import HermEX.Smtp.Server

namespace HermEX.Smtp.Conn

open Framework

/-- What a transaction is made of. -/
structure Txn (σ : Type) where
  sess : σ
  hasFrom : Bool
  rcptCount : Nat
  bodies : List (Bytes×Option ReadErr)

variable {ρ σ : Type} (T : Strings) (B : Backend ρ σ) (env : Env ρ) (c : Conn σ)

def txn : Txn σ := ⟨c.sess,c.hasFrom,c.rcptCount,c.bodies⟩

def accepted : Bool := c.replies.getLast?.any (·.code=250)

/-- What a command does, and if its reply accepts it. -/
inductive Turn : Verb → Bytes → Bool → Txn σ → Prop
  | keep {verb arg ok} (hverb : verb∉[.helo,.ehlo,.rset])
      (hok : verb=.mail ∨ verb=.rcpt → ok=false) : Turn verb arg ok c.txn
  | reset {verb arg ok} (hverb : verb∉[.mail,.rcpt]) :
      Turn verb arg ok ⟨B.reset c.sess,false,0,c.bodies⟩
  | auth {arg ok f user password} (hf : B.auth=some f)
      (hx : (c.authExchange T B env arg).1=some (user,password)) :
      Turn .auth arg ok {c.txn with sess:=(f env.backend c.sess user password).2}
  | mail {arg addr params res s} (haddr : extractPath T arg (lit "FROM:")=some addr)
      (h : B.mail env.backend (B.reset c.sess) addr params=(res,s)) :
      Turn .mail arg res.isOk ⟨s,res.isOk,0,c.bodies⟩
  | rcpt {arg addr params res s} (hfrom : c.hasFrom=true)
      (haddr : extractPath T arg (lit "TO:")=some addr) (hdsn : dsnRcptParams T arg=some params)
      (h : B.rcpt env.backend c.sess addr params=(res,s)) :
      Turn .rcpt arg res.isOk ⟨s,true,c.rcptCount+res.isOk.toNat,c.bodies⟩
  | body {verb arg ok} (hverb : verb=.data ∨ verb=.bdat) (hcount : c.rcptCount≠0) (body) :
      Turn verb arg ok
        ⟨B.reset (B.data env.backend c.sess body).2,false,0,c.bodies++[body]⟩

variable {c} (arg : Bytes)

theorem accepted_reply (code : Nat) (text : Bytes) :
    (c.reply code text).accepted=decide (code=250) := by
  simp [accepted,reply]

theorem Turn.refused {verb : Verb} {arg : Bytes} {code : Nat} (text : Bytes) (hcode : code≠250)
    (hverb : verb∉[.helo,.ehlo,.rset]) :
    Turn T B env c verb arg (c.reply code text).accepted (c.reply code text).txn :=
  .keep hverb fun _ => by rw [accepted_reply,decide_eq_false hcode]

theorem replySessionErr_refused (e : SessionErr) :
    (c.replySessionErr e).accepted=false ∧ (c.replySessionErr e).txn=c.txn := by
  cases e <;> simp [replySessionErr,accepted,reply,txn]

theorem takeBody_txn (body : Bytes×Option ReadErr) : (c.takeBody B env body).txn =
    ⟨B.reset (B.data env.backend c.sess body).2,false,0,c.bodies++[body]⟩ := by
  unfold takeBody
  cases h : B.data env.backend c.sess body with
  | mk res s =>
    cases res with
    | error e => cases e <;> simp [h,txn,resetTxn,replyDataErr,reply]
    | ok => simp [h,txn,resetTxn,reply]

theorem authExchange_txn : (c.authExchange T B env arg).2.txn=c.txn := by
  have hresponse (c : Conn σ) (inline challenge : Bytes) :
      (c.authResponse env inline challenge).2.txn=c.txn := by
    unfold authResponse
    dsimp only
    repeat' split
    all_goals rfl
  have hplain (initial : Bytes) : (c.authPlain env initial).2.txn=c.txn := by
    have h := hresponse c initial []
    unfold authPlain
    generalize c.authResponse env initial []=x at h
    obtain ⟨_ | resp,c'⟩ := x
    · exact h
    · dsimp only
      repeat' split
      all_goals exact h
  have hlogin (initial : Bytes) : (c.authLogin env initial).2.txn=c.txn := by
    have h := hresponse c initial (lit "VXNlcm5hbWU6")
    unfold authLogin
    generalize c.authResponse env initial (lit "VXNlcm5hbWU6")=x at h
    obtain ⟨_ | user,c'⟩ := x
    · exact h
    have h' := (hresponse c' [] (lit "UGFzc3dvcmQ6")).trans h
    dsimp only
    split
    · exact h
    generalize c'.authResponse env [] (lit "UGFzc3dvcmQ6")=y at h'
    obtain ⟨_ | pass,c''⟩ := y
    · exact h'
    · dsimp only
      split <;> exact h'
  unfold authExchange
  dsimp only
  split_ifs
  · rfl
  · rfl
  · exact hplain _
  · exact hlogin _
  · rfl

theorem cmdMAIL_turn : Turn T B env c .mail arg (c.cmdMAIL T B env arg).accepted
    (c.cmdMAIL T B env arg).txn := by
  unfold cmdMAIL
  split
  · exact .refused _ _ _ _ (by decide) (by decide)
  split
  · exact .refused _ _ _ _ (by decide) (by decide)
  rename_i addr haddr
  dsimp only
  split
  · exact .refused _ _ _ _ (by decide) (by decide)
  cases hcheck : checkMailParams T env arg (esmtpParams T arg) with
  | error e =>
    refine .refused _ _ _ _ ?_ (by decide)
    unfold checkMailParams at hcheck
    split_ifs at hcheck
    · cases hcheck; decide
    · cases hcheck; decide
    · split at hcheck <;> cases hcheck; decide
  | ok params =>
    dsimp only
    cases hm : B.mail env.backend (c.resetTxn B).sess addr params with
    | mk res s =>
      have hturn := Turn.mail (T := T) haddr hm
      cases res with
      | error e =>
        obtain ⟨hno,htxn⟩ := replySessionErr_refused (c := {c.resetTxn B with sess:=s}) e
        rw [hno,htxn]
        exact hturn
      | ok =>
        rw [accepted_reply]
        exact hturn

theorem cmdRCPT_turn : Turn T B env c .rcpt arg (c.cmdRCPT T B env arg).accepted
    (c.cmdRCPT T B env arg).txn := by
  unfold cmdRCPT
  split
  · exact .refused _ _ _ _ (by decide) (by decide)
  rename_i hfrom
  split
  · exact .refused _ _ _ _ (by decide) (by decide)
  rename_i addr haddr
  split
  · exact .refused _ _ _ _ (by decide) (by decide)
  split
  · exact .refused _ _ _ _ (by decide) (by decide)
  rename_i params hdsn
  have hopen : c.hasFrom=true := by simpa using hfrom
  cases hr : B.rcpt env.backend c.sess addr params with
  | mk res s =>
    have hturn := Turn.rcpt hopen haddr hdsn hr
    rw [← hopen] at hturn
    cases res with
    | error e =>
      obtain ⟨hno,htxn⟩ := replySessionErr_refused (c := {c with sess:=s}) e
      rw [hno,htxn]
      exact hturn
    | ok =>
      rw [accepted_reply]
      exact hturn

theorem cmdDATA_turn (ok : Bool) :
    Turn T B env c .data arg ok (c.cmdDATA B env).txn := by
  have hkeep : Turn T B env c .data arg ok c.txn := .keep (by decide) (by simp)
  unfold cmdDATA
  split
  · exact hkeep
  split
  · exact hkeep
  split
  · exact hkeep
  rename_i hcount
  rw [takeBody_txn]
  exact .body (.inl rfl) hcount _

theorem readChunk_txn {c' : Conn σ} {size limit : Nat} (h : c.readChunk size limit=some c') :
    c'.txn=c.txn := by
  unfold readChunk bufferChunk at h
  dsimp only at h
  split_ifs at h
  all_goals
    cases h
    rfl

theorem cmdBDAT_turn (ok : Bool) :
    Turn T B env c .bdat arg ok (c.cmdBDAT T B env arg).txn := by
  have hkeep : Turn T B env c .bdat arg ok c.txn := .keep (by decide) (by simp)
  unfold cmdBDAT
  split
  · exact hkeep
  split
  · exact hkeep
  rename_i c' hc
  have htxn := readChunk_txn hc
  rw [← htxn] at hkeep
  unfold replyBDAT
  dsimp only
  split_ifs with hgreet hcount
  · exact hkeep
  · exact hkeep
  · exact hkeep
  · exact hkeep
  · exact hkeep
  rw [takeBody_txn]
  have hsess : c'.sess=c.sess := congrArg Txn.sess htxn
  have hbodies : c'.bodies=c.bodies := congrArg Txn.bodies htxn
  have hrcpts : c'.rcptCount=c.rcptCount := congrArg Txn.rcptCount htxn
  rw [hsess,hbodies]
  exact .body (.inr rfl) (hrcpts ▸ hcount) _

theorem run_turn (verb : Verb) (arg : Bytes) : Turn T B env c verb arg
    (c.run T B env verb arg).accepted (c.run T B env verb arg).txn := by
  cases verb with
  | mail => exact cmdMAIL_turn T B env arg
  | rcpt => exact cmdRCPT_turn T B env arg
  | data => exact cmdDATA_turn T B env arg _
  | bdat => exact cmdBDAT_turn T B env arg _
  | helo | ehlo | rset => exact .reset (by decide)
  | auth =>
    have htxn := authExchange_txn T B env (c := c) arg
    simp only [run,cmdAUTH]
    cases hx : c.authExchange T B env arg with
    | mk o c' =>
      rw [hx] at htxn
      cases o with
      | none =>
        rw [htxn]
        exact .keep (by decide) (by simp)
      | some creds =>
        obtain ⟨user,password⟩ := creds
        cases hf : B.auth with
        | none =>
          simp only [finishAuth,hf]
          rw [htxn]
          exact .keep (by decide) (by simp)
        | some f =>
          have hauth : (c'.finishAuth B env user password).txn =
              {c'.txn with sess:=(f env.backend c'.sess user password).2} := by
            simp only [finishAuth,hf]
            cases f env.backend c'.sess user password with
            | mk ok s => cases ok <;> rfl
          have hsess : c'.sess=c.sess := congrArg Txn.sess htxn
          rw [hauth,htxn,hsess]
          exact .auth hf (by rw [hx])
  | starttls =>
    simp only [run,cmdSTARTTLS]
    split_ifs
    · exact .keep (by decide) (by simp)
    · exact .keep (by decide) (by simp)
    · split
      · exact .keep (by decide) (by simp)
      · exact .reset (by decide)
  | _ => exact .keep (by decide) (by simp)

def nextCommand (c : Conn σ) : Option (Verb×Bytes) :=
  match readLine c.r env.commandLineLimit with
  | (.ok line,_) =>
    if c.closed || env.linkLost then none
    else (command T line).1.map fun verb => (verb,(command T line).2)
  | _ => none

theorem nextCommand_eq_some {verb : Verb} {arg : Bytes}
    (h : nextCommand T env c=some (verb,arg)) :
    ∃ line r,readLine c.r env.commandLineLimit=(.ok line,r) ∧ command T line=(some verb,arg) := by
  unfold nextCommand at h
  split at h
  · rename_i line r hl
    split_ifs at h
    obtain ⟨v,hv,he⟩ := Option.map_eq_some_iff.mp h
    cases he
    exact ⟨line,r,hl,Prod.ext hv rfl⟩
  · cases h

theorem serve_turn : nextCommand T env c=none ∧ (c.serve T B env).txn=c.txn ∨
    ∃ verb arg,nextCommand T env c=some (verb,arg) ∧
      Turn T B env {c with r:=(readLine c.r env.commandLineLimit).2} verb arg
        (c.serve T B env).accepted (c.serve T B env).txn := by
  unfold nextCommand serve
  cases hl : readLine c.r env.commandLineLimit with
  | mk res r =>
    cases hclosed : c.closed with
    | true => exact .inl ⟨by cases res <;> rfl,rfl⟩
    | false =>
      cases res with
      | error e => exact .inl ⟨rfl,by cases e <;> rfl⟩
      | ok line =>
        cases hlost : env.linkLost with
        | true => exact .inl ⟨rfl,rfl⟩
        | false =>
          simp only [Bool.or_self,Bool.false_eq_true,if_false]
          cases hcmd : command T line with
          | mk o arg =>
            cases o with
            | none => exact .inl ⟨rfl,rfl⟩
            | some verb => exact .inr ⟨verb,arg,rfl,run_turn T B env verb arg⟩

end HermEX.Smtp.Conn
