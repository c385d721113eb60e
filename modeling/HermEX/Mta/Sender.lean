import HermEX.Mta.Intake

namespace HermEX.Mta

open Framework Directory Smtp

section Sender

variable (T : Strings)

def MaySend (user sender : Address) (seen : List Accounts) : Prop :=
  user≠[] → ∃ a∈seen,Sendas.allows T a user sender

/-- Queued messages and the open transaction have senders their user may use. -/
structure Vouched (c : Conn Session) : Prop where
  queued : ∀ q∈c.sess.queued,MaySend T q.authUser q.sender q.seen
  sender : c.hasFrom=true → MaySend T c.sess.authUser c.sess.sender c.sess.seen
  idle : c.hasFrom=false → c.sess.relayTargets=[]

variable {T} {c : Conn Session} {env : Env} {params : MailParams}

theorem mail_ok {s s' : Session} {sender : Address} (h : s.mail T env sender params=(.ok (),s')) :
    s'={s.see env.accounts with sender:=sender,ret:=params.ret,envid:=params.envid} ∧
      MaySend T s'.authUser s'.sender s'.seen := by
  unfold Session.mail at h
  split_ifs at h with hauth hquota hrate
  all_goals simp only [Prod.mk.injEq,reduceCtorEq,false_and,true_and] at h
  subst h
  refine ⟨rfl,fun hu => ⟨env.accounts,by simp [Session.see],?_⟩⟩
  by_contra hno
  exact hauth ⟨hu,by simpa [Session.see] using hno⟩

theorem mail_error {s s' : Session} {sender : Address} {e : SessionErr}
    (h : s.mail T env sender params=(.error e,s')) : s'=s := by
  unfold Session.mail at h
  split_ifs at h
  all_goals simp only [Prod.mk.injEq,reduceCtorEq,false_and] at h
  all_goals exact h.2.symm

/-- Routing a recipient leaves user, sender and queue alone. -/
structure SameSender (s s' : Session) : Prop where
  queued : s'.queued=s.queued
  authUser : s'.authUser=s.authUser
  sender : s'.sender=s.sender
  seen : s'.seen=s.seen

namespace Session

def router (s : Session) : Session := {new with sender:=s.sender,authUser:=s.authUser}

def join (s x : Session) : Session :=
  {s with targets:=s.targets++x.targets,relayTargets:=s.relayTargets++x.relayTargets}

theorem join_router (s : Session) : s.join s.router=s := by
  simp [join,router,new]

theorem routeLocal_join (env : Env) (s : Session) (rcpt : Address) (path : Path) (all : Bool) :
    s.routeLocal env rcpt path all=Prod.map id s.join (s.router.routeLocal env rcpt path all) := by
  cases s
  unfold routeLocal
  split_ifs <;> simp_all [router,join,new]

theorem routeRecipient_join (env : Env) (s : Session) (rcpt : Address) (params : RcptParams) :
    s.routeRecipient T env rcpt params =
      Prod.map id s.join (s.router.routeRecipient T env rcpt params) := by
  unfold routeRecipient
  split
  · exact routeLocal_join env s rcpt _ false
  split
  · exact routeLocal_join env s rcpt _ true
  cases s
  cases isRelayable T env.accounts rcpt with
  | error e => split_ifs <;> simp_all [router,join,new]
  | ok b => cases b <;> split_ifs <;> simp_all [router,join,new]

theorem routeListMembers_join (env : Env) (notify : Bytes) (s x : Session)
    (leaves : List Address) : leaves.foldl (routeListMember T env notify) (s.join x) =
      s.join (leaves.foldl (routeListMember T env notify) x) := by
  induction leaves generalizing x with
  | nil => rfl
  | cons m ms ih =>
    rw [List.foldl_cons,List.foldl_cons,← ih]
    congr 1
    unfold routeListMember
    repeat' split
    all_goals simp [join]

theorem rcpt_join (env : Env) (s : Session) (to' : Address) (params : RcptParams) :
    s.rcpt T env to' params=Prod.map id s.join (s.router.rcpt T env to' params) := by
  have hrefuse (e : SessionErr) :
      ((.error e,s) : Except SessionErr Unit×Session)=Prod.map id s.join (.error e,s.router) :=
    Prod.ext rfl s.join_router.symm
  unfold rcpt
  rw [show s.router.sender=s.sender from rfl]
  split
  · exact routeRecipient_join env s to' params
  split
  · exact hrefuse _
  · exact routeRecipient_join env s to' params
  · exact hrefuse _
  · exact Prod.ext rfl (by simpa [join_router] using routeListMembers_join env _ s s.router _)

end Session

theorem deliverTargets_same (env : Env) (raw : Bytes) (ts : List Target) (s : Session) :
    SameSender s (Session.deliverTargets env raw ts s).2 ∧
      (Session.deliverTargets env raw ts s).2.relayTargets=s.relayTargets := by
  induction ts generalizing s with
  | nil => exact ⟨⟨rfl,rfl,rfl,rfl⟩,rfl⟩
  | cons t ts ih =>
    simp only [Session.deliverTargets]
    split
    · obtain ⟨hs,hr⟩ := ih _
      exact ⟨⟨hs.queued,hs.authUser,hs.sender,hs.seen⟩,hr⟩
    · exact ⟨⟨rfl,rfl,rfl,rfl⟩,rfl⟩

theorem data_queued (env : Env) (s : Session) (body : Bytes×Option ReadErr) :
    (s.data env body).2.queued=s.queued ∨ s.relayTargets≠[] ∧
      ∃ q,(s.data env body).2.queued=s.queued++[q] ∧ q.authUser=s.authUser ∧
        q.sender=s.sender ∧ q.seen=s.seen := by
  obtain ⟨raw,err⟩ := body
  cases err with
  | some e => exact .inl rfl
  | none =>
    simp only [Session.data]
    cases env.scan (s.authUser≠[]) s.sender
      (s.targets.map (·.addr)++s.relayTargets.map (·.addr)) raw with
    | tempFail | handled => exact .inl rfl
    | proceed =>
      obtain ⟨hs,hr⟩ := deliverTargets_same env raw s.targets s
      cases hd : Session.deliverTargets env raw s.targets s with
      | mk res s₁ =>
        rw [hd] at hs hr
        cases res with
        | error e => exact .inl hs.queued
        | ok _ =>
          simp only [Session.queueRelay]
          split_ifs with hnone hfail
          · exact .inl hs.queued
          · exact .inl hs.queued
          · exact .inr ⟨hr ▸ hnone,_,congrArg (·++_) hs.queued,hs.authUser,hs.sender,hs.seen⟩

theorem Vouched.data_kept (h : Vouched T c) (env : Env) (body : Bytes×Option ReadErr) :
    ∀ q∈(c.sess.data env body).2.queued,MaySend T q.authUser q.sender q.seen := by
  intro q hq
  rcases data_queued env c.sess body with hsame | ⟨hwait,q',hnew,hu,hf,hseen⟩
  · exact h.queued q (hsame ▸ hq)
  · rw [hnew,List.mem_append,List.mem_singleton] at hq
    rcases hq with hq | rfl
    · exact h.queued q hq
    · have hopen : c.hasFrom=true := by
        by_contra hno
        exact hwait (h.idle (by simpa using hno))
      rw [hu,hf,hseen]
      exact h.sender hopen

def KeepsSender (T : Strings) (c : Conn Session) (accounts : Accounts) (user : Address) : Prop :=
  c.hasFrom=false ∨ user=c.sess.authUser ∨ Sendas.allows T accounts user c.sess.sender

theorem auth_cases (env : Env) (s : Session) (user password : Bytes) :
    (s.auth env user password).2=s ∨ ((s.auth env user password).1=true ∧
      ∃ path,(s.auth env user password).2 =
        {s.see env.accounts with authUser:=user,authMailbox:=path}) := by
  unfold Session.auth
  repeat' split
  all_goals first
    | exact .inl rfl
    | exact .inr ⟨rfl,_,rfl⟩

theorem Vouched.login (h : Vouched T c) {user password : Bytes}
    (hu : (c.sess.auth env user password).1=true → KeepsSender T c env.accounts user) :
    Vouched T {c with sess:=(c.sess.auth env user password).2} := by
  rcases auth_cases env c.sess user password with hsame | ⟨hok,path,hlogin⟩
  · rw [hsame]
    exact h
  · rw [hlogin]
    refine ⟨h.queued,fun hf hne => ?_,h.idle⟩
    rcases hu hok with hno | rfl | hok
    · exact absurd (hf.symm.trans hno) (by decide)
    · obtain ⟨a,ha,hal⟩ := h.sender hf hne
      exact ⟨a,List.mem_append_left _ ha,hal⟩
    · exact ⟨env.accounts,by simp [Session.see],hok⟩

def loggedIn (T : Strings) (c : Conn Session) (env : Smtp.Env Env) (arg : Bytes) : Option Address :=
  ((c.authExchange T (backend T) env arg).1.filter fun x =>
    (c.sess.auth env.backend x.1 x.2).1).map Prod.fst

def nextLogin (T : Strings) (c : Conn Session) (env : Smtp.Env Env) : Option Address :=
  match readLine c.r env.commandLineLimit with
  | (.ok line,r) =>
    match Conn.command T line with
    | (some .auth,arg) => loggedIn T {c with r:=r} env arg
    | _ => none
  | _ => none

/-- No other user logs in to a transaction whose sender they may not use. -/
def SenderKept (T : Strings) (c : Conn Session) (env : Smtp.Env Env) : Prop :=
  ∀ user∈nextLogin T c env,KeepsSender T c env.backend.accounts user

instance (T : Strings) (c : Conn Session) (env : Smtp.Env Env) :
    Decidable (SenderKept T c env) :=
  inferInstanceAs (Decidable (∀ user∈nextLogin T c env,_ ∨ _ ∨ _))

theorem Vouched.turn (h : Vouched T c) {env : Smtp.Env Env} {verb : Conn.Verb} {arg : Bytes}
    {ok : Bool} {t : Conn.Txn Session} (ht : Conn.Turn T (backend T) env c verb arg ok t)
    (hu : verb=.auth → ∀ user∈loggedIn T c env arg,KeepsSender T c env.backend.accounts user) :
    Vouched T {c with sess:=t.sess,hasFrom:=t.hasFrom} := by
  have hidle (s : Session) (hq : ∀ q∈s.queued,MaySend T q.authUser q.sender q.seen) :
      Vouched T {c with sess:=s.reset,hasFrom:=false} :=
    ⟨hq,fun hf => absurd hf Bool.false_ne_true,fun _ => rfl⟩
  cases ht with
  | keep => exact h
  | reset => exact hidle c.sess h.queued
  | body hverb hcount body => exact hidle _ (h.data_kept env.backend body)
  | auth hf hx =>
    rename_i user password
    cases hf
    exact h.login fun hok => hu rfl user (by simp [loggedIn,hx,hok])
  | mail haddr hm =>
    rename_i res s
    cases res with
    | error e =>
      cases mail_error hm
      exact hidle c.sess h.queued
    | ok =>
      obtain ⟨rfl,hmay⟩ := mail_ok hm
      exact ⟨h.queued,fun _ => hmay,fun hf => by cases hf⟩
  | rcpt hfrom haddr hdsn hr =>
    rename_i addr params res s
    have hs := hr.symm.trans (Session.rcpt_join env.backend c.sess addr params)
    cases congrArg Prod.snd hs
    exact ⟨h.queued,fun _ => h.sender hfrom,fun hf => by cases hf⟩

theorem Vouched.serve (h : Vouched T c) {env : Smtp.Env Env} (hu : SenderKept T c env) :
    Vouched T (c.serve T (backend T) env) := by
  have hserve : Vouched T {c with
      sess:=(c.serve T (backend T) env).txn.sess,hasFrom:=(c.serve T (backend T) env).txn.hasFrom} := by
    rcases Conn.serve_turn T (backend T) env (c := c) with ⟨-,hsame⟩ | ⟨verb,arg,hnext,hturn⟩
    · rw [hsame]
      exact h
    have hr : Vouched T {c with r:=(readLine c.r env.commandLineLimit).2} :=
      ⟨h.queued,h.sender,h.idle⟩
    have hnew := hr.turn hturn ?_
    · exact ⟨hnew.queued,hnew.sender,hnew.idle⟩
    rintro rfl user huser
    obtain ⟨line,r,hl,hcmd⟩ := Conn.nextCommand_eq_some T env hnext
    exact hu user (by simpa [nextLogin,hl,hcmd] using huser)
  exact ⟨hserve.queued,hserve.sender,hserve.idle⟩

end Sender

/-- While logins keep the open sender, relayed mail has a sender its user may use. -/
theorem relays_as_authorized (T : Strings) (r : Wire) (tls : Bool) (turns : List (Smtp.Env Env))
    (h : Meets (Conn.serve T (backend T)) (SenderKept T) (newConn r tls Session.new) turns) :
    ∀ q∈(runSteps (Conn.serve T (backend T)) (newConn r tls Session.new) turns).sess.queued,
      q.authUser ≠ [] → ∃ a∈q.seen,Sendas.allows T a q.authUser q.sender := by
  have hstart : Vouched T (newConn r tls Session.new) :=
    ⟨fun q hq => (List.not_mem_nil hq).elim,fun hf => absurd hf Bool.false_ne_true,fun _ => rfl⟩
  have hrun := h.invariant (fun c env hc hu => hc.serve hu) hstart
  exact hrun.queued

def loginFirst : Wire :=
  ⟨lit ("EHLO x\r\nAUTH PLAIN AGV2ZQBw\r\nMAIL FROM:<eve>\r\nRCPT TO:<a@x>\r\nDATA\r\n.\r\n"),
    .eof⟩

theorem relays_as_authorized_own :
    let c := runSteps (Conn.serve .ascii (backend .ascii)) (newConn loginFirst true Session.new)
      (List.replicate 5 site)
    c.sess.queued.map (·.authUser) = [lit "eve"] ∧
      ∀ q∈c.sess.queued,q.authUser ≠ [] →
        ∃ a∈q.seen,Sendas.allows .ascii a q.authUser q.sender :=
  ⟨by decide +kernel,relays_as_authorized .ascii loginFirst true (List.replicate 5 site)
    (by decide +kernel)⟩

def loginLate : Wire :=
  ⟨lit ("EHLO x\r\nMAIL FROM:<bob@l>\r\nAUTH PLAIN AGV2ZQBw\r\nRCPT TO:<a@x>\r\nDATA\r\n.\r\n"),
    .eof⟩

/-- MAIL checks the sender, RCPT the relaying: a login between sends bob's mail for eve. -/
theorem relays_for_late_login :
    let c := runSteps (Conn.serve .ascii (backend .ascii)) (newConn loginLate true Session.new)
      (List.replicate 5 site)
    c.sess.queued.map (fun q => (q.authUser,q.sender,q.recipients.map (·.addr))) =
        [(lit "eve",lit "bob@l",[lit "a@x"])] ∧
      Sendas.allows .ascii siteAccounts (lit "eve") (lit "bob@l") = false := by
  decide +kernel

end HermEX.Mta
