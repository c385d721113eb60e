import Mathlib.Data.Finset.Basic
import HermEX.Mta.Intake
import HermEX.Mta.Relay

namespace HermEX.Mta

open Framework Directory Smtp

section Forwarding

variable {T : Strings}

def leavesOf (T : Strings) (accounts : Accounts) (sender rcpt : Address) : List Address :=
  match accounts.expandMList with
  | none => [rcpt]
  | some expand =>
    match expandMailingList T expand sender rcpt with
    | .error _ => [rcpt]
    | .ok .notList => [rcpt]
    | .ok .refused => []
    | .ok (.members leaves) => leaves

variable (accounts : Accounts) (sender : Address) (leaves : List Address) (a : Address)
  (spool : Bool) {env : Env}

theorem expandOne_leaves (expand : Address → Address → Except DirErr (List Address×MListResult))
    (hexpand : accounts.expandMList=some expand) (sender : Address)
    (st : List Address×List Address) (r : Address) :
    (expandOne T expand sender st r).1=st.1++leavesOf T accounts sender r := by
  simp only [expandOne,leavesOf,hexpand]
  cases expandMailingList T expand sender r with
  | error e => rfl
  | ok x => cases x <;> simp

theorem expandRecipientList_leaves (recipients : List Address) :
    (expandRecipientList T accounts sender recipients).1 =
      recipients.flatMap (leavesOf T accounts sender) := by
  cases hexpand : accounts.expandMList with
  | none =>
    have hself : leavesOf T accounts sender=fun r => [r] := by
      funext r
      simp [leavesOf,hexpand]
    simp [expandRecipientList,hexpand,hself]
  | some expand =>
    simp only [expandRecipientList,hexpand]
    induction recipients using List.reverseRecOn with
    | nil => rfl
    | append_singleton rest r ih =>
      rw [List.foldl_append,List.foldl_cons,List.foldl_nil,
        expandOne_leaves accounts expand hexpand,ih]
      simp

def Redirected (T : Strings) (accounts : Accounts) (rcpt : Address) : Prop :=
  ∃ fi,forwardOf T accounts rcpt=some fi ∧ fi.type=.redirect

theorem applyForwards_append (rest : List Address) (r : Address) :
    applyForwards T accounts (rest++[r]) =
      forwardOne T accounts (applyForwards T accounts rest) r := by
  simp [applyForwards]

theorem mem_applyForwards_locals :
    a∈(applyForwards T accounts leaves).1 ↔ a∈leaves ∧ ¬Redirected T accounts a := by
  induction leaves using List.reverseRecOn with
  | nil => simp [applyForwards]
  | append_singleton rest r ih =>
    have hstep : a∈(forwardOne T accounts (applyForwards T accounts rest) r).1 ↔
        a∈(applyForwards T accounts rest).1 ∨ a=r ∧ ¬Redirected T accounts r := by
      unfold forwardOne Redirected
      cases hf : forwardOf T accounts r with
      | none => simp
      | some fi => cases ht : fi.type <;> simp [ht]
    rw [applyForwards_append,hstep,ih,List.mem_append,List.mem_singleton]
    constructor
    · rintro (⟨h,hr⟩ | ⟨rfl,hr⟩)
      · exact ⟨.inl h,hr⟩
      · exact ⟨.inr rfl,hr⟩
    · rintro ⟨h | rfl,hr⟩
      · exact .inl ⟨h,hr⟩
      · exact .inr ⟨rfl,hr⟩

theorem mem_applyForwards_dests :
    a∈(applyForwards T accounts leaves).2 ↔
      ∃ r∈leaves,∃ fi,forwardOf T accounts r=some fi ∧ a=destOf T fi := by
  induction leaves using List.reverseRecOn with
  | nil => simp [applyForwards]
  | append_singleton rest r ih =>
    have hstep : a∈(forwardOne T accounts (applyForwards T accounts rest) r).2 ↔
        a∈(applyForwards T accounts rest).2 ∨
          ∃ fi,forwardOf T accounts r=some fi ∧ a=destOf T fi := by
      unfold forwardOne
      cases hf : forwardOf T accounts r with
      | none => simp
      | some fi =>
        by_cases hmem : destOf T fi∈(applyForwards T accounts rest).2
        · simp only [List.contains_iff_mem,hmem,Option.some.injEq,exists_eq_left']
          exact ⟨.inl,fun h => h.elim id fun h => h ▸ hmem⟩
        · simp [hmem]
    rw [applyForwards_append,hstep,ih]
    simp

def route (T : Strings) (accounts : Accounts) (spool : Bool) (a : Address) :
    Option (Path ⊕ Address) :=
  match accounts.resolve a with
  | some path => some (.inl path)
  | none => if spool && isExternal T accounts a then some (.inr a) else none

theorem route_eq_inl (a : Address) (path : Path) :
    route T accounts spool a=some (.inl path) ↔ accounts.resolve a=some path := by
  unfold route
  cases accounts.resolve a with
  | none => simp
  | some p => simp

theorem route_eq_inr (a b : Address) :
    route T accounts spool a=some (.inr b) ↔
      a=b ∧ accounts.resolve a=none ∧ spool ∧ isExternal T accounts a := by
  unfold route
  cases accounts.resolve a with
  | none =>
    simp only [Option.ite_none_right_eq_some,Option.some.injEq,Sum.inr.injEq,Bool.and_eq_true]
    exact ⟨fun h => ⟨h.2,trivial,h.1⟩,fun h => ⟨h.2.2,h.1⟩⟩
  | some p => simp

attribute [local simp] allMailings

theorem mem_filed (ds : List Address) (path : Path) :
    path∈(allMailings T accounts spool ds).filed ↔
      ∃ a∈ds,route T accounts spool a=some (.inl path) := by
  simp [boxes,route_eq_inl]

theorem mem_queued (ds : List Address) (b : Address) :
    b∈(allMailings T accounts spool ds).queued ↔ ∃ a∈ds,route T accounts spool a=some (.inr b) := by
  simp only [allMailings,route_eq_inr,externals,unresolvedOf]
  cases spool with
  | false => simp
  | true =>
    simp only [if_true,List.mem_filter,Option.isNone_iff_eq_none,true_and]
    constructor
    · rintro ⟨⟨hmem,hres⟩,hext⟩
      exact ⟨b,hmem,rfl,hres,hext⟩
    · rintro ⟨a,hmem,rfl,hres,hext⟩
      exact ⟨⟨hmem,hres⟩,hext⟩

def SameMail (m n : Mailings) : Prop :=
  m.filed.toFinset=n.filed.toFinset ∧ m.queued.toFinset=n.queued.toFinset

instance (m n : Mailings) : Decidable (SameMail m n) := inferInstanceAs (Decidable (_ ∧ _))

theorem sameMail_iff (as bs : List Address) :
    SameMail (allMailings T accounts spool as) (allMailings T accounts spool bs) ↔
      ∀ x,(∃ a∈as,route T accounts spool a=some x) ↔ ∃ b∈bs,route T accounts spool b=some x := by
  simp only [SameMail,Finset.ext_iff,List.mem_toFinset,mem_filed,mem_queued]
  constructor
  · rintro ⟨hfiled,hqueued⟩ x
    cases x with
    | inl path => exact hfiled path
    | inr b => exact hqueued b
  · exact fun h => ⟨fun path => h (.inl path),fun b => h (.inr b)⟩

/-- It answers everything, without catch-alls or full mailboxes. -/
structure Steady (accounts : Accounts) : Prop where
  domains : ∀ f,accounts.isLocalDomain=some f → ∀ d,∃ b,f d=.ok b
  hosts : ∀ f,accounts.splitRelayHost=some f → ∀ d,∃ host,f d=.ok host
  lists : ∀ f,accounts.expandMList=some f → ∀ a sender,∃ r,f a sender=.ok r
  catchAll : ∀ f,accounts.resolveCatchAll=some f → ∀ a,f a=none
  quota : ∀ path,overReceiveQuota accounts path=false

theorem Steady.isExternalDomain {accounts : Accounts} (h : Steady accounts) (a : Address) :
    ∃ b,isExternalDomain accounts a=.ok b := by
  unfold Mta.isExternalDomain
  cases hf : accounts.isLocalDomain with
  | none => exact ⟨_,rfl⟩
  | some f =>
    cases hc : cutLast 0x40 a with
    | none => exact ⟨_,rfl⟩
    | some p =>
      obtain ⟨user,domain⟩ := p
      cases domain with
      | nil => exact ⟨_,rfl⟩
      | cons c rest =>
        obtain ⟨b,hb⟩ := h.domains f hf (c::rest)
        exact ⟨!b,by simp [hb,Except.map]⟩

theorem Steady.isRelayable {accounts : Accounts} (h : Steady accounts) (a : Address) :
    isRelayable T accounts a=.ok (isExternal T accounts a) := by
  suffices hok : ∃ b,Mta.isRelayable T accounts a=.ok b by
    obtain ⟨b,hb⟩ := hok
    cases b <;> simp [isExternal,hb]
  obtain ⟨b,hb⟩ := h.isExternalDomain a
  unfold Mta.isRelayable
  rw [hb]
  cases b with
  | true => exact ⟨_,rfl⟩
  | false =>
    cases hf : accounts.splitRelayHost with
    | none => exact ⟨_,rfl⟩
    | some f =>
      cases hc : cutLast 0x40 a with
      | none => exact ⟨_,rfl⟩
      | some p =>
        obtain ⟨host,hhost⟩ := h.hosts f hf p.2
        by_cases hp : p.1=[] || T.equalFold p.1 (lit "postmaster")
        · exact ⟨_,if_pos hp⟩
        · exact ⟨_,(if_neg hp).trans (by rw [hhost]; rfl)⟩

theorem Steady.expandMailingList {accounts : Accounts} (h : Steady accounts)
    {expand : Address → Address → Except DirErr (List Address×MListResult)}
    (hexpand : accounts.expandMList=some expand) (sender a : Address) :
    ∃ x,expandMailingList T expand sender a=.ok x := by
  obtain ⟨⟨members,res⟩,hr⟩ := h.lists expand hexpand a sender
  unfold Mta.expandMailingList
  rw [hr]
  cases res <;> exact ⟨_,rfl⟩

/-- The transaction has gained what the addresses lead to. -/
structure Routed (T : Strings) (env : Env) (as : List Address) (s s' : Session) : Prop where
  targets : s'.targets.map (·.path)=s.targets.map (·.path)++boxes env.accounts as
  relays : s'.relayTargets.map (·.addr) =
    s.relayTargets.map (·.addr)++(allMailings T env.accounts env.spool as).queued
  sender : s'.sender=s.sender
  authUser : s'.authUser=s.authUser
  filed : s'.filed=s.filed
  queued : s'.queued=s.queued

attribute [local simp] unresolvedOf

theorem Routed.nil (env : Env) (s : Session) : Routed T env [] s s := by
  refine ⟨?_,?_,rfl,rfl,rfl,rfl⟩
  · simp [boxes]
  · simp [externals]

theorem Routed.append {as bs : List Address} {s s' s'' : Session} (h : Routed T env as s s')
    (h' : Routed T env bs s' s'') : Routed T env (as++bs) s s'' := by
  refine ⟨?_,?_,h'.sender.trans h.sender,h'.authUser.trans h.authUser,h'.filed.trans h.filed,
    h'.queued.trans h.queued⟩
  · rw [h'.targets,h.targets]
    simp [boxes]
  · rw [h'.relays,h.relays]
    cases hspool : env.spool <;> simp [externals]

theorem routed_target (env : Env) (s : Session) {a : Address} {path : Path}
    (ha : env.accounts.resolve a=some path) :
    Routed T env [a] s {s with targets:=s.targets++[⟨a,path,false⟩]} := by
  refine ⟨?_,?_,rfl,rfl,rfl,rfl⟩
  · simp [boxes,ha]
  · simp [externals,ha]

theorem routed_relay (env : Env) (s : Session) {a : Address} (notify orcpt : Bytes)
    (ha : env.accounts.resolve a=none) (hspool : env.spool=true)
    (hext : isExternal T env.accounts a=true) :
    Routed T env [a] s {s with relayTargets:=s.relayTargets++[⟨a,notify,orcpt⟩]} := by
  refine ⟨?_,?_,rfl,rfl,rfl,rfl⟩
  · simp [boxes,ha]
  · simp [externals,ha,hspool,hext]

theorem routed_nowhere (env : Env) (s : Session) {a : Address}
    (ha : env.accounts.resolve a=none)
    (hstay : env.spool=false ∨ isExternal T env.accounts a=false) : Routed T env [a] s s := by
  refine ⟨?_,?_,rfl,rfl,rfl,rfl⟩
  · simp [boxes,ha]
  cases hspool : env.spool with
  | false => simp
  | true =>
    have hext := hstay.resolve_left (by simp [hspool])
    simp [externals,hext]

theorem routeListMember_routed (h : Steady env.accounts) (notify : Bytes) (s : Session)
    (m : Address) : Routed T env [m] s (s.routeListMember T env notify m) := by
  unfold Session.routeListMember
  cases hm : env.accounts.resolve m with
  | some path =>
    simp only [h.quota]
    exact routed_target env s hm
  | none =>
    simp only [h.isRelayable,Except.ok.injEq]
    split_ifs with hgo
    · exact routed_relay env s notify [] hm hgo.1 hgo.2
    · apply routed_nowhere env s hm
      cases hspool : env.spool with
      | false => exact .inl rfl
      | true => simpa [hspool] using hgo

theorem routeListMembers_routed (h : Steady env.accounts) (notify : Bytes) (leaves : List Address)
    (s : Session) :
    Routed T env leaves s (leaves.foldl (Session.routeListMember T env notify) s) := by
  induction leaves generalizing s with
  | nil => exact Routed.nil env s
  | cons m rest ih => exact (routeListMember_routed h notify s m).append (ih _)

theorem routeRecipient_routed (h : Steady env.accounts) (hout : ∀ u,env.outboundAllowed u=true)
    (s : Session) (hauth : s.authUser≠[]) (a : Address) (params : RcptParams) :
    Routed T env [a] s (s.routeRecipient T env a params).2 := by
  unfold Session.routeRecipient
  cases ha : env.accounts.resolve a with
  | some path =>
    simp only [Session.routeLocal,h.quota,hauth]
    exact routed_target env s ha
  | none =>
    have hcatch : (env.accounts.resolveCatchAll.bind fun f => f a)=none := by
      cases hf : env.accounts.resolveCatchAll with
      | none => rfl
      | some f => exact h.catchAll f hf a
    simp only [hcatch,hauth,h.isRelayable]
    cases hext : isExternal T env.accounts a with
    | false => exact routed_nowhere env s ha (.inr hext)
    | true =>
      cases hspool : env.spool with
      | false => exact routed_nowhere env s ha (.inl hspool)
      | true =>
        simp only [hout]
        exact routed_relay env s params.notify params.orcpt ha hspool hext

theorem rcpt_routed (h : Steady env.accounts) (hout : ∀ u,env.outboundAllowed u=true)
    (s : Session) (hauth : s.authUser≠[]) (a : Address) (params : RcptParams) :
    Routed T env (leavesOf T env.accounts s.sender a) s (s.rcpt T env a params).2 := by
  unfold Session.rcpt leavesOf
  cases hf : env.accounts.expandMList with
  | none => exact routeRecipient_routed h hout s hauth a params
  | some expand =>
    obtain ⟨x,hx⟩ := h.expandMailingList (T := T) hf s.sender a
    simp only [hx]
    cases x with
    | notList => exact routeRecipient_routed h hout s hauth a params
    | refused => exact Routed.nil env s
    | members leaves => exact routeListMembers_routed h params.notify leaves s

def Session.rcpts (T : Strings) (env : Env) (recipients : List (Address×RcptParams))
    (s : Session) : Session :=
  recipients.foldl (fun s r => (s.rcpt T env r.1 r.2).2) s

theorem rcpts_routed (h : Steady env.accounts) (hout : ∀ u,env.outboundAllowed u=true)
    (recipients : List (Address×RcptParams)) (s : Session) (hauth : s.authUser≠[]) :
    Routed T env (expandRecipientList T env.accounts s.sender (recipients.map (·.1))).1 s
      (s.rcpts T env recipients) := by
  rw [expandRecipientList_leaves]
  induction recipients generalizing s with
  | nil => exact Routed.nil env s
  | cons r rest ih =>
    have hone := rcpt_routed (T := T) h hout s hauth r.1 r.2
    have hrest := ih (s.rcpt T env r.1 r.2).2 (hone.authUser ▸ hauth)
    rw [hone.sender] at hrest
    exact hone.append hrest

def Session.mailings (s : Session) : Mailings :=
  ⟨s.filed.map (·.path),s.queued.flatMap fun q => q.recipients.map (·.addr)⟩

def Session.submit (T : Strings) (env : Env) (s : Session)
    (recipients : List (Address×RcptParams)) (raw : Bytes) : Session :=
  ((s.rcpts T env recipients).data env (raw,none)).2

/-- Nothing refuses a message, and stores and spool work. -/
structure Open (env : Env) (api : SendEnv) (sender : Address) : Prop where
  accounts : api.accounts=env.accounts
  spool : api.spool=env.spool
  outbound : ∀ u,env.outboundAllowed u=true
  scan : ∀ authenticated sender rcpts raw,env.scan authenticated sender rcpts raw=.proceed
  stores : ∀ path,env.appends path=true
  enqueues : env.enqueues=true
  checks : ¬Refuses api sender
  appends : ∀ i,api.appends i=.done
  enqueue : api.enqueue=.done

theorem deliverTargets_filed (hstores : ∀ path,env.appends path=true) (raw : Bytes)
    (ts : List Target) (s : Session) :
    ∃ filed,Session.deliverTargets env raw ts s=(.ok (),{s with filed:=s.filed++filed}) ∧
      filed.map (·.path)=ts.map (·.path) := by
  induction ts generalizing s with
  | nil => exact ⟨[],by simp [Session.deliverTargets],rfl⟩
  | cons t ts ih =>
    simp only [Session.deliverTargets,hstores]
    let copy := env.filing (s.authUser≠[]) s.sender t raw
    let mail : Filed := ⟨t.path,copy.2,env.withReturnPath (Session.markCatchAll t copy.1) s.sender⟩
    obtain ⟨filed,hrun,hpaths⟩ := ih {s with filed:=s.filed++[mail]}
    refine ⟨mail::filed,hrun.trans ?_,?_⟩
    · rw [List.append_assoc,List.singleton_append]
    · rw [List.map_cons,List.map_cons,hpaths]

theorem submit_mailings {api : SendEnv} {s : Session} (h : Steady env.accounts)
    (ho : Open env api s.sender) (hauth : s.authUser≠[]) (hempty : s.targets=[])
    (hnone : s.relayTargets=[]) (hnew : s.mailings=⟨[],[]⟩)
    (recipients : List (Address×RcptParams)) (raw : Bytes) :
    (s.submit T env recipients raw).mailings =
      allMailings T env.accounts env.spool
        (expandRecipientList T env.accounts s.sender (recipients.map (·.1))).1 := by
  have hr := rcpts_routed (T := T) h ho.outbound recipients s hauth
  obtain ⟨filed,hrun,hpaths⟩ := deliverTargets_filed ho.stores raw
    (s.rcpts T env recipients).targets (s.rcpts T env recipients)
  have hfiled := hr.targets
  have hrelay := hr.relays
  simp only [hempty,hnone] at hfiled hrelay
  simp only [Session.mailings,Mailings.mk.injEq,List.map_eq_nil_iff] at hnew
  simp only [Session.submit,Session.data,ho.scan,hrun,Session.queueRelay,ho.enqueues,
    Bool.not_true,Bool.false_eq_true,if_false]
  split_ifs with hq
  · simp only [Session.mailings,hr.filed,hr.queued,hnew.1,hnew.2,List.nil_append,hpaths,hfiled]
    rw [hq,List.map_nil] at hrelay
    exact congrArg (Mailings.mk _) hrelay
  · simp only [Session.mailings,hr.filed,hr.queued,hnew.1,List.nil_append,hpaths,hfiled,
      List.flatMap_append,hnew.2,List.flatMap_cons,List.flatMap_nil,List.append_nil]
    exact congrArg (Mailings.mk _) hrelay

theorem sendAndRelay_mailings {api : SendEnv} {sender : Address} (ho : Open env api sender)
    (recipients : List Address) :
    ((sendAndRelay T api sender recipients).run ⟨[],[]⟩).2 =
      allMailings T env.accounts env.spool (deliverySet T env.accounts sender recipients) := by
  have h := sendAndRelay_triple (T := T) api sender recipients ⟨[],[]⟩ rfl
  rw [ho.accounts,ho.spool] at h
  have hstop : ∀ f,f ≠ .done → ∀ ds m,¬StoppedBy T api f ds m := by
    rintro f hf ds m (⟨i,-,-,-,hi,-⟩ | ⟨-,-,-,he,-⟩)
    · exact hf (hi.symm.trans (ho.appends i))
    · exact hf (he.symm.trans ho.enqueue)
  unfold Faulty.run
  generalize sendAndRelay T api sender recipients ⟨[],[]⟩=r at h ⊢
  obtain ⟨res,m⟩ := r
  cases res with
  | ok a => exact h.2.2
  | error e =>
    cases e with
    | failed e =>
      obtain ⟨hrefuses,-⟩ | ⟨-,h | h⟩ := h
      · exact absurd hrefuses ho.checks
      · exact absurd h (hstop .fails (by decide) _ _)
      · exact absurd h (hstop .late (by decide) _ _)
    | crashed => exact absurd h.2 (hstop .crash (by decide) _ _)

def RedirectsAway (T : Strings) (accounts : Accounts) (leaves : List Address) (m : Mailings) :
    Prop :=
  ∀ r∈leaves,Redirected T accounts r → ∀ path,accounts.resolve r=some path → path∈m.filed →
    ∃ d∈(applyForwards T accounts leaves).2,accounts.resolve d=some path

/-- Each forward leads where a recipient does, and the reverse for redirects. -/
def ForwardsIdle (T : Strings) (accounts : Accounts) (spool : Bool) (leaves : List Address) :
    Prop :=
  ∀ r∈leaves,∀ fi,forwardOf T accounts r=some fi →
    (∀ x,route T accounts spool (destOf T fi)=some x → ∃ a∈leaves,route T accounts spool a=some x) ∧
    (fi.type=.redirect → ∀ x,route T accounts spool r=some x →
      ∃ d∈(applyForwards T accounts leaves).2,route T accounts spool d=some x)

theorem forwarded_sameMail_iff (leaves : List Address) :
    let direct := allMailings T accounts spool leaves
    let forwarded := allMailings T accounts spool
      ((applyForwards T accounts leaves).1++(applyForwards T accounts leaves).2)
    SameMail direct forwarded ∧ RedirectsAway T accounts leaves direct ∧
        RedirectsAway T accounts leaves forwarded ↔
      ForwardsIdle T accounts spool leaves := by
  intro direct forwarded
  rw [sameMail_iff]
  simp only [List.mem_append,mem_applyForwards_locals,or_and_right,exists_or,and_assoc]
  constructor
  · rintro ⟨hsame,haway,-⟩ r hr fi hfi
    have hdest : destOf T fi∈(applyForwards T accounts leaves).2 :=
      (mem_applyForwards_dests _ _ _).mpr ⟨r,hr,fi,hfi,rfl⟩
    refine ⟨fun x hx => (hsame x).mpr (.inr ⟨_,hdest,hx⟩),fun ht x hx => ?_⟩
    have hred : Redirected T accounts r := ⟨fi,hfi,ht⟩
    cases x with
    | inl path =>
      have hpath := (route_eq_inl _ _ _ _).mp hx
      have hfiled : path∈direct.filed := (mem_filed _ _ _ _).mpr ⟨r,hr,hx⟩
      obtain ⟨d,hd,hres⟩ := haway r hr hred path hpath hfiled
      exact ⟨d,hd,(route_eq_inl _ _ _ _).mpr hres⟩
    | inr b =>
      -- An external address is reached through itself only, and a redirected one keeps no copy.
      rcases (hsame (.inr b)).mp ⟨r,hr,hx⟩ with ⟨a,-,hkeep,ha⟩ | hd
      · have har : a=r :=
          ((route_eq_inr _ _ _ _).mp ha).1.trans ((route_eq_inr _ _ _ _).mp hx).1.symm
        exact absurd (har ▸ hred) hkeep
      · exact hd
  · intro hidle
    have hred : ∀ r∈leaves,Redirected T accounts r → ∀ x,route T accounts spool r=some x →
        ∃ d∈(applyForwards T accounts leaves).2,route T accounts spool d=some x := by
      rintro r hr ⟨fi,hfi,ht⟩
      exact (hidle r hr fi hfi).2 ht
    have haway : ∀ m,RedirectsAway T accounts leaves m := by
      intro m r hr hrd path hpath _
      obtain ⟨d,hd,hx⟩ := hred r hr hrd (.inl path) ((route_eq_inl _ _ _ _).mpr hpath)
      exact ⟨d,hd,(route_eq_inl _ _ _ _).mp hx⟩
    refine ⟨fun x => ⟨?_,?_⟩,haway _,haway _⟩
    · rintro ⟨a,ha,hx⟩
      by_cases hrd : Redirected T accounts a
      · exact .inr (hred a ha hrd x hx)
      · exact .inl ⟨a,ha,hrd,hx⟩
    · rintro (⟨a,ha,-,hx⟩ | ⟨d,hd,hx⟩)
      · exact ⟨a,ha,hx⟩
      · obtain ⟨r,hr,fi,hfi,rfl⟩ := (mem_applyForwards_dests _ _ _).mp hd
        exact (hidle r hr fi hfi).1 x hx

/-- SMTP and the programming interface reach the same addresses just when no forward has effect. -/
theorem forwards_apply_on_every_route (env : Env) (api : SendEnv) (s : Session)
    (h : Steady env.accounts) (ho : Open env api s.sender) (hauth : s.authUser ≠ [])
    (hempty : s.targets = []) (hnone : s.relayTargets = []) (hnew : s.mailings = ⟨[],[]⟩)
    (recipients : List (Address × RcptParams)) (raw : Bytes) :
    let leaves := (expandRecipientList T env.accounts s.sender (recipients.map (·.1))).1
    let submitted := (s.submit T env recipients raw).mailings
    let sent := ((sendAndRelay T api s.sender (recipients.map (·.1))).run ⟨[],[]⟩).2
    SameMail submitted sent ∧ RedirectsAway T env.accounts leaves submitted ∧
        RedirectsAway T env.accounts leaves sent ↔
      ForwardsIdle T env.accounts env.spool leaves := by
  have hsubmitted := submit_mailings (T := T) h ho hauth hempty hnone hnew recipients raw
  have hsent := sendAndRelay_mailings (T := T) ho (recipients.map (·.1))
  simp only [hsubmitted,hsent]
  exact forwarded_sameMail_iff env.accounts env.spool _

end Forwarding

def forwardAccounts (type : ForwardType) : Accounts :=
  {siteAccounts with
    resolve:=fun a =>
      if a=lit "alice@l" then some (lit "/alice")
      else if a=lit "carol@l" then some (lit "/carol") else none
    getForward:=some fun a => .ok (if a=lit "alice@l" then some ⟨type,lit "carol@l"⟩ else none)}

def forwardEnv (type : ForwardType) : Env := {siteEnv with accounts:=forwardAccounts type}

def forwardSend (type : ForwardType) : SendEnv :=
  ⟨forwardAccounts type,true,false,false,false,fun _ => .done,.done,false⟩

def carolSession : Session := {Session.new with sender:=lit "carol@l",authUser:=lit "carol@l"}

theorem steady_forwardAccounts (type : ForwardType) : Steady (forwardAccounts type) := by
  refine ⟨?_,?_,?_,?_,fun _ => rfl⟩
  · rintro f hf d
    cases hf
    exact ⟨_,rfl⟩
  all_goals
    rintro f hf
    cases hf

theorem open_forwardEnv (type : ForwardType) :
    Open (forwardEnv type) (forwardSend type) carolSession.sender := by
  refine ⟨rfl,rfl,fun _ => rfl,fun _ _ _ _ => rfl,fun _ => rfl,rfl,?_,fun _ => rfl,rfl⟩
  have hquota : overSendQuota (forwardAccounts type) carolSession.sender=false := rfl
  simp [Refuses,forwardSend,hquota]

theorem forwards_apply_on_every_route_copy :
    let recipients : List (Address × RcptParams) := [(lit "alice@l",⟨[],[]⟩),(lit "carol@l",⟨[],[]⟩)]
    ForwardsIdle .ascii (forwardAccounts .cc) true [lit "alice@l",lit "carol@l"] ∧
      SameMail (carolSession.submit .ascii (forwardEnv .cc) recipients (lit "hi")).mailings
        ((sendAndRelay .ascii (forwardSend .cc) carolSession.sender
          (recipients.map (·.1))).run ⟨[],[]⟩).2 := by
  have hidle : ForwardsIdle .ascii (forwardAccounts .cc) true [lit "alice@l",lit "carol@l"] := by
    intro r hr fi hfi
    have hcc : fi=⟨.cc,lit "carol@l"⟩ := by
      have hall : ∀ r∈[lit "alice@l",lit "carol@l"],
          ∀ fi∈forwardOf .ascii (forwardAccounts .cc) r,fi=⟨.cc,lit "carol@l"⟩ := by decide
      exact hall r hr fi hfi
    subst hcc
    refine ⟨fun x hx => ⟨lit "carol@l",by decide,hx⟩,fun ht => ?_⟩
    cases ht
  exact ⟨hidle,((forwards_apply_on_every_route (forwardEnv .cc) (forwardSend .cc) carolSession
    (steady_forwardAccounts .cc) (open_forwardEnv .cc) (by decide) rfl rfl rfl _ _).mpr hidle).1⟩

/-- Alice redirects to carol: over SMTP the message is filed with alice only. -/
theorem forwards_skipped_by_submission :
    Steady (forwardAccounts .redirect) ∧
    Open (forwardEnv .redirect) (forwardSend .redirect) carolSession.sender ∧
    (carolSession.submit .ascii (forwardEnv .redirect) [(lit "alice@l",⟨[],[]⟩)]
      (lit "hi")).mailings = ⟨[lit "/alice"],[]⟩ ∧
    ((sendAndRelay .ascii (forwardSend .redirect) carolSession.sender [lit "alice@l"]).run
      ⟨[],[]⟩).2 = ⟨[lit "/carol"],[]⟩ :=
  ⟨steady_forwardAccounts .redirect,open_forwardEnv .redirect,by decide,by decide⟩

end HermEX.Mta
