import HermEX.Mta.Routing
import HermEX.Smtp.Dot
import HermEX.Smtp.Params

namespace HermEX.Mta

open Framework Directory Smtp

structure Target where
  addr : Address
  path : Path
  catchAll : Bool

structure DSNRecipient where
  addr : Address
  notify : Bytes
  orcpt : Bytes

/-- With its user and the directories its transaction saw. -/
structure Queued where
  sender : Address
  ret : Bytes
  envid : Bytes
  recipients : List DSNRecipient
  raw : Bytes
  authUser : Address
  seen : List Accounts

structure Filed where
  path : Path
  folder : Nat
  raw : Bytes
deriving DecidableEq

inductive AvDecision where
  | proceed
  | handled
  | tempFail

/-- What the backend consults for one command. -/
structure Env where
  accounts : Accounts
  spool : Bool
  enqueues : Bool
  appends : Path → Bool
  loginAllowed : Address → Bool
  intakeAllowed : Bool
  outboundAllowed : Address → Bool
  greylisted : Address → Address → Bool
  scan : (authenticated : Bool) → Address → List Address → Bytes → AvDecision
  filing : (authenticated : Bool) → Address → Target → Bytes → Bytes×Nat
  withReturnPath : Bytes → Address → Bytes

/-- `filed` and `queued` are its mail so far, `seen` the directories found. -/
structure Session where
  sender : Address
  targets : List Target
  relayTargets : List DSNRecipient
  ret : Bytes
  envid : Bytes
  authUser : Address
  authMailbox : Path
  filed : List Filed
  queued : List Queued
  seen : List Accounts

namespace Session

def new : Session := ⟨[],[],[],[],[],[],[],[],[],[]⟩

def see (s : Session) (accounts : Accounts) : Session := {s with seen:=s.seen++[accounts]}

variable (T : Strings)

def auth (env : Env) (s : Session) (username password : Bytes) : Bool×Session :=
  match env.accounts.authenticate with
  | none => (false,s)
  | some authenticate =>
    if !env.loginAllowed username then (false,s)
    else match authenticate username password with
      | none => (false,s)
      | some path =>
        if env.accounts.smtpPrivilege username then
          (true,{s.see env.accounts with authUser:=username,authMailbox:=path})
        else (false,s)

def mail (env : Env) (s : Session) (sender : Address) (params : MailParams) :
    Except SessionErr Unit×Session :=
  if s.authUser≠[] ∧ !Sendas.allows T env.accounts s.authUser sender then
    (.error (.perm (lit "5.7.1 <"++sender++lit "> is not an address you may send as")),s)
  else if s.authUser≠[] ∧ overSendQuota env.accounts sender then
    (.error (.perm (lit "5.2.2 mailbox is full (over send quota)")),s)
  else if s.authUser=[] ∧ !env.intakeAllowed then
    (.error (.temp (lit "4.7.1 too many messages, please retry later")),s)
  else (.ok (),{s.see env.accounts with
    sender:=sender,ret:=params.ret,envid:=params.envid})

def tempRouteFailure : SessionErr :=
  .temp (lit "4.3.0 temporary routing failure, please retry later")

def routeLocal (env : Env) (s : Session) (rcpt : Address) (path : Path) (catchAll : Bool) :
    Except SessionErr Unit×Session :=
  if overReceiveQuota env.accounts path then
    (.error (.perm (lit "5.2.2 mailbox is full (over receive quota)")),s)
  else if s.authUser=[] ∧ env.greylisted s.sender rcpt then
    (.error (.temp (lit "4.7.1 greylisted, please retry shortly")),s)
  else (.ok (),{s with targets:=s.targets++[⟨rcpt,path,catchAll⟩]})

def routeRecipient (env : Env) (s : Session) (rcpt : Address) (params : RcptParams) :
    Except SessionErr Unit×Session :=
  match env.accounts.resolve rcpt with
  | some path => routeLocal env s rcpt path false
  | none =>
    match env.accounts.resolveCatchAll.bind fun f => f rcpt with
    | some path => routeLocal env s rcpt path true
    | none =>
      if s.authUser=[] then
        (.error (.perm (lit "relay denied for <"++rcpt++lit ">")),s)
      else match isRelayable T env.accounts rcpt with
        | .error _ => (.error tempRouteFailure,s)
        | .ok false => (.error (.perm (lit "no such user <"++rcpt++lit ">")),s)
        | .ok true =>
          if !env.spool then
            (.error (.perm (lit "relay denied for <"++rcpt++lit ">")),s)
          else if !env.outboundAllowed s.authUser then
            (.error (.temp
              (lit "4.7.4 too many recipients in a short time, please retry later")),s)
          else (.ok (),{s with
            relayTargets:=s.relayTargets++[⟨rcpt,params.notify,params.orcpt⟩]})

def routeListMember (env : Env) (notify : Bytes) (s : Session) (m : Address) : Session :=
  match env.accounts.resolve m with
  | some path =>
    if overReceiveQuota env.accounts path then s
    else {s with targets:=s.targets++[⟨m,path,false⟩]}
  | none =>
    if env.spool ∧ isRelayable T env.accounts m=.ok true then
      {s with relayTargets:=s.relayTargets++[⟨m,notify,[]⟩]}
    else s

def rcpt (env : Env) (s : Session) (to' : Address) (params : RcptParams) :
    Except SessionErr Unit×Session :=
  match env.accounts.expandMList with
  | none => routeRecipient T env s to' params
  | some expand =>
    match expandMailingList T expand s.sender to' with
    | .error _ => (.error tempRouteFailure,s)
    | .ok .notList => routeRecipient T env s to' params
    | .ok .refused =>
      (.error (.perm (lit "5.7.1 posting to list <"++to'++lit "> is not permitted")),s)
    | .ok (.members leaves) => (.ok (),leaves.foldl (routeListMember T env params.notify) s)

def markCatchAll (t : Target) (raw : Bytes) : Bytes :=
  if t.catchAll ∧ t.addr≠[] ∧ t.addr.all (fun b => 0x20<b && b≤0x7E) then
    lit "Delivered-To: "++t.addr++[cr,lf]++raw
  else raw

def deliverTargets (env : Env) (raw : Bytes) : List Target → Session →
    Except SessionErr Unit×Session
  | [],s => (.ok (),s)
  | t::ts,s =>
    let (copy,folder) := env.filing (s.authUser≠[]) s.sender t raw
    if env.appends t.path then
      let filed := ⟨t.path,folder,env.withReturnPath (markCatchAll t copy) s.sender⟩
      deliverTargets env raw ts {s with filed:=s.filed++[filed]}
    else (.error (.temp (lit "4.3.0 could not deliver the message, please retry later")),s)

def queueRelay (env : Env) (raw : Bytes) (s : Session) : Except SessionErr Unit×Session :=
  if s.relayTargets=[] then (.ok (),s)
  else if !env.enqueues then
    (.error (.temp (lit "4.3.0 could not queue the message, please retry later")),s)
  else (.ok (),{s with
    queued:=s.queued++[⟨s.sender,s.ret,s.envid,s.relayTargets,raw,s.authUser,s.seen⟩]})

def data (env : Env) (s : Session) (body : Bytes×Option ReadErr) :
    Except SessionErr Unit×Session :=
  match body with
  | (_,some _) => (.error (.temp (lit "4.3.0 could not read the message, please retry later")),s)
  | (raw,none) =>
    let rcpts := s.targets.map (·.addr)++s.relayTargets.map (·.addr)
    match env.scan (s.authUser≠[]) s.sender rcpts raw with
    | .tempFail =>
      (.error (.temp (lit "4.7.1 virus scanner temporarily unavailable, retry later")),s)
    | .handled => (.ok (),s)
    | .proceed =>
      match deliverTargets env raw s.targets s with
      | (.error e,s) => (.error e,s)
      | (.ok (),s) => queueRelay env raw s

def reset (s : Session) : Session :=
  {s with sender:=[],targets:=[],relayTargets:=[],ret:=[],envid:=[],seen:=[]}

end Session
end HermEX.Mta
