import HermEX.Framework.Snapshots
import HermEX.Framework.Text
import HermEX.Framework.Runs
import Mathlib.Logic.Function.Basic

namespace HermEX.Rpchttp

open Framework

structure Identity where
  user : Bytes
  mailbox : Bytes
deriving DecidableEq

inductive ChannelKind where
  | inData
  | outData
deriving DecidableEq

inductive OutPdu where
  | connC2 (window : Nat)
  | reply (pdu : Bytes)

/-- Its session has the identity it was created with. -/
structure Vconn where
  sess : Identity
  out : List OutPdu
  closed : Bool
  inReady : Bool
  outReady : Bool
  c2Sent : Bool
  windowSize : Nat

def newVconn (who : Identity) : Vconn := ⟨who,[],false,false,false,false,0⟩

/-- What it joined, if it is attached, and what it has to queue. -/
structure Channel where
  kind : ChannelKind
  who : Identity
  key : Bytes
  vc : Nat
  window : Nat
  attached : Bool
  replies : List OutPdu

/-- Whose channel and whose session it was. -/
structure Passed where
  channel : Identity
  session : Identity
deriving DecidableEq

/-- Numbered connections and channels, and what has passed. -/
structure Transport where
  conns : Snapshot Bytes Nat
  vconns : Nat → Vconn
  nextVconn : Nat
  channels : Nat → Option Channel
  nextChannel : Nat
  dispatched : List Passed
  streamed : List Passed

def Transport.start : Transport := ⟨.empty,fun _ => newVconn ⟨[],[]⟩,0,fun _ => none,0,[],[]⟩

def maxVirtualConnections : Nat := 4096

def outCapacity : Nat := 16

def parseProxyURL (q : Bytes) : Option (Bytes×Bytes) :=
  (cutLast 0x3A q).filter fun r => r.1≠[] && r.2≠[]

def vconnKey (T : Strings) (connCookie host port : Bytes) : Bytes :=
  T.toLower (connCookie++lit ":" ++ port++lit ":" ++ host)

structure Opening where
  kind : ChannelKind
  who : Identity
  query : Bytes
  connCookie : Bytes
  windowSize : Nat

inductive TransportEvent where
  | openChannel (o : Opening)
  | attach (ch : Nat)
  | read (ch : Nat) (pdu : Bytes) (replies : List Bytes)
  | send (ch : Nat)
  | abandon (ch : Nat)
  | deferred (vc : Nat) (pdu : Bytes)
  | stream (ch : Nat)
  | teardown (ch : Nat)
  | leave (ch : Nat)

namespace Transport

def setVconn (s : Transport) (n : Nat) (vc : Vconn) : Transport :=
  {s with vconns:=Function.update s.vconns n vc}

def setChannel (s : Transport) (n : Nat) (ch : Option Channel) : Transport :=
  {s with channels:=Function.update s.channels n ch}

def joins (s : Transport) (key : Bytes) : Option Nat :=
  (s.conns.value key).filter fun n => !(s.vconns n).closed

def getOrCreate (s : Transport) (key : Bytes) (who : Identity) : Option (Nat×Transport) :=
  (s.joins key).elim
    (if s.conns.value key=none ∧ s.conns.rows.length ≥ maxVirtualConnections then none
    else some (s.nextVconn,{s.setVconn s.nextVconn (newVconn who) with
      conns:=s.conns.set key s.nextVconn
      nextVconn:=s.nextVconn+1}))
    fun n => some (n,s)

def markReady (vc : Vconn) (kind : ChannelKind) : Vconn×Bool :=
  let vc := if kind=.inData then {vc with inReady:=true} else {vc with outReady:=true}
  if vc.inReady ∧ vc.outReady ∧ vc.c2Sent=false then ({vc with c2Sent:=true},true) else (vc,false)

def attach (s : Transport) (n : Nat) : Transport :=
  (s.channels n).elim s fun ch =>
    if ch.attached then s
    else
      let vc := s.vconns ch.vc
      let ready := markReady (if ch.kind=.outData then {vc with windowSize:=ch.window} else vc)
        ch.kind
      let c2 := if ready.2 then [.connC2 ready.1.windowSize] else []
      (s.setVconn ch.vc ready.1).setChannel n (some {ch with attached:=true,replies:=c2})

def join (s : Transport) (o : Opening) (key : Bytes) (n : Nat) : Transport :=
  {s.setChannel s.nextChannel (some ⟨o.kind,o.who,key,n,o.windowSize,false,[]⟩) with
    nextChannel:=s.nextChannel+1}

def openKey (T : Strings) (o : Opening) : Option Bytes :=
  (parseProxyURL o.query).map fun r => vconnKey T o.connCookie r.1 r.2

def openChannel (T : Strings) (s : Transport) (o : Opening) : Transport :=
  (openKey T o).elim s fun key => (s.getOrCreate key o.who).elim s fun r => r.2.join o key r.1

def read (s : Transport) (n : Nat) (replies : List Bytes) : Transport :=
  (s.channels n).elim s fun ch =>
    if ch.kind=.inData ∧ ch.attached=true ∧ ch.replies=[] then
      {s.setChannel n (some {ch with replies:=replies.map .reply}) with
        dispatched:=s.dispatched++[⟨ch.who,(s.vconns ch.vc).sess⟩]}
    else s

def queue (s : Transport) (n : Nat) (pdu : OutPdu) : Transport :=
  s.setVconn n {s.vconns n with out:=(s.vconns n).out++[pdu]}

def hasRoom (s : Transport) (n : Nat) : Bool := (s.vconns n).out.length<outCapacity

def send (s : Transport) (n : Nat) : Transport :=
  (s.channels n).elim s fun ch =>
    ch.replies.head?.elim s fun pdu =>
      if s.hasRoom ch.vc then
        (s.queue ch.vc pdu).setChannel n (some {ch with replies:=ch.replies.tail})
      else s

def abandon (s : Transport) (n : Nat) : Transport :=
  (s.channels n).elim s fun ch =>
    if (s.vconns ch.vc).closed then s.setChannel n (some {ch with replies:=ch.replies.tail}) else s

def stream (s : Transport) (n : Nat) : Transport :=
  (s.channels n).elim s fun ch =>
    if ch.kind=.outData ∧ ch.attached=true ∧ ch.replies=[] ∧ (s.vconns ch.vc).out≠[] then
      {s.setVconn ch.vc {s.vconns ch.vc with out:=(s.vconns ch.vc).out.tail} with
        streamed:=s.streamed++[⟨ch.who,(s.vconns ch.vc).sess⟩]}
    else s

def teardown (s : Transport) (n : Nat) : Transport :=
  (s.channels n).elim s fun ch =>
    let conns := if s.conns.value ch.key=some ch.vc then s.conns.remove ch.key else s.conns
    {(s.setVconn ch.vc {s.vconns ch.vc with closed:=true}).setChannel n none with conns:=conns}

def leave (s : Transport) (n : Nat) : Transport :=
  (s.channels n).elim s fun ch =>
    if ch.kind=.outData ∧ (s.vconns ch.vc).closed=true then s.setChannel n none else s

def step (T : Strings) (s : Transport) : TransportEvent → Transport
  | .openChannel o => s.openChannel T o
  | .attach ch => s.attach ch
  | .read ch _ replies => s.read ch replies
  | .send ch => s.send ch
  | .abandon ch => s.abandon ch
  | .deferred vc pdu => if vc < s.nextVconn ∧ s.hasRoom vc then s.queue vc (.reply pdu) else s
  | .stream ch => s.stream ch
  | .teardown ch => s.teardown ch
  | .leave ch => s.leave ch

/-- Identities are kept, and what passes was joined. -/
structure Keeps (s s' : Transport) : Prop where
  next : s'.nextVconn=s.nextVconn
  sess : ∀ n,(s'.vconns n).sess=(s.vconns n).sess
  conns : ∀ key n,s'.conns.value key=some n → s.conns.value key=some n
  channels : ∀ i ch',s'.channels i=some ch' →
    ∃ ch,s.channels i=some ch ∧ ch.who=ch'.who ∧ ch.vc=ch'.vc
  passed : ∀ e∈s'.dispatched++s'.streamed,e∈s.dispatched++s.streamed ∨
    ∃ i ch,s.channels i=some ch ∧ e=⟨ch.who,(s.vconns ch.vc).sess⟩

variable {s s' s'' : Transport} {n : Nat}

theorem Keeps.trans (h : Keeps s s') (k : Keeps s' s'') : Keeps s s'' where
  next := k.next.trans h.next
  sess n := (k.sess n).trans (h.sess n)
  conns key n hn := h.conns key n (k.conns key n hn)
  channels i ch'' h'' := by
    obtain ⟨ch',h',hwho',hvc'⟩ := k.channels i ch'' h''
    obtain ⟨ch,hch,hwho,hvc⟩ := h.channels i ch' h'
    exact ⟨ch,hch,hwho.trans hwho',hvc.trans hvc'⟩
  passed e he := by
    rcases k.passed e he with he | ⟨i,ch',hch',rfl⟩
    · exact h.passed e he
    · obtain ⟨ch,hch,hwho,hvc⟩ := h.channels i ch' hch'
      refine .inr ⟨i,ch,hch,?_⟩
      rw [hwho,hvc,h.sess]

theorem sess_markReady (vc : Vconn) (kind : ChannelKind) : (markReady vc kind).1.sess=vc.sess := by
  rw [markReady]
  split_ifs <;> rfl

section Keeps

variable (s)

theorem Keeps.refl : Keeps s s :=
  ⟨rfl,fun _ => rfl,fun _ _ h => h,fun _ ch h => ⟨ch,h,rfl,rfl⟩,fun _ h => .inl h⟩

theorem keeps_setVconn {vc : Vconn} (h : vc.sess=(s.vconns n).sess) :
    Keeps s (s.setVconn n vc) := by
  refine ⟨rfl,fun m => ?_,fun _ _ h => h,fun _ ch h => ⟨ch,h,rfl,rfl⟩,fun _ h => .inl h⟩
  by_cases hm : m=n
  · subst hm
    simpa [setVconn] using h
  · simp [setVconn,hm]

theorem keeps_setChannel {ch : Channel} (h : s.channels n=some ch) {ch' : Option Channel}
    (hwho : ∀ c∈ch',c.who=ch.who ∧ c.vc=ch.vc) :
    Keeps s (s.setChannel n ch') := by
  refine ⟨rfl,fun _ => rfl,fun _ _ h => h,fun i c hc => ?_,fun _ h => .inl h⟩
  by_cases hi : i=n
  · subst hi
    simp only [setChannel,Function.update_self] at hc
    obtain ⟨hw,hv⟩ := hwho c hc
    exact ⟨ch,h,hw.symm,hv.symm⟩
  · simp only [setChannel,Function.update_of_ne hi] at hc
    exact ⟨c,hc,rfl,rfl⟩

theorem keeps_both {m : Nat} {vc : Vconn} (hsess : vc.sess=(s.vconns m).sess) {ch : Channel}
    (h : s.channels n=some ch) {ch' : Option Channel} (hwho : ∀ c∈ch',c.who=ch.who ∧ c.vc=ch.vc) :
    Keeps s ((s.setVconn m vc).setChannel n ch') := by
  have hch : (s.setVconn m vc).channels n=some ch := h
  exact (keeps_setVconn s hsess).trans (keeps_setChannel _ hch hwho)

theorem keeps_elim {s : Transport} {f : Channel → Transport}
    (h : ∀ ch,s.channels n=some ch → Keeps s (f ch)) : Keeps s ((s.channels n).elim s f) := by
  cases hch : s.channels n with
  | none => exact Keeps.refl s
  | some ch => exact h ch hch

theorem keeps_attach (n : Nat) : Keeps s (s.attach n) := by
  refine keeps_elim fun ch hch => ?_
  by_cases hattached : ch.attached=true
  · rw [if_pos hattached]
    exact Keeps.refl s
  · rw [if_neg hattached]
    refine keeps_both s ?_ hch ?_
    · rw [sess_markReady]
      split_ifs <;> rfl
    · intro c hc
      cases hc
      exact ⟨rfl,rfl⟩

theorem keeps_read (n : Nat) (replies : List Bytes) : Keeps s (s.read n replies) := by
  refine keeps_elim fun ch hch => ?_
  split_ifs
  · have hset : Keeps s (s.setChannel n (some {ch with replies:=replies.map .reply})) := by
      refine keeps_setChannel s hch fun c hc => ?_
      cases hc
      exact ⟨rfl,rfl⟩
    refine ⟨hset.next,hset.sess,hset.conns,hset.channels,fun e he => ?_⟩
    simp only [List.mem_append,List.mem_singleton] at he ⊢
    rcases he with (he | rfl) | he
    · exact .inl (.inl he)
    · exact .inr ⟨n,ch,hch,rfl⟩
    · exact .inl (.inr he)
  · exact Keeps.refl s

theorem keeps_queue (n : Nat) (pdu : OutPdu) : Keeps s (s.queue n pdu) :=
  keeps_setVconn s rfl

theorem keeps_send (n : Nat) : Keeps s (s.send n) := by
  refine keeps_elim fun ch hch => ?_
  cases ch.replies.head? with
  | none => exact Keeps.refl s
  | some pdu =>
    rw [Option.elim_some]
    split_ifs
    · refine keeps_both s ?_ hch fun c hc => ?_
      · rfl
      · cases hc
        exact ⟨rfl,rfl⟩
    · exact Keeps.refl s

theorem keeps_abandon (n : Nat) : Keeps s (s.abandon n) := by
  refine keeps_elim fun ch hch => ?_
  split_ifs
  · refine keeps_setChannel s hch fun c hc => ?_
    cases hc
    exact ⟨rfl,rfl⟩
  · exact Keeps.refl s

theorem keeps_stream (n : Nat) : Keeps s (s.stream n) := by
  refine keeps_elim fun ch hch => ?_
  split_ifs
  · have hset : Keeps s (s.setVconn ch.vc
        {s.vconns ch.vc with out:=(s.vconns ch.vc).out.tail}) := keeps_setVconn s rfl
    refine ⟨hset.next,hset.sess,hset.conns,hset.channels,fun e he => ?_⟩
    simp only [List.mem_append,List.mem_singleton] at he ⊢
    rcases he with he | he | rfl
    · exact .inl (.inl he)
    · exact .inl (.inr he)
    · exact .inr ⟨n,ch,hch,rfl⟩
  · exact Keeps.refl s

theorem keeps_teardown (n : Nat) : Keeps s (s.teardown n) := by
  refine keeps_elim fun ch hch => ?_
  have hset : Keeps s ((s.setVconn ch.vc {s.vconns ch.vc with closed:=true}).setChannel n
      none) := by
    refine keeps_both s ?_ hch fun c hc => ?_
    · rfl
    · cases hc
  refine ⟨hset.next,hset.sess,fun key m hm => ?_,hset.channels,hset.passed⟩
  split_ifs at hm
  · rw [Snapshot.value_remove] at hm
    split_ifs at hm
    exact hm
  · exact hm

theorem keeps_leave (n : Nat) : Keeps s (s.leave n) := by
  refine keeps_elim fun ch hch => ?_
  split_ifs
  · exact keeps_setChannel s hch (by simp)
  · exact Keeps.refl s

end Keeps

/-- Channels joined sessions of their own user, as did all that passed. -/
structure Own (s : Transport) : Prop where
  table : ∀ key n,s.conns.value key=some n → n < s.nextVconn
  channels : ∀ i ch,s.channels i=some ch → ch.vc < s.nextVconn ∧ (s.vconns ch.vc).sess=ch.who
  passed : ∀ e∈s.dispatched++s.streamed,e.session=e.channel

theorem Own.keeps (h : s.Own) (k : Keeps s s') : s'.Own where
  table key n hn := k.next ▸ h.table key n (k.conns key n hn)
  channels i ch' hch' := by
    obtain ⟨ch,hch,hwho,hvc⟩ := k.channels i ch' hch'
    rw [k.next,k.sess,← hvc,← hwho]
    exact h.channels i ch hch
  passed e he := by
    rcases k.passed e he with he | ⟨i,ch,hch,rfl⟩
    · exact h.passed e he
    · exact (h.channels i ch hch).2

/-- A channel joins a connection of its own user. -/
def JoinsOwn (T : Strings) (s : Transport) : TransportEvent → Prop
  | .openChannel o => ∀ key,openKey T o=some key → ∀ n,s.joins key=some n →
      (s.vconns n).sess=o.who
  | _ => True

theorem Own.join (h : s.Own) {o : Opening} {key : Bytes} (hn : n<s.nextVconn)
    (hsess : (s.vconns n).sess=o.who) : (s.join o key n).Own := by
  refine ⟨h.table,fun i ch hch => ?_,h.passed⟩
  by_cases hi : i=s.nextChannel
  · subst hi
    simp only [Transport.join,setChannel,Function.update_self,Option.some.injEq] at hch
    subst hch
    exact ⟨hn,hsess⟩
  · simp only [Transport.join,setChannel,Function.update_of_ne hi] at hch
    exact h.channels i ch hch

theorem Own.create (h : s.Own) (key : Bytes) (who : Identity) :
    ({s.setVconn s.nextVconn (newVconn who) with
      conns:=s.conns.set key s.nextVconn
      nextVconn:=s.nextVconn+1} : Transport).Own := by
  refine ⟨fun k n hn => ?_,fun i ch hch => ?_,h.passed⟩
  · rw [Snapshot.value_set] at hn
    split_ifs at hn
    · cases hn
      exact Nat.lt_succ_self _
    · exact Nat.lt_succ_of_lt (h.table k n hn)
  · obtain ⟨hlt,hsess⟩ := h.channels i ch hch
    refine ⟨Nat.lt_succ_of_lt hlt,?_⟩
    simpa [setVconn,Nat.ne_of_lt hlt] using hsess

theorem Own.openChannel {T : Strings} (h : s.Own) {o : Opening}
    (hown : s.JoinsOwn T (.openChannel o)) : (s.openChannel T o).Own := by
  rw [Transport.openChannel]
  cases hkey : openKey T o with
  | none => exact h
  | some key =>
    rw [Option.elim_some,getOrCreate]
    cases hjoins : s.joins key with
    | none =>
      split_ifs
      · exact h
      · refine (h.create key o.who).join (Nat.lt_succ_self _) ?_
        simp [setVconn,newVconn]
    | some n =>
      have hvalue : s.conns.value key=some n := (Option.filter_eq_some_iff.mp hjoins).1
      exact h.join (h.table key n hvalue) (hown key hkey n hjoins)

theorem Own.step {T : Strings} (h : s.Own) (e : TransportEvent) (hown : s.JoinsOwn T e) :
    (s.step T e).Own := by
  cases e with
  | openChannel o => exact h.openChannel hown
  | attach ch => exact h.keeps (keeps_attach s ch)
  | read ch pdu replies => exact h.keeps (keeps_read s ch replies)
  | send ch => exact h.keeps (keeps_send s ch)
  | abandon ch => exact h.keeps (keeps_abandon s ch)
  | deferred vc pdu =>
    rw [Transport.step]
    split_ifs
    · exact h.keeps (keeps_queue s vc _)
    · exact h
  | stream ch => exact h.keeps (keeps_stream s ch)
  | teardown ch => exact h.keeps (keeps_teardown s ch)
  | leave ch => exact h.keeps (keeps_leave s ch)

theorem Own.start : Transport.start.Own := by
  refine ⟨fun _ _ h => ?_,fun _ _ h => ?_,fun _ h => ?_⟩ <;> cases h

end Transport

/-- While channels join their own user's connections, all passes between one user's. -/
theorem connection_serves_one_user (T : Strings) (xs : List TransportEvent)
    (h : Meets (Transport.step T) (Transport.JoinsOwn T) .start xs) :
    (∀ e ∈ (runSteps (Transport.step T) .start xs).dispatched,e.session = e.channel) ∧
      ∀ e ∈ (runSteps (Transport.step T) .start xs).streamed,e.session = e.channel := by
  have hown := h.invariant (fun _ e hs he => hs.step e he) Transport.Own.start
  exact ⟨fun e he => hown.passed e (List.mem_append_left _ he),
    fun e he => hown.passed e (List.mem_append_right _ he)⟩

def exchange (first second : Identity) : List TransportEvent :=
  let query := lit "mail:6001"
  [.openChannel ⟨.outData,first,query,lit "c",65536⟩,.attach 0,
    .openChannel ⟨.inData,second,query,lit "c",0⟩,.attach 1,.send 1,.read 1 [0x01] [[0x02]],.send 1,
    .stream 0,.stream 0]

theorem connection_serves_one_user_exchange :
    let who : Identity := ⟨lit "first",lit "/mb/first"⟩
    let s := runSteps (Transport.step Strings.ascii) .start (exchange who who)
    s.dispatched = [⟨who,who⟩] ∧ s.streamed = [⟨who,who⟩,⟨who,who⟩] ∧
      ∀ e ∈ s.streamed,e.session = e.channel := by
  intro who s
  have hkey : Transport.openKey Strings.ascii ⟨.inData,who,lit "mail:6001",lit "c",0⟩ =
      some (lit "c:6001:mail") := by decide +kernel
  have hfirst : (runSteps (Transport.step Strings.ascii) .start ((exchange who who).take 2)).joins
      (lit "c:6001:mail")=some 0 := by decide +kernel
  have hsess : ((runSteps (Transport.step Strings.ascii) .start
      ((exchange who who).take 2)).vconns 0).sess=who := by decide +kernel
  have hjoins : Meets (Transport.step Strings.ascii) (Transport.JoinsOwn Strings.ascii) .start
      (exchange who who) := by
    refine ⟨fun key _ n hn => ?_,trivial,fun key hopen n hn => ?_,trivial,trivial,trivial,trivial,
      trivial,trivial,trivial⟩
    · cases hn
    · cases Option.some.inj (hkey.symm.trans hopen)
      cases Option.some.inj (hfirst.symm.trans hn)
      exact hsess
  exact ⟨by decide +kernel,by decide +kernel,
    (connection_serves_one_user Strings.ascii (exchange who who) hjoins).2⟩

/-- Another user's IN channel is served in the first user's session. -/
theorem session_shared :
    let first : Identity := ⟨lit "first",lit "/mb/first"⟩
    let second : Identity := ⟨lit "second",lit "/mb/second"⟩
    let s := runSteps (Transport.step Strings.ascii) .start (exchange first second)
    s.dispatched = [⟨second,first⟩] := by
  decide +kernel

end HermEX.Rpchttp
