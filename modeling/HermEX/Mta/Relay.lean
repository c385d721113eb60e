import HermEX.Framework.Faults
import HermEX.Mta.Routing

namespace HermEX.Mta

open Framework Directory

inductive SendErr where
  | tooLarge
  | virus
  | quota
  | limited
  | store
  | spool

def SendErr.terminal : SendErr → Bool
  | .tooLarge => true
  | .virus => true
  | _ => false

/-- `appends i` is the fate of the store of the `i`th address. -/
structure SendEnv where
  accounts : Accounts
  spool : Bool
  tooLarge : Bool
  virus : Bool
  limited : Bool
  appends : Nat → Fate
  enqueue : Fate
  exclusiveCopy : Bool

/-- The inboxes served and the external addresses queued. -/
structure Mailings where
  filed : List Path
  queued : List Address
deriving DecidableEq

section Relay

variable (T : Strings)

def expandOne (expand : Address → Address → Except DirErr (List Address×MListResult))
    (sender : Address) (st : List Address×List Address) (r : Address) :
    List Address×List Address :=
  match expandMailingList T expand sender r with
  | .error _ => (st.1++[r],st.2)
  | .ok .notList => (st.1++[r],st.2)
  | .ok .refused => (st.1,st.2++[r])
  | .ok (.members leaves) => (st.1++leaves,st.2)

variable (accounts : Accounts)

def expandRecipientList (sender : Address) (recipients : List Address) :
    List Address×List Address :=
  match accounts.expandMList with
  | none => (recipients,[])
  | some expand => recipients.foldl (expandOne T expand sender) ([],[])

def forwardOf (rcpt : Address) : Option ForwardInfo :=
  match accounts.getForward with
  | none => none
  | some getForward =>
    match getForward rcpt with
    | .ok (some fi) =>
      if fi.destination=[] || T.equalFold fi.destination rcpt then none else some fi
    | _ => none

def destOf (fi : ForwardInfo) : Address := T.toLower (T.trimSpace fi.destination)

def forwardOne (st : List Address×List Address) (rcpt : Address) :
    List Address×List Address :=
  match forwardOf T accounts rcpt with
  | none => (st.1++[rcpt],st.2)
  | some fi =>
    (if fi.type=.cc then st.1++[rcpt] else st.1,
      if st.2.contains (destOf T fi) then st.2 else st.2++[destOf T fi])

def applyForwards (recipients : List Address) :
    List Address×List Address :=
  recipients.foldl (forwardOne T accounts) ([],[])

def deliverFrom (env : SendEnv) : Nat → List Address → List Address →
    Faulty SendErr Mailings (List Address)
  | _,[],unresolved => pure unresolved
  | i,rcpt::rest,unresolved =>
    match env.accounts.resolve rcpt with
    | none => deliverFrom env (i+1) rest (unresolved++[rcpt])
    | some path => do
        Faulty.step (env.appends i) .store fun m => {m with filed:=m.filed++[path]}
        deliverFrom env (i+1) rest unresolved

def isExternal (rcpt : Address) : Bool :=
  decide (isRelayable T accounts rcpt=.ok true)

def relayUnresolved (env : SendEnv) (unresolved : List Address) :
    Faulty SendErr Mailings (List Address) := do
  let external := unresolved.filter (isExternal T env.accounts)
  let stuck := unresolved.filter fun r => !isExternal T env.accounts r
  if external≠[] then
    Faulty.step env.enqueue .spool fun m => {m with queued:=m.queued++external}
  return stuck

def deliverySet (sender : Address) (recipients : List Address) :
    List Address :=
  let (locals,dests) := applyForwards T accounts (expandRecipientList T accounts sender recipients).1
  locals++dests

def relayRest (env : SendEnv) (unresolved : List Address) :
    Faulty SendErr Mailings (List Address) :=
  if env.spool && unresolved≠[] then relayUnresolved T env unresolved else pure unresolved

def deliverAndRelay (env : SendEnv) (sender : Address) (recipients : List Address) :
    Faulty SendErr Mailings (List Address) := do
  Faulty.refuse env.tooLarge .tooLarge
  Faulty.refuse env.virus .virus
  Faulty.refuse (overSendQuota env.accounts sender) .quota
  Faulty.refuse (env.spool && env.limited) .limited
  let unresolved ← deliverFrom env 0 (deliverySet T env.accounts sender recipients) []
  let stuck ← relayRest T env unresolved
  return stuck++(expandRecipientList T env.accounts sender recipients).2

def sendAndRelay (env : SendEnv) (sender : Address) (recipients : List Address) :
    Faulty SendErr Mailings (List Address×Bool) := do
  let unresolved ← deliverAndRelay T env sender recipients
  return (unresolved,!env.exclusiveCopy)

variable {T}

def boxes (ds : List Address) : List Path := ds.filterMap accounts.resolve

def unresolvedOf (ds : List Address) : List Address :=
  ds.filter fun a => (accounts.resolve a).isNone

def externals (T : Strings) (accounts : Accounts) (ds : List Address) : List Address :=
  (unresolvedOf accounts ds).filter (isExternal T accounts)

def Resolves (env : SendEnv) (ds : List Address) (i : Nat) : Prop :=
  (ds[i]?.bind env.accounts.resolve).isSome

instance (env : SendEnv) (ds : List Address) (i : Nat) : Decidable (Resolves env ds i) :=
  inferInstanceAs (Decidable (_=true))

/-- Every store before the `i`th took the message. -/
def Reaches (env : SendEnv) (ds : List Address) (i : Nat) : Prop :=
  ∀ j< i,Resolves env ds j → env.appends j=.done

instance (env : SendEnv) (ds : List Address) (i : Nat) : Decidable (Reaches env ds i) :=
  inferInstanceAs (Decidable (∀ j< i,_))

def Files (env : SendEnv) (ds : List Address) (i : Nat) : Prop :=
  ∀ j< i,Resolves env ds j → env.appends j=.done ∨ env.appends j=.late ∧ j+1=i

instance (env : SendEnv) (ds : List Address) (i : Nat) : Decidable (Files env ds i) :=
  inferInstanceAs (Decidable (∀ j< i,_))

def StoppedAt (env : SendEnv) (f : Fate) (ds : List Address) (m : Mailings) : Prop :=
  ∃ i<ds.length,Reaches env ds i ∧ Resolves env ds i ∧ env.appends i=f ∧
    m=⟨boxes env.accounts (ds.take (if f=.late then i+1 else i)),[]⟩

variable (env : SendEnv) (ds : List Address)

theorem Reaches.succ {i : Nat} (h : Reaches env ds i)
    (hi : Resolves env ds i → env.appends i=.done) : Reaches env ds (i+1) := by
  intro j hj hres
  rcases Nat.lt_succ_iff_lt_or_eq.mp hj with hlt | rfl
  · exact h j hlt hres
  · exact hi hres

theorem Reaches.files {i : Nat} (h : Reaches env ds i) : Files env ds i :=
  fun j hj hres => .inl (h j hj hres)

theorem Reaches.files_late {i : Nat} (h : Reaches env ds i) (hi : env.appends i=.late) :
    Files env ds (i+1) := by
  intro j hj hres
  rcases Nat.lt_succ_iff_lt_or_eq.mp hj with hlt | rfl
  · exact .inl (h j hlt hres)
  · exact .inr ⟨hi,rfl⟩

theorem deliverFrom_triple (rest pre : List Address) (h : ds=pre++rest)
    (hreach : Reaches env ds pre.length) :
    Faulty.Triple (· = ⟨boxes env.accounts pre,[]⟩)
      (deliverFrom env pre.length rest (unresolvedOf env.accounts pre))
      (fun u m => Reaches env ds ds.length ∧ u=unresolvedOf env.accounts ds ∧
        m=⟨boxes env.accounts ds,[]⟩)
      (fun _ m => StoppedAt env .fails ds m ∨ StoppedAt env .late ds m)
      (StoppedAt env .crash ds) := by
  induction rest generalizing pre with
  | nil =>
    rw [List.append_nil] at h
    subst h
    exact Faulty.Triple.pure fun m hm => ⟨hreach,rfl,hm⟩
  | cons a rest ih =>
    have hstep : ds=(pre++[a])++rest := by simp [h]
    have hlen : pre.length<ds.length := by simp [h]
    have htake : ds.take pre.length=pre := by simp [h]
    have htake' : ds.take (pre.length+1)=pre++[a] := by
      rw [hstep]
      exact List.take_left' (by simp)
    have hih := ih (pre++[a]) hstep
    rw [List.length_append,List.length_singleton] at hih
    cases ha : env.accounts.resolve a with
    | none =>
      have hb : boxes env.accounts (pre++[a])=boxes env.accounts pre := by simp [boxes,ha]
      have hu : unresolvedOf env.accounts (pre++[a])=unresolvedOf env.accounts pre++[a] := by
        simp [unresolvedOf,ha]
      have hskip : ¬Resolves env ds pre.length := by simp [Resolves,h,ha]
      rw [hb,hu] at hih
      simpa [deliverFrom,ha] using hih (hreach.succ env ds fun hres => absurd hres hskip)
    | some path =>
      have hb : boxes env.accounts (pre++[a])=boxes env.accounts pre++[path] := by simp [boxes,ha]
      have hu : unresolvedOf env.accounts (pre++[a])=unresolvedOf env.accounts pre := by
        simp [unresolvedOf,ha]
      rw [hb,hu] at hih
      have hserves : Resolves env ds pre.length := by simp [Resolves,h,ha]
      simp only [deliverFrom,ha]
      refine Faulty.Triple.bind (Q := fun _ m => env.appends pre.length=.done ∧
        m=⟨boxes env.accounts pre++[path],[]⟩) (Faulty.Triple.step ?_ ?_ ?_ ?_) ?_
      · rintro hf m rfl
        exact ⟨hf,rfl⟩
      · rintro hf m rfl
        exact .inl ⟨pre.length,hlen,hreach,hserves,hf,by simp [htake]⟩
      · rintro hf m rfl
        exact .inr ⟨pre.length,hlen,hreach,hserves,hf,by simp [htake',hb]⟩
      · rintro hf m rfl
        exact ⟨pre.length,hlen,hreach,hserves,hf,by simp [htake]⟩
      · rintro-m ⟨hf,hm⟩
        exact hih (hreach.succ env ds fun _ => hf) m hm

def allMailings (T : Strings) (accounts : Accounts) (spool : Bool) (ds : List Address) : Mailings :=
  ⟨boxes accounts ds,if spool then externals T accounts ds else []⟩

def StoppedLast (T : Strings) (env : SendEnv) (f : Fate) (ds : List Address) (m : Mailings) :
    Prop :=
  env.spool=true ∧ externals T env.accounts ds≠[] ∧ env.enqueue=f ∧
    m=allMailings T env.accounts (f=.late) ds

theorem relayUnresolved_triple (hspool : env.spool=true) :
    Faulty.Triple (· = ⟨boxes env.accounts ds,[]⟩)
      (relayUnresolved T env (unresolvedOf env.accounts ds))
      (fun _ m => m=allMailings T env.accounts true ds)
      (fun _ m => StoppedLast T env .fails ds m ∨ StoppedLast T env .late ds m)
      (StoppedLast T env .crash ds) := by
  unfold relayUnresolved
  by_cases hx : externals T env.accounts ds=[]
  · have hx' : (unresolvedOf env.accounts ds).filter (isExternal T env.accounts)=[] := hx
    simp only [hx',allMailings,hx]
    exact Faulty.Triple.pure fun m hm => hm
  · have hx' : (unresolvedOf env.accounts ds).filter (isExternal T env.accounts)≠[] := hx
    simp only [ne_eq,hx']
    refine Faulty.Triple.bind
      (Faulty.Triple.step ?_ ?_ ?_ ?_) fun _ => Faulty.Triple.pure fun m hm => hm
    · rintro-m rfl
      rfl
    · exact fun hf m hm => .inl ⟨hspool,hx,hf,hm⟩
    · rintro hf m rfl
      exact .inr ⟨hspool,hx,hf,rfl⟩
    · exact fun hc m hm => ⟨hspool,hx,hc,hm⟩

theorem relayRest_triple :
    Faulty.Triple (· = ⟨boxes env.accounts ds,[]⟩)
      (relayRest T env (unresolvedOf env.accounts ds))
      (fun _ m => m=allMailings T env.accounts env.spool ds)
      (fun _ m => StoppedLast T env .fails ds m ∨ StoppedLast T env .late ds m)
      (StoppedLast T env .crash ds) := by
  unfold relayRest
  cases hspool : env.spool with
  | false => exact Faulty.Triple.pure fun m hm => by simp [hm,allMailings]
  | true =>
    by_cases hu : unresolvedOf env.accounts ds=[]
    · simp only [hu]
      exact Faulty.Triple.pure fun m hm => by simp [hm,allMailings,externals,hu]
    · simp only [hu,ne_eq]
      exact relayUnresolved_triple env ds hspool

def Refuses (env : SendEnv) (sender : Address) : Prop :=
  env.tooLarge ∨ env.virus ∨ overSendQuota env.accounts sender ∨ env.spool && env.limited

instance (env : SendEnv) (sender : Address) : Decidable (Refuses env sender) :=
  inferInstanceAs (Decidable (_ ∨ _))

def StoppedBy (T : Strings) (env : SendEnv) (f : Fate) (ds : List Address) (m : Mailings) : Prop :=
  StoppedAt env f ds m ∨ Reaches env ds ds.length ∧ StoppedLast T env f ds m

theorem sendAndRelay_triple (sender : Address) (recipients : List Address) :
    let ds := deliverySet T env.accounts sender recipients
    Faulty.Triple (· = ⟨[],[]⟩) (sendAndRelay T env sender recipients)
      (fun _ m => ¬Refuses env sender ∧ Reaches env ds ds.length ∧
        m=allMailings T env.accounts env.spool ds)
      (fun _ m => Refuses env sender ∧ m=⟨[],[]⟩ ∨ ¬Refuses env sender ∧
        (StoppedBy T env .fails ds m ∨ StoppedBy T env .late ds m))
      (fun m => ¬Refuses env sender ∧ StoppedBy T env .crash ds m) := by
  intro ds
  have hcheck : ∀ {φ : Prop} {b : Bool} {e : SendErr},(b=true → Refuses env sender) →
      Faulty.Triple (fun m : Mailings => φ ∧ m=⟨[],[]⟩) (Faulty.refuse b e)
        (fun _ m => (φ ∧ b=false) ∧ m=⟨[],[]⟩)
        (fun _ m => Refuses env sender ∧ m=⟨[],[]⟩ ∨ ¬Refuses env sender ∧
          (StoppedBy T env .fails ds m ∨ StoppedBy T env .late ds m))
        (fun m => ¬Refuses env sender ∧ StoppedBy T env .crash ds m) := by
    intro φ b e hb
    exact Faulty.Triple.refuse (fun h m hm => ⟨⟨hm.1,h⟩,hm.2⟩) fun h m hm => .inl ⟨hb h,hm.2⟩
  refine Faulty.Triple.bind ?_ fun _ => Faulty.Triple.pure fun m hm => hm
  refine Faulty.Triple.bind ((hcheck (φ := True) fun h => .inl h).conseq
    (fun m hm => ⟨trivial,hm⟩) (fun _ _ h => h) (fun _ _ h => h) fun _ h => h) fun _ => ?_
  refine Faulty.Triple.bind (hcheck fun h => .inr (.inl h)) fun _ => ?_
  refine Faulty.Triple.bind (hcheck fun h => .inr (.inr (.inl h))) fun _ => ?_
  refine Faulty.Triple.bind (hcheck fun h => .inr (.inr (.inr h))) fun _ => ?_
  rintro m ⟨⟨⟨⟨⟨-,hlarge⟩,hvirus⟩,hquota⟩,hlimited⟩,hm⟩
  have hpass : ¬Refuses env sender := by simp [Refuses,hlarge,hvirus,hquota,hlimited]
  have hdeliver := deliverFrom_triple env ds ds [] rfl fun j hj => absurd hj j.not_lt_zero
  have hrelay := relayRest_triple (T := T) env ds
  refine Faulty.Triple.bind (hdeliver.conseq (fun _ hm => hm) (fun _ _ hm => hm) ?_ ?_) ?_ m hm
  · exact fun e m hm => .inr ⟨hpass,hm.imp .inl .inl⟩
  · exact fun m hm => ⟨hpass,.inl hm⟩
  · rintro u n ⟨hreach,rfl,hn⟩
    refine Faulty.Triple.bind (hrelay.conseq (fun _ hm => hm) (fun _ _ hm => hm) ?_ ?_)
      (fun _ => Faulty.Triple.pure fun m hm => ⟨hpass,hreach,hm⟩) n hn
    · exact fun e m hm => .inr ⟨hpass,hm.imp (fun h => .inr ⟨hreach,h⟩) fun h => .inr ⟨hreach,h⟩⟩
    · exact fun m hm => ⟨hpass,.inr ⟨hreach,hm⟩⟩

end Relay
end HermEX.Mta
