import HermEX.Framework.Runs
import HermEX.Mta.Relay

namespace HermEX.Spooler

open Framework Directory Mta

def maxReleaseAttempts : Nat := 10

/-- Recipients, failures charged and the release stamp. -/
structure Scheduled where
  recipients : List Address
  attempts : Nat
  started : Bool
deriving DecidableEq

/-- The Outbox message, the copies, and where it was delivered. -/
structure World where
  outbox : Option Scheduled
  sent : Nat
  drafts : Nat
  mail : Mailings
deriving DecidableEq

namespace World

def setProps (f : Scheduled → Scheduled) (w : World) : World := {w with outbox:=w.outbox.map f}

def stamp (b : Bool) : World → World := setProps fun m => {m with started:=b}

def deleteMessage (w : World) : World := {w with outbox:=none}

def moveMessage (w : World) : World := {w with outbox:=none,drafts:=w.drafts+1}

end World

/-- The deferred-send time, what delivery meets, and each step's fate. -/
structure Pass where
  owner : Address
  send : SendEnv
  cancelled : Bool
  due : Bool
  listMessages : Fate
  deferredSendDue : Fate
  releaseStarted : Fate
  openMessage : Fate
  getMessageRaw : Fate
  markReleaseStarted : Fate
  clearReleaseStarted : Fate
  dropTerminal : Fate
  fileToSent : Fate
  deleteMessage : Fate
  readAttempts : Fate
  writeAttempts : Fate
  reportOpen : Fate
  reportRaw : Fate
  moveMessage : Fate

inductive ReleaseErr where
  | store
  | send (e : SendErr)

section Release

variable (T : Strings)

def releaseFailed (p : Pass) (e : SendErr) : Faulty ReleaseErr World Unit := do
  Faulty.step p.clearReleaseStarted .store (World.stamp false)
  if e.terminal then Faulty.step p.dropTerminal .store World.deleteMessage
  else Faulty.fail (.send e)

def fileOwnCopy (p : Pass) (keepOwnCopy : Bool) : Faulty ReleaseErr World Unit :=
  if keepOwnCopy then Faulty.step p.fileToSent .store fun w => {w with sent:=w.sent+1}
  else pure ()

def releaseDone (p : Pass) (keepOwnCopy : Bool) : Faulty ReleaseErr World Unit := do
  let _ ← Faulty.attempt (fileOwnCopy p keepOwnCopy)
  Faulty.step p.deleteMessage .store World.deleteMessage

def deliver (p : Pass) (recipients : List Address) :
    Faulty SendErr World (List Address×Bool) :=
  Faulty.zoom World.mail (fun mail w => {w with mail:=mail})
    (sendAndRelay T p.send p.owner recipients)

def releaseMessage (p : Pass) (m : Scheduled) : Faulty ReleaseErr World Unit := do
  Faulty.step p.openMessage .store id
  Faulty.step p.getMessageRaw .store id
  Faulty.step p.markReleaseStarted .store (World.stamp true)
  match ← Faulty.attempt (deliver T p m.recipients) with
  | .error e => releaseFailed p e
  | .ok (_,keepOwnCopy) => releaseDone p keepOwnCopy

def returnToDrafts (p : Pass) : Faulty ReleaseErr World Unit := do
  let _ ← Faulty.attempt (Faulty.step p.reportOpen ReleaseErr.store id)
  let _ ← Faulty.attempt (Faulty.step p.reportRaw ReleaseErr.store id)
  Faulty.step p.moveMessage .store World.moveMessage

def recordFailure (p : Pass) : Faulty ReleaseErr World Unit := do
  Faulty.step p.readAttempts .store id
  Faulty.step p.writeAttempts .store (World.setProps fun m => {m with attempts:=m.attempts+1})
  let w ← Faulty.get
  if w.outbox.any fun m => maxReleaseAttempts ≤ m.attempts then returnToDrafts p else pure ()

def processDueMessage (p : Pass) (m : Scheduled) : Faulty ReleaseErr World Unit := do
  Faulty.step p.releaseStarted .store id
  if m.started then returnToDrafts p
  else
    match ← Faulty.attempt (releaseMessage T p m) with
    | .ok () => pure ()
    | .error _ => recordFailure p

def processDueOutbox (p : Pass) : Faulty ReleaseErr World Unit := do
  Faulty.step p.listMessages .store id
  let w ← Faulty.get
  match w.outbox with
  | none => pure ()
  | some m =>
    if p.cancelled then pure ()
    else
      Faulty.step p.deferredSendDue .store id
      if p.due then processDueMessage T p m else pure ()

def pass (w : World) (p : Pass) : World := ((processDueOutbox T p).run w).2

end Release

variable {T : Strings}

def AtMostOnce (w : World) : Prop := w.mail.filed.Nodup ∧ w.mail.queued.Nodup

def Unsent (w : World) : Prop := w.mail=⟨[],[]⟩

def Stamped (w : World) : Prop := ∀ m,w.outbox=some m → m.started=true

/-- Sent at most once, and not at all while it may be. -/
structure Inv (w : World) : Prop where
  once : AtMostOnce w
  unsent : ∀ m,w.outbox=some m → m.started=false → Unsent w

variable {w : World} {m : Scheduled} (p : Pass)

theorem Inv.of_unsent (h : Unsent w) : Inv w := by
  refine ⟨?_,fun _ _ _ => h⟩
  unfold AtMostOnce
  rw [show w.mail=_ from h]
  exact ⟨List.nodup_nil,List.nodup_nil⟩

theorem Inv.of_stamped (h : AtMostOnce w) (hs : Stamped w) : Inv w :=
  ⟨h,fun m hm hf => absurd (hs m hm) (by simp [hf])⟩

/-- The pass gets to the delivery of its message. -/
def Pass.Sends (p : Pass) : Prop :=
  p.listMessages=.done ∧ p.cancelled=false ∧ p.deferredSendDue=.done ∧ p.due=true ∧
    p.releaseStarted=.done ∧ p.openMessage=.done ∧ p.getMessageRaw=.done ∧
    p.markReleaseStarted=.done

/-- An error after these mailboxes leaves nobody with it. -/
def ErrsFirst (f : Fate) (served : List Path) : Prop := f≠.late ∧ (f=.fails → served=[])

/-- What ends the send with an error does so before anybody is served. -/
def FailsFirst (T : Strings) (env : SendEnv) (ds : List Address) : Prop :=
  (∀ i<ds.length,Reaches env ds i → Resolves env ds i →
    ErrsFirst (env.appends i) (boxes env.accounts (ds.take i))) ∧
  (Reaches env ds ds.length → env.spool=true → externals T env.accounts ds≠[] →
    ErrsFirst env.enqueue (boxes env.accounts ds))

/-- Each address is reached once, and after an error nobody was, or the stamp stays. -/
def Whole (T : Strings) (p : Pass) (m : Scheduled) : Prop :=
  let ds := deliverySet T p.send.accounts p.owner m.recipients
  (∀ i≤ds.length,Files p.send ds i → (boxes p.send.accounts (ds.take i)).Nodup) ∧
    (Reaches p.send ds ds.length → p.send.spool=true →
      (externals T p.send.accounts ds).Nodup) ∧
    (p.clearReleaseStarted.acts=true → FailsFirst T p.send ds)

/-- What the pass gets to send is sent whole. -/
def SafePass (T : Strings) (w : World) (p : Pass) : Prop :=
  ∀ m∈w.outbox,m.started=false → p.Sends → ¬Refuses p.send p.owner → Whole T p m

instance (p : Pass) : Decidable p.Sends := inferInstanceAs (Decidable (_ ∧ _))

instance (f : Fate) (served : List Path) : Decidable (ErrsFirst f served) :=
  inferInstanceAs (Decidable (_ ∧ _))

instance (env : SendEnv) (ds : List Address) : Decidable (FailsFirst T env ds) :=
  inferInstanceAs (Decidable (_ ∧ _))

instance (p : Pass) (m : Scheduled) : Decidable (Whole T p m) :=
  inferInstanceAs (Decidable (_ ∧ _ ∧ _))

instance (w : World) (p : Pass) : Decidable (SafePass T w p) :=
  inferInstanceAs (Decidable (∀ m∈w.outbox,_))

theorem Whole.all {p : Pass} (h : Whole T p m) {b : Bool} (hspool : b=true → p.send.spool=true) :
    let ds := deliverySet T p.send.accounts p.owner m.recipients
    Reaches p.send ds ds.length → (allMailings T p.send.accounts b ds).filed.Nodup ∧
      (allMailings T p.send.accounts b ds).queued.Nodup := by
  intro ds hreach
  have hall := h.1 _ le_rfl (hreach.files _ _)
  rw [List.take_length] at hall
  refine ⟨hall,?_⟩
  unfold allMailings
  split_ifs with hb
  · exact h.2.1 hreach (hspool hb)
  · exact List.nodup_nil

theorem Whole.stopped {p : Pass} (h : Whole T p m) {f : Fate} {n : Mailings}
    (hn : StoppedBy T p.send f (deliverySet T p.send.accounts p.owner m.recipients) n) :
    n.filed.Nodup ∧ n.queued.Nodup := by
  obtain ⟨i,hi,hreach,-,hf,rfl⟩ | ⟨hreach,hspool,-,hf,rfl⟩ := hn
  · refine ⟨?_,List.nodup_nil⟩
    split_ifs with hlate
    · exact h.1 (i+1) hi (hreach.files_late _ _ (hf.trans hlate))
    · exact h.1 i hi.le (hreach.files _ _)
  · exact h.all (fun _ => hspool) hreach

theorem sendAndRelay_whole {p : Pass} (h : ¬Refuses p.send p.owner → Whole T p m) :
    Faulty.Triple (· = (⟨[],[]⟩ : Mailings)) (sendAndRelay T p.send p.owner m.recipients)
      (fun _ n => n.filed.Nodup ∧ n.queued.Nodup)
      (fun _ n => (n.filed.Nodup ∧ n.queued.Nodup) ∧
        (p.clearReleaseStarted.acts=true → n=⟨[],[]⟩))
      (fun n => n.filed.Nodup ∧ n.queued.Nodup) := by
  refine (sendAndRelay_triple p.send p.owner m.recipients).conseq (fun _ hn => hn) ?_ ?_ ?_
  · rintro-n ⟨hpass,hreach,rfl⟩
    exact (h hpass).all (fun h => h) hreach
  · rintro-n (⟨-,rfl⟩ | ⟨hpass,hn⟩)
    · exact ⟨⟨List.nodup_nil,List.nodup_nil⟩,fun _ => rfl⟩
    · refine ⟨hn.elim (h hpass).stopped (h hpass).stopped,fun hclear => ?_⟩
      have hfirst := (h hpass).2.2 hclear
      rcases hn with hn | hn
      · obtain ⟨i,hi,hreach,hres,hf,rfl⟩ | ⟨hreach,hspool,hne,hf,rfl⟩ := hn
        · simp [(hfirst.1 i hi hreach hres).2 hf]
        · simp [allMailings,(hfirst.2 hreach hspool hne).2 hf]
      · obtain ⟨i,hi,hreach,hres,hf,-⟩ | ⟨hreach,hspool,hne,hf,-⟩ := hn
        · exact absurd hf (hfirst.1 i hi hreach hres).1
        · exact absurd hf (hfirst.2 hreach hspool hne).1
  · exact fun n hn => (h hn.1).stopped hn.2

def Keeps {α : Type} (P : World → Prop) (x : Faulty ReleaseErr World α) : Prop :=
  Faulty.Triple P x (fun _ => Inv) (fun _ => Inv) Inv

theorem keeps_step {P : World → Prop} {f : Fate} {e : ReleaseErr} {g : World → World}
    (hP : ∀ w,P w → Inv w) (hg : ∀ w,P w → Inv (g w)) : Keeps P (Faulty.step f e g) :=
  Faulty.Triple.step (fun _ => hg) (fun _ => hP) (fun _ => hg) (fun _ => hP)

theorem Inv.setProps (h : Inv w) {f : Scheduled → Scheduled} (hf : ∀ m,(f m).started=m.started) :
    Inv (w.setProps f) := by
  refine ⟨h.once,fun m hm hs => ?_⟩
  obtain ⟨m',hm',rfl⟩ := Option.map_eq_some_iff.mp hm
  exact h.unsent m' hm' ((hf m').symm.trans hs)

theorem Inv.of_gone (h : AtMostOnce w) (hw : w.outbox=none) : Inv w :=
  .of_stamped h fun m hm => absurd (hw.symm.trans hm) (by simp)

theorem stamped_stamp (w : World) : Stamped (w.stamp true) := by
  intro m hm
  obtain ⟨m',-,rfl⟩ := Option.map_eq_some_iff.mp hm
  rfl

theorem returnToDrafts_keeps : Keeps Inv (returnToDrafts p) := by
  refine Faulty.Triple.bind (Faulty.Triple.attempt (R := fun _ => Inv) ?_) fun _ => ?_
  · exact keeps_step (fun _ h => h) (fun _ h => h)
  refine Faulty.Triple.bind (Faulty.Triple.attempt (R := fun _ => Inv) ?_) fun _ => ?_
  · exact keeps_step (fun _ h => h) (fun _ h => h)
  exact keeps_step (fun _ h => h) fun w h => .of_gone h.once rfl

theorem recordFailure_keeps : Keeps Inv (recordFailure p) := by
  refine Faulty.Triple.read (fun _ h => h) (fun _ h => h) fun _ => ?_
  refine Faulty.Triple.bind (keeps_step (fun _ h => h) fun w h => h.setProps fun _ => rfl)
    fun _ => ?_
  refine Faulty.Triple.bind (Faulty.Triple.get fun _ h => h) fun w => ?_
  split_ifs
  · exact returnToDrafts_keeps p
  · exact Faulty.Triple.pure fun _ h => h

theorem releaseFailed_keeps (e : SendErr) :
    Keeps (fun w => AtMostOnce w ∧ Stamped w ∧ (p.clearReleaseStarted.acts=true → Unsent w))
      (releaseFailed p e) := by
  refine Faulty.Triple.bind (Q := fun _ => Unsent) (Faulty.Triple.step ?_ ?_ ?_ ?_) fun _ => ?_
  · exact fun hclear w h => h.2.2 (by simp [Fate.acts,hclear])
  · exact fun _ w h => .of_stamped h.1 h.2.1
  · exact fun hclear w h => .of_unsent (h.2.2 (by simp [Fate.acts,hclear]))
  · exact fun _ w h => .of_stamped h.1 h.2.1
  · split_ifs
    · exact keeps_step (fun _ h => .of_unsent h) fun w h => .of_unsent h
    · exact Faulty.Triple.fail fun _ h => .of_unsent h

theorem releaseDone_keeps (keepOwnCopy : Bool) :
    Keeps (fun w => AtMostOnce w ∧ Stamped w) (releaseDone p keepOwnCopy) := by
  have hstamped : ∀ w,AtMostOnce w ∧ Stamped w → Inv w := fun w h => .of_stamped h.1 h.2
  refine Faulty.Triple.bind (Q := fun _ => fun w => AtMostOnce w ∧ Stamped w)
    (Faulty.Triple.attempt ?_) fun _ => ?_
  · unfold fileOwnCopy
    split_ifs
    · exact Faulty.Triple.step (fun _ w h => h) (fun _ w h => h) (fun _ w h => h) fun _ => hstamped
    · exact Faulty.Triple.pure fun w h => h
  · exact keeps_step hstamped fun w h => .of_gone h.1 rfl

def Answered (p : Pass) : Except SendErr (List Address×Bool) → World → Prop
  | .ok _,w => AtMostOnce w ∧ Stamped w
  | .error _,w => AtMostOnce w ∧ Stamped w ∧ (p.clearReleaseStarted.acts=true → Unsent w)

theorem releaseMessage_keeps {p : Pass}
    (h : p.openMessage=.done → p.getMessageRaw=.done → p.markReleaseStarted=.done →
      ¬Refuses p.send p.owner → Whole T p m) :
    Keeps Unsent (releaseMessage T p m) := by
  have hunsent : ∀ w,Unsent w → Inv w := fun _ h => .of_unsent h
  refine Faulty.Triple.read hunsent hunsent fun hopen => ?_
  refine Faulty.Triple.read hunsent hunsent fun hraw => ?_
  refine Faulty.Triple.bind
    (Q := fun _ w => p.markReleaseStarted=.done ∧ Unsent w ∧ Stamped w)
    (Faulty.Triple.step ?_ ?_ ?_ ?_) fun _ => ?_
  · exact fun hmark w h => ⟨hmark,h,stamped_stamp w⟩
  · exact fun _ => hunsent
  · exact fun _ w h => hunsent (w.stamp true) h
  · exact fun _ => hunsent
  refine Faulty.Triple.bind (Q := Answered p) (Faulty.Triple.attempt (Faulty.Triple.zoom ?_)) ?_
  · rintro w ⟨hmark,hu,hs⟩
    refine (sendAndRelay_whole (h hopen hraw hmark)).conseq ?_ ?_ ?_ ?_
    · rintro n rfl
      exact hu
    · exact fun _ n hn => ⟨hn,hs⟩
    · exact fun _ n hn => ⟨hn.1,hs,hn.2⟩
    · exact fun n hn => .of_stamped hn hs
  · rintro (e | ⟨unresolved,keepOwnCopy⟩)
    · exact releaseFailed_keeps p e
    · exact releaseDone_keeps p keepOwnCopy

theorem processDueMessage_keeps {p : Pass}
    (h : m.started=false → p.releaseStarted=.done → p.openMessage=.done → p.getMessageRaw=.done →
      p.markReleaseStarted=.done → ¬Refuses p.send p.owner → Whole T p m) :
    Keeps (fun w => Inv w ∧ w.outbox=some m) (processDueMessage T p m) := by
  refine Faulty.Triple.read (fun w h => h.1) (fun w h => h.1) fun hstarted => ?_
  split_ifs with hs
  · exact (returnToDrafts_keeps p).conseq (fun w h => h.1) (fun _ _ h => h) (fun _ _ h => h)
      fun _ h => h
  · have hs' : m.started=false := by simpa using hs
    have hrelease := releaseMessage_keeps (h hs' hstarted)
    refine Faulty.Triple.bind (Q := fun _ => Inv) (Faulty.Triple.attempt ?_) ?_
    · exact hrelease.conseq (fun w hw => hw.1.unsent m hw.2 hs') (fun _ _ h => h)
        (fun _ _ h => h) fun _ h => h
    · rintro (e | ⟨⟩)
      · exact recordFailure_keeps p
      · exact Faulty.Triple.pure fun _ h => h

theorem processDueOutbox_keeps :
    Keeps (fun w => Inv w ∧ SafePass T w p) (processDueOutbox T p) := by
  refine Faulty.Triple.read (fun w h => h.1) (fun w h => h.1) fun hlist => ?_
  refine Faulty.Triple.bind (Q := fun v w => v=w ∧ Inv w ∧ SafePass T w p)
    (Faulty.Triple.get fun _ h => ⟨rfl,h⟩) fun v => ?_
  refine Faulty.Triple.of_state ?_
  rintro w ⟨rfl,hinv,hsafe⟩
  cases hm : v.outbox with
  | none => exact Faulty.Triple.pure fun w h => h ▸ hinv
  | some m =>
    split_ifs with hc hd
    · exact Faulty.Triple.pure fun w h => h ▸ hinv
    · refine Faulty.Triple.read (fun w h => h ▸ hinv) (fun w h => h ▸ hinv) fun hdefer => ?_
      have hwhole := hsafe m hm
      have hmessage := processDueMessage_keeps (T := T) (p := p) (m := m)
        fun hs hr ho hg hmark => hwhole hs ⟨hlist,by simpa using hc,hdefer,hd,hr,ho,hg,hmark⟩
      exact hmessage.conseq (fun w h => h ▸ ⟨hinv,hm⟩) (fun _ _ h => h) (fun _ _ h => h)
        fun _ h => h
    · exact Faulty.Triple.read (fun w h => h ▸ hinv) (fun w h => h ▸ hinv) fun _ =>
        Faulty.Triple.pure fun w h => h ▸ hinv

theorem pass_inv {p : Pass} (h : Inv w) (hs : SafePass T w p) : Inv (pass T w p) := by
  have hrun := processDueOutbox_keeps p w ⟨h,hs⟩
  unfold pass Faulty.run
  generalize processDueOutbox T p w=r at hrun ⊢
  obtain ⟨res,w'⟩ := r
  cases res with
  | ok _ => exact hrun
  | error e => cases e <;> exact hrun

def World.scheduled (recipients : List Address) : World := ⟨some ⟨recipients,0,false⟩,0,0,⟨[],[]⟩⟩

def twoAccounts : Accounts where
  resolve a :=
    if a=lit "alice@l" then some (lit "/alice")
    else if a=lit "bob@l" then some (lit "/bob") else none
  resolveCatchAll := none
  authenticate := none
  smtpPrivilege _ := true
  identities := none
  isLocalDomain := none
  splitRelayHost := none
  getForward := none
  expandMList := none
  openStore _ := none

def duePass (second : Fate) : Pass where
  owner := lit "carol@l"
  send := ⟨twoAccounts,true,false,false,false,fun i => if i=1 then second else .done,.done,false⟩
  cancelled := false
  due := true
  listMessages := .done
  deferredSendDue := .done
  releaseStarted := .done
  openMessage := .done
  getMessageRaw := .done
  markReleaseStarted := .done
  clearReleaseStarted := .done
  dropTerminal := .done
  fileToSent := .done
  deleteMessage := .done
  readAttempts := .done
  writeAttempts := .done
  reportOpen := .done
  reportRaw := .done
  moveMessage := .done

end HermEX.Spooler
