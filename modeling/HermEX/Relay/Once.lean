import HermEX.Relay.Rows

namespace HermEX.Relay

open Framework World

/-- Rows come in unstarted and new, the others keep their flags. -/
structure Quiet (w w' : World) : Prop where
  accepted : w'.accepted=w.accepted
  log : w.log.length≤w'.log.length
  rows : ∀ r'∈w'.recipients,
    (w.log.length ≤ r'.serial ∧ r'.deliveryStarted=0 ∧ r'.delivered=false) ∨
    ∃ r∈w.recipients,r.id=r'.id ∧ r.serial=r'.serial ∧
      r.deliveryStarted=r'.deliveryStarted ∧ r.delivered=r'.delivered

variable {op : Write} (v : Worker)

theorem quiet_enqueueDSN (from_ ret envid : Bytes) (recipients : List DSNRecipient) (body : Bytes)
    (now : Int) (w : World) : Quiet w (enqueueDSN from_ ret envid recipients body now w) := by
  have hsame : ∀ v : World,v.accepted=w.accepted → v.log=w.log →
      v.recipients=w.recipients → Quiet w v := by
    intro v haccepted hlog hrows
    refine ⟨haccepted,by rw [hlog],fun r hr => .inr ⟨r,?_,rfl,rfl,rfl,rfl⟩⟩
    rwa [← hrows]
  refine enqueueDSN_invariant recipients (fun _ => hsame _ rfl rfl rfl) ?_ (hsame w rfl rfl rfl)
  intro v mid rcpt h
  refine ⟨h.accepted,?_,fun r hr => ?_⟩
  · rw [insertRecipient,List.length_append]
    exact Nat.le_trans h.log (Nat.le_add_right _ _)
  · rcases mem_insertRecipient hr with rfl | hr
    · exact .inl ⟨h.log,rfl,rfl⟩
    · exact h.rows r hr

theorem quiet_other (x : Other) (w : World) : Quiet w (x.apply w) := by
  cases x with
  | enqueueDSN from_ ret envid recipients body now =>
    exact quiet_enqueueDSN from_ ret envid recipients body now w
  | retryNow id when_ =>
    refine ⟨rfl,Nat.le_refl _,fun r' hr' => .inr ?_⟩
    obtain ⟨r,hr,rfl⟩ := mem_updateRecipient.mp hr'
    refine ⟨r,hr,?_⟩
    split_ifs <;> exact ⟨rfl,rfl,rfl,rfl⟩
  | delete id =>
    obtain ⟨hlog,haccepted,-,-⟩ := settle_history id w
    have hlength : (Other.apply (.delete id) w).log=w.log := hlog
    refine ⟨haccepted,by rw [hlength],fun r hr => .inr ⟨r,(mem_delete.mp hr).1,rfl,rfl,rfl,rfl⟩⟩

/-- A row that can be claimed has never been accepted. -/
structure Once (w : World) : Prop where
  numbered : w.Numbered
  known : ∀ n∈w.accepted,n<w.log.length
  nodup : w.accepted.Nodup
  unsent : ∀ r∈w.recipients,r.deliveryStarted=0 → r.delivered=false → r.serial∉w.accepted

/-- Neither it nor what now has its id was accepted. -/
structure Pending (w : World) (it : Item) : Prop where
  issued : it.serial<w.log.length
  unsent : it.serial∉w.accepted
  place : ∀ r∈w.recipients,r.serial=it.serial → r.id=it.recipientID
  row : ∀ r∈w.recipients,r.id=it.recipientID → r.serial∉w.accepted

def Stamped (w : World) (it : Item) : Prop :=
  ∀ r∈w.recipients,r.serial=it.serial → r.deliveryStarted≠0

def Distinct (items : List Item) : Prop :=
  items.Pairwise fun a b => a.recipientID≠b.recipientID ∧ a.serial≠b.serial

variable {w w' : World} {it : Item} (id : Nat)

theorem Once.other (h : Once w) (x : Other) : Once (x.apply w) := by
  have hq := quiet_other x w
  refine ⟨h.numbered.other x,?_,?_,?_⟩
  · rw [hq.accepted]
    exact fun n hn => Nat.lt_of_lt_of_le (h.known n hn) hq.log
  · rw [hq.accepted]
    exact h.nodup
  · intro r' hr' hstarted hdelivered
    rw [hq.accepted]
    rcases hq.rows r' hr' with ⟨hnew,-,-⟩ | ⟨r,hr,-,hserial,hs,hd⟩
    · exact fun hmem => absurd (h.known _ hmem) (Nat.not_lt.mpr hnew)
    · rw [← hserial]
      exact h.unsent r hr (hs.trans hstarted) (hd.trans hdelivered)

theorem Pending.quiet (h : Pending w it) (honce : Once w) (hq : Quiet w w') : Pending w' it := by
  refine ⟨Nat.lt_of_lt_of_le h.issued hq.log,?_,?_,?_⟩
  · rw [hq.accepted]
    exact h.unsent
  · intro r' hr' hsame
    rcases hq.rows r' hr' with ⟨hnew,-,-⟩ | ⟨r,hr,hid,hserial,-,-⟩
    · exact absurd h.issued (by omega)
    · rw [← hid]
      exact h.place r hr (hserial.trans hsame)
  · intro r' hr' hsame
    rw [hq.accepted]
    rcases hq.rows r' hr' with ⟨hnew,-,-⟩ | ⟨r,hr,hid,hserial,-,-⟩
    · exact fun hmem => absurd (honce.known _ hmem) (Nat.not_lt.mpr hnew)
    · rw [← hserial]
      exact h.row r hr (hid.trans hsame)

theorem Stamped.quiet (h : Stamped w it) (hp : Pending w it) (hq : Quiet w w') :
    Stamped w' it := by
  intro r' hr' hsame
  rcases hq.rows r' hr' with ⟨hnew,-,-⟩ | ⟨r,hr,-,hserial,hs,-⟩
  · exact absurd hp.issued (by omega)
  · rw [← hs]
    exact h r hr (hserial.trans hsame)

theorem Pending.write (h : Pending w it) (op : Write) : Pending (op.apply w) it := by
  obtain ⟨hlog,haccepted,-,-⟩ := write_history op w
  refine ⟨by rw [hlog]; exact h.issued,by rw [haccepted]; exact h.unsent,?_,?_⟩
  · intro r' hr' hsame
    obtain ⟨r,hr,hid,hserial⟩ := tracks_write op w r' hr'
    rw [← hid]
    exact h.place r hr (hserial.trans hsame)
  · intro r' hr' hsame
    obtain ⟨r,hr,hid,hserial⟩ := tracks_write op w r' hr'
    rw [haccepted,← hserial]
    exact h.row r hr (hid.trans hsame)

section Writes

variable (h : Once w)

include h

theorem Once.write (hunsent : ∀ r∈(op.apply w).recipients,
    r.deliveryStarted=0 → r.delivered=false → r.serial∉w.accepted) : Once (op.apply w) := by
  obtain ⟨hlog,haccepted,-,-⟩ := write_history op w
  refine ⟨h.numbered.tracks (tracks_write op w) hlog,?_,?_,?_⟩
  · rw [haccepted,hlog]
    exact h.known
  · rw [haccepted]
    exact h.nodup
  · rw [haccepted]
    exact hunsent

theorem Once.update {id : Nat} {f : Recipient → Recipient}
    {hf : ∀ r,(f r).id=r.id} (hop : op.apply w=updateRecipient id f hf w)
    (hnew : ∀ r∈w.recipients,r.id=id → (f r).deliveryStarted=0 → (f r).delivered=false →
      (f r).serial∉w.accepted) : Once (op.apply w) := by
  refine h.write fun r' hr' hstarted hdelivered => ?_
  rw [hop] at hr'
  obtain ⟨r,hr,rfl⟩ := mem_updateRecipient.mp hr'
  split_ifs at hstarted hdelivered ⊢ with hid
  · exact hnew r hr hid hstarted hdelivered
  · exact h.unsent r hr hstarted hdelivered

theorem Once.markStarted {now : Int} (hnow : now≠0) :
    Once ((Write.markStarted id now).apply w) :=
  h.update rfl fun _ _ _ hstarted => absurd hstarted hnow

theorem Once.clearStarted {id : Nat} (hrow : ∀ r∈w.recipients,r.id=id → r.serial∉w.accepted) :
    Once ((Write.clearStarted id).apply w) :=
  h.update rfl fun r hr hid _ _ => hrow r hr hid

theorem Once.markDelivered :
    Once ((Write.markDelivered id).apply w) :=
  h.update rfl fun _ _ _ _ hdelivered => by cases hdelivered

theorem Once.retry (nextAttempt : Int) (lastErr : Bytes) :
    Once ((Write.retry id nextAttempt lastErr).apply w) :=
  h.update rfl fun r hr _ => h.unsent r hr

theorem Once.settle : Once (settle id w) := by
  have hsent : Once ((Write.sent id).apply w) := h.write fun r hr => h.unsent r (mem_settle.mp hr).1
  exact hsent

theorem Once.accept (hp : Pending w it) (hs : Stamped w it) :
    Once ((Call.deliver it).answered none w) := by
  refine ⟨⟨h.numbered.issued,h.numbered.unique⟩,?_,?_,?_⟩
  · intro n hn
    rcases List.mem_append.mp hn with hn | hn
    · exact h.known n hn
    · rw [List.mem_singleton.mp hn]
      exact hp.issued
  · exact List.nodup_append.mpr ⟨h.nodup,List.nodup_singleton _,fun a ha b hb hab =>
      hp.unsent (List.mem_singleton.mp hb ▸ hab ▸ ha)⟩
  · intro r hr hstarted hdelivered hmem
    rcases List.mem_append.mp hmem with hmem | hmem
    · exact h.unsent r hr hstarted hdelivered hmem
    · exact hs r hr (List.mem_singleton.mp hmem) hstarted

end Writes

theorem Pending.accept {other : Item} (h : Pending w other) (hp : Pending w it)
    (hid : it.recipientID≠other.recipientID) (hserial : it.serial≠other.serial) :
    Pending ((Call.deliver it).answered none w) other := by
  refine ⟨h.issued,?_,h.place,?_⟩
  · intro hmem
    rcases List.mem_append.mp hmem with hmem | hmem
    · exact h.unsent hmem
    · exact hserial (List.mem_singleton.mp hmem).symm
  · intro r hr hsame hmem
    rcases List.mem_append.mp hmem with hmem | hmem
    · exact h.row r hr hsame hmem
    · exact hid ((hp.place r hr (List.mem_singleton.mp hmem)).symm.trans hsame)

def Careful (p : Pass) (w : World) : Prop :=
  match p with
  | .write (.markStarted _ now) _ => now≠0
  | .write (.clearStarted id) _ => ∀ r∈w.recipients,r.id=id → r.serial∉w.accepted
  | _ => True

/-- The moves of a careful drainer, whatever others do. -/
def onceContract : Contract setting (Worker×Int) where
  inv := Once
  starts _ := True
  guard p _ w := Careful p w
  rely _ _ _ := True

def Ready (items : List Item) (w : World) : Prop := Once w ∧ ∀ it∈items,Pending w it

theorem Ready.keeps {items : List Item} (w : World) (h : Ready items w) : onceContract.inv w := h.1

theorem stable_once (p : Pass) : onceContract.Stable Once p := fun _ x h _ => h.other x

theorem stable_ready (items : List Item) (p : Pass) : onceContract.Stable (Ready items) p :=
  fun w x h _ => ⟨h.1.other x,fun it hit => (h.2 it hit).quiet h.1 (quiet_other x w)⟩

theorem Ready.write {items : List Item} (h : Ready items w) (honce : Once (op.apply w)) :
    Ready items (op.apply w) := ⟨honce,fun it hit => (h.2 it hit).write op⟩

variable {items : List Item} {k : Pass} (now : Int)

theorem write_valid (honce : ∀ w,Once w → Once (op.apply w))
    (hk : onceContract.Valid (Ready items) k) : onceContract.Valid (Ready items) (.write op k) :=
  .write Ready.keeps (stable_ready _ _) (fun w _ h _ => h.write (honce w h.1)) hk

theorem giveUp_valid (it : Item) (cause : Err) {k : Option Err → Pass}
    (hk : ∀ a,onceContract.Valid (Ready items) (k a)) :
    onceContract.Valid (Ready items) (giveUp v it cause k) := by
  rw [giveUp]
  split_ifs
  · refine .call Ready.keeps (stable_ready _ _) (fun w a h _ => ?_) hk
    cases a with
    | none =>
      have hnumbered : Numbered ((Call.onGiveUp it cause).answered none w) :=
        ⟨h.1.numbered.issued,h.1.numbered.unique⟩
      refine ⟨⟨hnumbered,h.1.known,h.1.nodup,h.1.unsent⟩,fun other hother => ?_⟩
      obtain ⟨hissued,hunsent,hplace,hrow⟩ := h.2 other hother
      exact ⟨hissued,hunsent,hplace,hrow⟩
    | some e => exact h
  · exact hk none

theorem settleFailure_valid (it : Item) (now : Int) (e : Err)
    (hk : onceContract.Valid (Ready items) k) :
    onceContract.Valid (Ready items) (settleFailure v it now e k) := by
  rw [settleFailure]
  split_ifs
  · refine giveUp_valid v it e fun a => ?_
    cases a with
    | none => exact write_valid (fun w h => h.settle _) hk
    | some be => exact write_valid (fun w h => h.retry _ _ _) hk
  · exact write_valid (fun w h => h.retry _ _ _) hk

theorem settleDelivered_valid (it : Item) (hk : onceContract.Valid (Ready items) k) :
    onceContract.Valid (Ready items) (settleDelivered it k) :=
  write_valid (fun _ h => h.markDelivered _) (write_valid (fun _ h => h.settle _) hk)

theorem attempt_valid (hdistinct : Distinct (it::items)) (hk : onceContract.Valid (Ready items) k) :
    onceContract.Valid (Ready (it::items)) (attempt v now it k) := by
  have hothers := (List.pairwise_cons.mp hdistinct).1
  refine .write (Q := fun w => Ready (it::items) w ∧ Stamped w it) Ready.keeps (stable_ready _ _)
    (fun w a h hnow => ?_) ?_
  · refine ⟨h.write (h.1.markStarted _ hnow),fun r' hr' hsame => ?_⟩
    obtain ⟨r,hr,rfl⟩ := mem_updateRecipient.mp hr'
    have hserial : r.serial=it.serial := by split_ifs at hsame <;> exact hsame
    rw [if_pos ((h.2 it (by simp)).place r hr hserial)]
    exact hnow
  · refine .call (Q := fun a w => Option.elim a (Ready items w) fun _ => Ready (it::items) w)
      (fun w h => h.1.1) ?_ ?_ fun a => ?_
    · intro w x h _
      exact ⟨stable_ready _ (.done) w x h.1 trivial,
        h.2.quiet (h.1.2 it (by simp)) (quiet_other x w)⟩
    · intro w a h _
      have hit := h.1.2 it (by simp)
      cases a with
      | none => exact ⟨h.1.1.accept hit h.2,fun other hother =>
        (h.1.2 other (by simp [hother])).accept hit (hothers other hother).1
          (hothers other hother).2⟩
      | some e => exact h.1
    · cases a with
      | none => exact settleDelivered_valid it hk
      | some e =>
        refine .write Ready.keeps (stable_ready _ _) (fun w a h _ => ?_)
          (settleFailure_valid v it now e hk)
        have hready := h.write (h.1.clearStarted (h.2 it (by simp)).row)
        exact ⟨hready.1,fun other hother => hready.2 other (by simp [hother])⟩

theorem attempts_valid (hdistinct : Distinct items) :
    onceContract.Valid (Ready items) (items.foldr (attempt v now) .done) := by
  induction items with
  | nil => exact .done Ready.keeps
  | cons it items ih => exact attempt_valid v now hdistinct (ih (List.pairwise_cons.mp hdistinct).2)

theorem resolve_valid (it : Item) (hk : onceContract.Valid (Ready []) k) :
    onceContract.Valid (Ready []) (resolve v now it k) := by
  rw [resolve]
  split_ifs
  · exact write_valid (fun w h => h.settle _) hk
  · refine giveUp_valid v it _ fun a => ?_
    cases a with
    | none => exact write_valid (fun w h => h.settle _) hk
    | some be =>
      refine .write Ready.keeps (stable_ready _ _) (fun w a h hrow => ?_)
        (write_valid (fun w h => h.retry _ _ _) hk)
      exact h.write (h.1.clearStarted hrow)

theorem processDue_valid : onceContract.Valid Once (processDue v now) := by
  have hclaim : onceContract.Valid (Ready []) (.read (.claim (unix now) v.batchSize) fun items =>
      items.foldr (attempt v now) .done) := by
    refine .read (Q := fun items w => Distinct items ∧ Ready items w) Ready.keeps
      (stable_ready _ _) (fun w h => ?_) fun items => ?_
    · refine ⟨claim_distinct h.1.numbered _ _,h.1,fun it hit => ?_⟩
      obtain ⟨r,hr,hitem,hstarted,hdelivered⟩ := mem_claim hit
      obtain ⟨hid,hserial,-⟩ := item_eq hitem
      have hunsent := h.1.unsent r hr hstarted hdelivered
      constructor
      · rw [hserial]
        exact h.1.numbered.issued r hr
      · rw [hserial]
        exact hunsent
      · intro r' hr' hsame
        rw [hid]
        exact h.1.numbered.unique r' hr' r hr (hsame.trans hserial)
      · intro r' hr' hsame
        rw [Table.eq_of_key hr' hr (hsame.trans hid)]
        exact hunsent
    · exact .given fun hdistinct => attempts_valid v now hdistinct
  refine .weaken (fun w h => (⟨h,by simp⟩ : Ready [] w)) ?_
  refine .read (Q := fun _ => Ready []) Ready.keeps (stable_ready _ _) (fun w h => h)
    fun items => ?_
  induction items with
  | nil => exact hclaim
  | cons it items ih => exact resolve_valid v now it ih

/-- No message is accepted twice for one row in careful passes. -/
theorem accepted_nodup {moves : List Step}
    (h : Meets drain onceContract.Allows .empty moves) :
    (runSteps drain .empty moves).state.accepted.Nodup := by
  have hempty : Once World.empty :=
    ⟨⟨fun r hr => absurd hr (Table.not_mem_empty r),fun r hr => absurd hr (Table.not_mem_empty r)⟩,
      by simp [World.empty],by simp [World.empty],fun r hr => absurd hr (Table.not_mem_empty r)⟩
  have hinv := Contract.run_inv (stable_once .done) (fun i _ => processDue_valid i.1 i.2) hempty h
  exact hinv.nodup

/-- The process dies while an acceptance is recorded; the next pass settles it. -/
theorem accepted_nodup_late :
    let worker : Worker := ⟨0,0,0,0,0,true⟩
    let moves : List Step :=
      [.other (.enqueueDSN (lit "sender") [] [] [⟨lit "first",[],[]⟩] (lit "hi") 3000000),
        .start (worker,3000000*second),.go .goes none,.go .goes none,.go .goes none,.go .goes none,
        .go .behind none,.start (worker,3000060*second),.go .goes none,.go .goes none]
    (runSteps drain .empty moves).state.accepted = [0] ∧
      (runSteps drain .empty moves).state.recipients.rows = [] ∧
      (runSteps drain .empty moves).state.accepted.Nodup := by
  intro worker moves
  have hstamp : unix (3000000*second)≠0 := by decide
  have hmoves : Meets drain onceContract.Allows .empty moves :=
    ⟨trivial,trivial,Or.inr trivial,Or.inr trivial,Or.inr hstamp,Or.inr trivial,Or.inr trivial,
      trivial,Or.inr trivial,Or.inr trivial,trivial⟩
  exact ⟨by decide +kernel,by decide +kernel,accepted_nodup hmoves⟩

/-- The process dies after the acceptance; six hours later it is sent again. -/
theorem accepted_twice :
    let worker : Worker := ⟨0,0,0,0,0,true⟩
    let moves : List Step :=
      [.other (.enqueueDSN (lit "sender") [] [] [⟨lit "first",[],[]⟩] (lit "hi") 3000000),
        .start (worker,3000000*second),.go .goes none,.go .goes none,.go .goes none,
        .go .behind none,.start (worker,3000060*second),.go .goes none,
        .go .goes (some ⟨none,lit "mailbox full"⟩),.go .goes none,.go .goes none,.go .goes none,
        .start (worker,3030000*second),.go .goes none,.go .goes none,.go .goes none,.go .goes none]
    (runSteps drain .empty moves).state.accepted = [0,0] := by
  decide +kernel

end HermEX.Relay
