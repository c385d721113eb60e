import HermEX.Relay.Worker

namespace HermEX.Relay

open Framework

theorem lt_nextId {α : Type} {key : α → Nat} {t : Table key} {r : α} (h : r∈t) :
    key r<nextId t := by
  have hmax : ∀ (l : List Nat) (n : Nat),n∈l → n≤l.foldr max 0 := by
    intro l
    induction l with
    | nil => simp
    | cons m l ih =>
      intro n hn
      rcases List.mem_cons.mp hn with rfl | hn
      · exact Nat.le_max_left _ _
      · exact Nat.le_trans (ih n hn) (Nat.le_max_right _ _)
  exact Nat.lt_succ_of_le (hmax _ _ (List.mem_map_of_mem h))

namespace World

variable {w : World}

variable {id : Nat} {r : Recipient} {now : Int} {it : Item} {f : Recipient → Recipient}
  {hf : ∀ r,(f r).id=r.id}

theorem mem_updateRecipient {r' : Recipient} :
    r'∈(updateRecipient id f hf w).recipients ↔ ∃ r∈w.recipients,r'=if r.id=id then f r else r := by
  simp [updateRecipient]

theorem mem_settle : r∈(settle id w).recipients ↔ r∈w.recipients ∧ r.id≠id := by
  cases hget : w.recipients.get id with
  | none =>
    rw [settle,hget,Option.elim_none]
    exact ⟨fun h => ⟨h,Table.get_eq_none.mp hget r h⟩,fun h => h.1⟩
  | some x => rw [settle,hget,Option.elim_some,Table.mem_deleteWhere,beq_eq_false_iff_ne]

theorem settle_history (id : Nat) (w : World) :
    (settle id w).log=w.log ∧ (settle id w).accepted=w.accepted ∧
      (settle id w).told=w.told ∧ (settle id w).deleted=w.deleted := by
  cases hget : w.recipients.get id with
  | none | some x => rw [settle,hget]; exact ⟨rfl,rfl,rfl,rfl⟩

theorem mem_delete : r∈(delete id w).recipients ↔ r∈w.recipients ∧ r.id≠id := mem_settle

theorem mem_insertRecipient {from_ body : Bytes} {mid : Nat} {rcpt : DSNRecipient}
    (h : r∈(insertRecipient from_ body mid now w rcpt).recipients) :
    r=⟨nextId w.recipients,mid,rcpt.addr,0,now,[],rcpt.notify,rcpt.orcpt,0,false,w.log.length⟩ ∨
      r∈w.recipients := by
  rcases Table.mem_put.mp h with h | h
  · exact .inl h
  · exact .inr h.1

theorem enqueueDSN_invariant {I : World → Prop} {from_ ret envid body : Bytes}
    (recipients : List DSNRecipient) (hmessage : ∀ m,I (w.insertMessage m))
    (hinsert : ∀ v mid rcpt,I v → I (insertRecipient from_ body mid now v rcpt)) (h : I w) :
    I (enqueueDSN from_ ret envid recipients body now w) := by
  rw [enqueueDSN]
  split_ifs
  · exact h
  have hfold : ∀ (rcpts : List DSNRecipient) (mid : Nat) (v : World),I v →
      I (rcpts.foldl (insertRecipient from_ body mid now) v) := by
    intro rcpts mid
    induction rcpts with
    | nil => exact fun v hv => hv
    | cons rcpt rcpts ih => exact fun v hv => ih _ (hinsert v mid rcpt hv)
  exact hfold recipients _ _ (hmessage _)

structure Numbered (w : World) : Prop where
  issued : ∀ r∈w.recipients,r.serial<w.log.length
  unique : ∀ r∈w.recipients,∀ r'∈w.recipients,r.serial=r'.serial → r.id=r'.id

def Tracks (w w' : World) : Prop :=
  ∀ r'∈w'.recipients,∃ r∈w.recipients,r.id=r'.id ∧ r.serial=r'.serial

theorem tracks_settle (id : Nat) (w : World) : Tracks w (settle id w) :=
  fun r hr => ⟨r,(mem_settle.mp hr).1,rfl,rfl⟩

theorem tracks_update (w : World) (hserial : ∀ r,(f r).serial=r.serial) :
    Tracks w (updateRecipient id f hf w) := by
  intro r' hr'
  obtain ⟨r,hr,rfl⟩ := mem_updateRecipient.mp hr'
  refine ⟨r,hr,?_⟩
  split_ifs
  · exact ⟨(hf r).symm,(hserial r).symm⟩
  · exact ⟨rfl,rfl⟩

theorem tracks_retryNow (id : Nat) (when_ : Int) (w : World) : Tracks w (retryNow id when_ w) :=
  tracks_update w fun _ => rfl

theorem tracks_write (op : Write) (w : World) : Tracks w (op.apply w) := by
  cases op with
  | markStarted id now | clearStarted id | markDelivered id => exact tracks_update w fun _ => rfl
  | sent id | fail id => exact tracks_settle id w
  | retry id nextAttempt lastErr => exact tracks_update w fun _ => rfl

theorem write_history (op : Write) (w : World) :
    (op.apply w).log=w.log ∧ (op.apply w).accepted=w.accepted ∧
      (op.apply w).told=w.told ∧ (op.apply w).deleted=w.deleted := by
  cases op with
  | markStarted id now | clearStarted id | markDelivered id => exact ⟨rfl,rfl,rfl,rfl⟩
  | sent id | fail id => exact settle_history id w
  | retry id nextAttempt lastErr => exact ⟨rfl,rfl,rfl,rfl⟩

theorem Numbered.tracks {w' : World} (h : Numbered w) (ht : Tracks w w')
    (hlog : w'.log=w.log) : Numbered w' := by
  constructor
  · intro r' hr'
    obtain ⟨r,hr,-,hserial⟩ := ht r' hr'
    rw [hlog,← hserial]
    exact h.issued r hr
  · intro a' ha' b' hb' hsame
    obtain ⟨a,ha,haid,haserial⟩ := ht a' ha'
    obtain ⟨b,hb,hbid,hbserial⟩ := ht b' hb'
    rw [← haid,← hbid]
    exact h.unique a ha b hb (haserial.trans (hsame.trans hbserial.symm))

theorem Numbered.insertRecipient (h : Numbered w) (from_ body : Bytes) (mid : Nat) (now : Int)
    (rcpt : DSNRecipient) : Numbered (insertRecipient from_ body mid now w rcpt) := by
  have hlength : (World.insertRecipient from_ body mid now w rcpt).log.length =
      w.log.length+1 := by
    simp [World.insertRecipient]
  constructor
  · intro r hr
    rw [hlength]
    rcases mem_insertRecipient hr with rfl | hr
    · exact Nat.lt_succ_self _
    · exact Nat.lt_succ_of_lt (h.issued r hr)
  · intro a ha b hb hsame
    rcases mem_insertRecipient ha with rfl | ha <;> rcases mem_insertRecipient hb with rfl | hb
    · rfl
    · exact absurd hsame (Nat.ne_of_gt (h.issued b hb))
    · exact absurd hsame (Nat.ne_of_lt (h.issued a ha))
    · exact h.unique a ha b hb hsame

theorem Numbered.other (h : Numbered w) (x : Other) : Numbered (x.apply w) := by
  cases x with
  | enqueueDSN from_ ret envid recipients body now =>
    exact enqueueDSN_invariant recipients (fun _ => ⟨h.issued,h.unique⟩)
      (fun v mid rcpt hv => hv.insertRecipient from_ body mid now rcpt) h
  | retryNow id when_ => exact h.tracks (tracks_retryNow id when_ w) rfl
  | delete id =>
    exact h.tracks (fun r hr => ⟨r,(mem_delete.mp hr).1,rfl,rfl⟩) (settle_history id w).1

theorem item_eq (h : w.item r=some it) :
    it.recipientID=r.id ∧ it.serial=r.serial ∧ it.delivered=r.delivered := by
  obtain ⟨m,-,rfl⟩ := Option.map_eq_some_iff.mp h
  exact ⟨rfl,rfl,rfl⟩

theorem mem_claim {limit : Nat} (h : it∈w.claim now limit) :
    ∃ r∈w.recipients,w.item r=some it ∧ r.deliveryStarted=0 ∧ r.delivered=false := by
  obtain ⟨r,hr,hit⟩ := List.mem_filterMap.mp (List.mem_of_mem_take h)
  obtain ⟨hrow,hdue⟩ := List.mem_filter.mp ((List.mem_insertionSort _).mp hr)
  simp only [Bool.and_eq_true,beq_iff_eq,Bool.not_eq_true'] at hdue
  exact ⟨r,hrow,hit,hdue.1.2,hdue.2⟩

theorem mem_unsettled (h : it∈w.unsettled) : ∃ r∈w.recipients,w.item r=some it := by
  obtain ⟨r,hr,hit⟩ := List.mem_filterMap.mp h
  exact ⟨r,(List.mem_filter.mp ((List.mem_insertionSort _).mp hr)).1,hit⟩

theorem claim_distinct (h : Numbered w) (now : Int) (limit : Nat) :
    (w.claim now limit).Pairwise fun a b =>
      a.recipientID≠b.recipientID ∧ a.serial≠b.serial := by
  generalize hp : (fun r : Recipient =>
    decide (r.nextAttempt≤now) && r.deliveryStarted == 0 && !r.delivered)=p
  have hids : ((w.recipients.rows.filter p).insertionSort byDue).Pairwise
      fun a b => a.id≠b.id := by
    have hrows : w.recipients.rows.Pairwise fun a b => a.id≠b.id :=
      List.pairwise_map.mp w.recipients.unique
    have hperm := List.perm_insertionSort byDue (w.recipients.rows.filter p)
    exact (hperm.pairwise_iff fun hne => hne.symm).mpr (hrows.sublist List.filter_sublist)
  have hmem : ∀ r∈(w.recipients.rows.filter p).insertionSort byDue,r∈w.recipients :=
    fun r hr => (List.mem_filter.mp ((List.mem_insertionSort _).mp hr)).1
  have hboth : ((w.recipients.rows.filter p).insertionSort byDue).Pairwise
      fun a b => a.id≠b.id ∧ a.serial≠b.serial :=
    hids.imp_of_mem fun {a b} ha hb hne =>
      ⟨hne,fun hsame => hne (h.unique a (hmem a ha) b (hmem b hb) hsame)⟩
  rw [claim,hp]
  apply List.Pairwise.sublist (List.take_sublist _ _)
  apply List.pairwise_filterMap.mpr
  refine hboth.imp fun {a b} hab x hx y hy => ?_
  obtain ⟨hxid,hxserial,-⟩ := item_eq hx
  obtain ⟨hyid,hyserial,-⟩ := item_eq hy
  rw [hxid,hyid,hxserial,hyserial]
  exact hab

end World
end HermEX.Relay
