import HermEX.Relay.Rows

namespace HermEX.Relay

open Framework World

variable {r : Recipient} {id : Nat} {m : Message} (rcpts : List DSNRecipient) {p : Pass}
  {op : Write} {v : Worker}

theorem nextId_le {α : Type} {key : α → Nat} {t : Table key} {n : Nat} (h : ∀ r∈t,key r≤n) :
    nextId t≤n+1 := by
  have hmax : ∀ l : List Nat,(∀ m∈l,m≤n) → l.foldr max 0≤n := by
    intro l
    induction l with
    | nil => simp
    | cons m l ih =>
      intro hl
      exact Nat.max_le.mpr ⟨hl m (by simp),ih fun x hx => hl x (by simp [hx])⟩
  apply Nat.succ_le_succ (hmax _ _)
  intro m hm
  obtain ⟨r,hr,rfl⟩ := List.mem_map.mp hm
  exact h r hr

theorem nextId_put {α : Type} {key : α → Nat} {t : Table key} {r : α} (h : key r=nextId t) :
    nextId (t.put r)=nextId t+1 := by
  have hlow := lt_nextId (Table.mem_put.mpr (.inl rfl) : r∈t.put r)
  have hhigh : nextId (t.put r)≤nextId t+1 := by
    apply nextId_le
    intro x hx
    rcases Table.mem_put.mp hx with rfl | ⟨hx,-⟩
    · rw [h]
    · exact Nat.le_of_lt (lt_nextId hx)
  omega

variable {w : World} {from_ ret envid body : Bytes} {mid : Nat} {now : Int} {items : List Item}
  {it : Item}

theorem mem_insertRecipients {rcpts : List DSNRecipient}
    (h : r∈(rcpts.foldl (insertRecipient from_ body mid now) w).recipients) :
    r∈w.recipients ∨
      nextId w.recipients ≤ r.id ∧ r.id<nextId w.recipients+rcpts.length := by
  induction rcpts generalizing w with
  | nil => exact .inl h
  | cons rcpt rcpts ih =>
    have hnext : nextId (insertRecipient from_ body mid now w rcpt).recipients =
        nextId w.recipients+1 := nextId_put rfl
    rcases ih h with hr | ⟨hlow,hhigh⟩
    · rcases mem_insertRecipient hr with rfl | hr
      · exact .inr ⟨Nat.le_refl _,by simp⟩
      · exact .inl hr
    · exact .inr ⟨by omega,by rw [List.length_cons]; omega⟩

theorem mem_enqueueDSN {rcpts : List DSNRecipient}
    (h : r∈(enqueueDSN from_ ret envid rcpts body now w).recipients) :
    r∈w.recipients ∨
      nextId w.recipients ≤ r.id ∧ r.id<nextId w.recipients+rcpts.length := by
  rw [enqueueDSN] at h
  split_ifs at h
  · exact .inl h
  · exact mem_insertRecipients (w := w.insertMessage _) h

def Accounted (w : World) : Prop :=
  ∀ n e,w.log[n]?=some e →
    (∃ r∈w.recipients,r.serial=n ∧ r.recipient=e.recipient ∧ ∃ m∈w.messages,
      m.id=r.messageId ∧ m.envelopeFrom=e.envelopeFrom ∧ m.body=e.body) ∨
    n∈w.accepted ∨ n∈w.told ∨ n∈w.deleted

def BodiesMatch (w : World) : Prop :=
  ∀ id,(∃ m∈w.messages,m.id=id) ↔ ∃ r∈w.recipients,r.messageId=id

def Finished (w : World) (n : Nat) : Prop := n∈w.accepted ∨ n∈w.told ∨ n∈w.deleted

/-- Also in the middle of a transaction. -/
structure Stored (w : World) : Prop where
  numbered : w.Numbered
  stored : ∀ r∈w.recipients,∃ m∈w.messages,m.id=r.messageId ∧
    w.log[r.serial]?=some ⟨m.envelopeFrom,r.recipient,m.body⟩
  finished : ∀ n<w.log.length,(∃ r∈w.recipients,r.serial=n) ∨ Finished w n
  delivered : ∀ r∈w.recipients,r.delivered=true → r.serial∈w.accepted

structure Kept (w : World) : Prop extends Stored w where
  bodies : ∀ m∈w.messages,∃ r∈w.recipients,r.messageId=m.id

theorem Kept.bodiesMatch (h : Kept w) : BodiesMatch w := by
  intro id
  constructor
  · rintro ⟨m,hm,rfl⟩
    exact h.bodies m hm
  · rintro ⟨r,hr,rfl⟩
    obtain ⟨m,hm,hid,-⟩ := h.stored r hr
    exact ⟨m,hm,hid⟩

theorem Kept.accounted (h : Kept w) : Accounted w := by
  intro n e he
  rcases h.finished n (List.getElem?_eq_some_iff.mp he).1 with ⟨r,hr,rfl⟩ | hdone
  · obtain ⟨m,hm,hid,hlog⟩ := h.stored r hr
    rw [hlog,Option.some.injEq] at he
    subst he
    exact .inl ⟨r,hr,rfl,rfl,m,hm,hid,rfl,rfl⟩
  · exact .inr hdone

theorem Kept.more (h : Kept w) (accepted told deleted : List Nat) :
    Kept {w with
      accepted:=w.accepted++accepted
      told:=w.told++told
      deleted:=w.deleted++deleted} := by
  refine ⟨⟨⟨h.numbered.issued,h.numbered.unique⟩,h.stored,fun n hn => ?_,fun r hr hd =>
    List.mem_append_left _ (h.delivered r hr hd)⟩,h.bodies⟩
  rcases h.finished n hn with hrow | hdone | hdone | hdone
  · exact .inl hrow
  · exact .inr (.inl (List.mem_append_left _ hdone))
  · exact .inr (.inr (.inl (List.mem_append_left _ hdone)))
  · exact .inr (.inr (.inr (List.mem_append_left _ hdone)))

theorem Kept.update (h : Kept w) {f : Recipient → Recipient} {hf : ∀ r,(f r).id=r.id}
    (hsame : ∀ r,(f r).messageId=r.messageId ∧ (f r).recipient=r.recipient ∧
      (f r).serial=r.serial) (hdelivered : ∀ r∈w.recipients,r.id=id → (f r).delivered=true →
      r.serial∈w.accepted) : Kept (updateRecipient id f hf w) := by
  have hrow : ∀ r∈w.recipients,∃ r'∈(updateRecipient id f hf w).recipients,
      r'.messageId=r.messageId ∧ r'.serial=r.serial := by
    intro r hr
    refine ⟨_,mem_updateRecipient.mpr ⟨r,hr,rfl⟩,?_⟩
    split_ifs
    · exact ⟨(hsame r).1,(hsame r).2.2⟩
    · exact ⟨rfl,rfl⟩
  refine ⟨⟨h.numbered.tracks (tracks_update w fun r => (hsame r).2.2) rfl,?_,?_,?_⟩,?_⟩
  · intro r' hr'
    obtain ⟨r,hr,rfl⟩ := mem_updateRecipient.mp hr'
    obtain ⟨m,hm,hid,hlog⟩ := h.stored r hr
    refine ⟨m,hm,?_⟩
    split_ifs
    · rw [(hsame r).1,(hsame r).2.1,(hsame r).2.2]
      exact ⟨hid,hlog⟩
    · exact ⟨hid,hlog⟩
  · intro n hn
    rcases h.finished n hn with ⟨r,hr,hserial⟩ | hdone
    · obtain ⟨r',hr',-,hsame'⟩ := hrow r hr
      exact .inl ⟨r',hr',hsame'.trans hserial⟩
    · exact .inr hdone
  · intro r' hr' hd
    obtain ⟨r,hr,rfl⟩ := mem_updateRecipient.mp hr'
    split_ifs at hd ⊢ with hid
    · rw [(hsame r).2.2]
      exact hdelivered r hr hid hd
    · exact h.delivered r hr hd
  · intro m hm
    obtain ⟨r,hr,hid⟩ := h.bodies m hm
    obtain ⟨r',hr',hmessage,-⟩ := hrow r hr
    exact ⟨r',hr',hmessage.trans hid⟩

theorem mem_settle_messages (h : w.recipients.get id=some r) : m∈(settle id w).messages ↔
      m∈w.messages ∧ (m.id=r.messageId →
        ∃ r'∈(settle id w).recipients,r'.messageId=r.messageId) := by
  simp only [settle,h,Option.elim_some]
  split_ifs with hany
  · obtain ⟨r',hr',hsame⟩ := List.any_eq_true.mp hany
    exact ⟨fun hm => ⟨hm,fun _ => ⟨r',hr',by simpa using hsame⟩⟩,fun hm => hm.1⟩
  · rw [Table.mem_deleteWhere,beq_eq_false_iff_ne]
    refine and_congr_right fun _ => ⟨fun hne hid => absurd hid hne,fun hrest hid => ?_⟩
    obtain ⟨r',hr',hsame⟩ := hrest hid
    exact hany (List.any_eq_true.mpr ⟨r',hr',by simpa using hsame⟩)

theorem Kept.settle (h : Kept w) (hdone : ∀ r∈w.recipients,r.id=id → Finished w r.serial) :
    Kept (settle id w) := by
  cases hget : w.recipients.get id with
  | none =>
    have hsame : World.settle id w=w := by rw [World.settle,hget,Option.elim_none]
    rwa [hsame]
  | some x =>
    obtain ⟨hx,hxid⟩ := Table.get_eq_some.mp hget
    obtain ⟨hlog,haccepted,htold,hdeleted⟩ := settle_history id w
    refine ⟨⟨h.numbered.tracks (tracks_settle id w) hlog,?_,?_,?_⟩,?_⟩
    · intro r hr
      obtain ⟨m,hm,hid,hrow⟩ := h.stored r (mem_settle.mp hr).1
      rw [hlog]
      exact ⟨m,(mem_settle_messages hget).mpr ⟨hm,fun hsame => ⟨r,hr,hid.symm.trans hsame⟩⟩,
        hid,hrow⟩
    · intro n hn
      rw [hlog] at hn
      rw [Finished,haccepted,htold,hdeleted]
      rcases h.finished n hn with ⟨r,hr,rfl⟩ | hgone
      · by_cases hid : r.id=id
        · exact .inr (hdone r hr hid)
        · exact .inl ⟨r,mem_settle.mpr ⟨hr,hid⟩,rfl⟩
      · exact .inr hgone
    · intro r hr hd
      rw [haccepted]
      exact h.delivered r (mem_settle.mp hr).1 hd
    · intro m hm
      obtain ⟨hm,hlast⟩ := (mem_settle_messages hget).mp hm
      by_cases hsame : m.id=x.messageId
      · obtain ⟨r,hr,hmessage⟩ := hlast hsame
        exact ⟨r,hr,hmessage.trans hsame.symm⟩
      · obtain ⟨r,hr,hmessage⟩ := h.bodies m hm
        refine ⟨r,mem_settle.mpr ⟨hr,fun hid => hsame ?_⟩,hmessage⟩
        rw [← hmessage,Table.eq_of_key hr hx (hid.trans hxid.symm)]

theorem mem_insertRecipient_old {rcpt : DSNRecipient} (h : r∈w.recipients) :
    r∈(insertRecipient from_ body mid now w rcpt).recipients :=
  Table.mem_put.mpr (.inr ⟨h,Nat.ne_of_lt (lt_nextId h)⟩)

theorem Stored.insertRecipient (h : Stored w) (hm : m∈w.messages) (rcpt : DSNRecipient) :
    Stored (insertRecipient m.envelopeFrom m.body m.id now w rcpt) := by
  have hold : ∀ n<w.log.length,(w.log++[⟨m.envelopeFrom,rcpt.addr,m.body⟩])[n]?=w.log[n]? :=
    fun n hn => List.getElem?_append_left hn
  refine ⟨h.numbered.insertRecipient _ _ _ _ _,?_,?_,?_⟩
  · intro r hr
    rcases mem_insertRecipient hr with rfl | hr
    · exact ⟨m,hm,rfl,List.getElem?_concat_length⟩
    · obtain ⟨m',hm',hid,hlog⟩ := h.stored r hr
      exact ⟨m',hm',hid,(hold _ (h.numbered.issued r hr)).trans hlog⟩
  · intro n hn
    rw [World.insertRecipient,List.length_append,List.length_singleton] at hn
    by_cases hlast : n=w.log.length
    · exact .inl ⟨_,Table.mem_put.mpr (.inl rfl),hlast.symm⟩
    · rcases h.finished n (by omega) with ⟨r,hr,hserial⟩ | hdone
      · exact .inl ⟨r,mem_insertRecipient_old hr,hserial⟩
      · exact .inr hdone
  · intro r hr hd
    rcases mem_insertRecipient hr with rfl | hr
    · cases hd
    · exact h.delivered r hr hd

theorem insertRecipients_messages :
    (rcpts.foldl (insertRecipient from_ body mid now) w).messages=w.messages := by
  induction rcpts generalizing w with
  | nil => rfl
  | cons rcpt rcpts ih => exact ih

theorem Stored.insertRecipients (h : Stored w) (hm : m∈w.messages) (rcpts : List DSNRecipient) :
    Stored (rcpts.foldl (World.insertRecipient m.envelopeFrom m.body m.id now) w) := by
  induction rcpts generalizing w with
  | nil => exact h
  | cons rcpt rcpts ih => exact ih (h.insertRecipient hm rcpt) hm

theorem mem_insertRecipients_old (h : r∈w.recipients) :
    r∈(rcpts.foldl (insertRecipient from_ body mid now) w).recipients := by
  induction rcpts generalizing w with
  | nil => exact h
  | cons rcpt rcpts ih => exact ih (mem_insertRecipient_old h)

theorem Kept.enqueueDSN (h : Kept w) (from_ ret envid : Bytes) (rcpts : List DSNRecipient)
    (body : Bytes) (now : Int) : Kept (enqueueDSN from_ ret envid rcpts body now w) := by
  cases rcpts with
  | nil => exact h
  | cons rcpt rcpts =>
    generalize hm : (⟨nextId w.messages,from_,body,now,ret,envid⟩ : Message)=m
    have hshape : World.enqueueDSN from_ ret envid (rcpt::rcpts) body now w =
        (rcpt::rcpts).foldl (World.insertRecipient m.envelopeFrom m.body m.id now)
          (w.insertMessage m) := by
      rw [World.enqueueDSN,if_neg (List.cons_ne_nil _ _),← hm]
    have hid : m.id=nextId w.messages := by rw [← hm]
    have hold : ∀ m'∈w.messages,m'∈(w.insertMessage m).messages := fun m' hm' =>
      Table.mem_put.mpr (.inr ⟨hm',hid ▸ Nat.ne_of_lt (lt_nextId hm')⟩)
    have hstored : Stored (w.insertMessage m) := by
      refine ⟨⟨h.numbered.issued,h.numbered.unique⟩,fun r hr => ?_,h.finished,h.delivered⟩
      obtain ⟨m',hm',hrow⟩ := h.stored r hr
      exact ⟨m',hold m' hm',hrow⟩
    rw [hshape]
    refine ⟨hstored.insertRecipients (Table.mem_put.mpr (.inl rfl)) _,fun m' hm' => ?_⟩
    rw [insertRecipients_messages] at hm'
    rcases Table.mem_put.mp hm' with rfl | ⟨hm',-⟩
    · have hfirst : (⟨nextId w.recipients,m'.id,rcpt.addr,0,now,[],rcpt.notify,rcpt.orcpt,0,false,
          w.log.length⟩ : Recipient)∈(World.insertRecipient m'.envelopeFrom m'.body m'.id now
            (w.insertMessage m') rcpt).recipients := Table.mem_put.mpr (.inl rfl)
      exact ⟨_,mem_insertRecipients_old rcpts hfirst,rfl⟩
    · obtain ⟨r,hr,hmessage⟩ := h.bodies m' hm'
      exact ⟨r,mem_insertRecipients_old (rcpt::rcpts) hr,hmessage⟩

theorem Kept.delete (h : Kept w) (id : Nat) : Kept (delete id w) := by
  have hmore := h.more [] [] ((w.recipients.get id).toList.map (·.serial))
  simp only [List.append_nil] at hmore
  have hsettle : Kept (World.settle id {w with
      deleted:=w.deleted++(w.recipients.get id).toList.map (·.serial)}) := by
    refine hmore.settle fun r hr hid => .inr (.inr (List.mem_append_right _ ?_))
    rw [show w.recipients.get id=some r from Table.get_eq_some.mpr ⟨hr,hid⟩]
    simp
  have hsame : World.delete id w=World.settle id {w with
      deleted:=w.deleted++(w.recipients.get id).toList.map (·.serial)} := by
    cases hget : w.recipients.get id with
    | none | some r => simp [World.delete,World.settle,hget]
  rw [hsame]
  exact hsettle

theorem Kept.other (h : Kept w) (x : Other) : Kept (x.apply w) := by
  cases x with
  | enqueueDSN from_ ret envid rcpts body now => exact h.enqueueDSN from_ ret envid rcpts body now
  | retryNow id when_ =>
    exact h.update (fun _ => ⟨rfl,rfl,rfl⟩) fun r hr _ hd => h.delivered r hr hd
  | delete id => exact h.delete id

def Write.row : Write → Nat
  | .markStarted id _ => id
  | .clearStarted id => id
  | .markDelivered id => id
  | .sent id => id
  | .fail id => id
  | .retry id _ _ => id

def Holds : Pass → Nat → Prop
  | .done,_ => False
  | .read _ _,_ => False
  | .write op k,id => op.row=id ∨ Holds k id
  | .call _ k,id => ∃ a,Holds (k a) id

def Spares (p : Pass) (x : Other) (w : World) : Prop :=
  match x with
  | .enqueueDSN _ _ _ recipients _ _ => ∀ id,Holds p id →
      id<nextId w.recipients ∨ nextId w.recipients+recipients.length ≤ id
  | _ => True

/-- With the hook set, and submissions that reuse no id the pass holds. -/
def keptContract : Contract setting (Worker×Int) where
  inv := Kept
  starts i := i.1.onGiveUp=true
  guard _ _ _ := True
  rely := Spares

/-- Only its row has its id, and a delivered one was accepted. -/
structure Owned (w : World) (it : Item) : Prop where
  row : ∀ r∈w.recipients,r.id=it.recipientID → r.serial=it.serial
  late : it.delivered=true → it.serial∈w.accepted

def Held (items : List Item) (w : World) : Prop := Kept w ∧ ∀ it∈items,Owned w it

def Over (it : Item) (w : World) : Prop := it.serial∈w.accepted ∨ it.serial∈w.told

theorem other_history (x : Other) (w : World) :
    (x.apply w).accepted=w.accepted ∧ (x.apply w).told=w.told := by
  cases x with
  | enqueueDSN from_ ret envid rcpts body now =>
    exact enqueueDSN_invariant (I := fun v => v.accepted=w.accepted ∧ v.told=w.told) rcpts
      (fun _ => ⟨rfl,rfl⟩) (fun _ _ _ h => h) ⟨rfl,rfl⟩
  | retryNow id when_ => exact ⟨rfl,rfl⟩
  | delete id => exact ⟨(settle_history id w).2.1,(settle_history id w).2.2.1⟩

theorem Owned.other {x : Other} (h : Owned w it) (hholds : Holds p it.recipientID)
    (hspares : Spares p x w) : Owned (x.apply w) it := by
  refine ⟨fun r' hr' hid => ?_,fun hd => ?_⟩
  · cases x with
    | enqueueDSN from_ ret envid rcpts body now =>
      rcases mem_enqueueDSN hr' with hr | ⟨hlow,hhigh⟩
      · exact h.row r' hr hid
      · rcases hspares _ hholds with hlt | hle <;> omega
    | retryNow id when_ =>
      obtain ⟨r,hr,hsame,hserial⟩ := tracks_retryNow id when_ w r' hr'
      exact hserial.symm.trans (h.row r hr (hsame.trans hid))
    | delete id => exact h.row r' (mem_delete.mp hr').1 hid
  · rw [(other_history x w).1]
    exact h.late hd

theorem stable_held (hholds : ∀ it∈items,Holds p it.recipientID) :
    keptContract.Stable (Held items) p :=
  fun _ x h hspares => ⟨h.1.other x,fun it hit => (h.2 it hit).other (hholds it hit) hspares⟩

theorem Owned.write (h : Owned w it) (op : Write) : Owned (op.apply w) it := by
  refine ⟨fun r' hr' hid => ?_,fun hd => ?_⟩
  · obtain ⟨r,hr,hsame,hserial⟩ := tracks_write op w r' hr'
    exact hserial.symm.trans (h.row r hr (hsame.trans hid))
  · rw [(write_history op w).2.1]
    exact h.late hd

theorem Held.keeps (w : World) (h : Held items w) : keptContract.inv w := h.1

theorem Held.write (h : Held items w) (hkept : Kept (op.apply w)) :
    Held items (op.apply w) := ⟨hkept,fun it hit => (h.2 it hit).write op⟩

theorem Held.tail (h : Held (it::items) w) : Held items w :=
  ⟨h.1,fun other hother => h.2 other (by simp [hother])⟩

variable {it : Item} {items : List Item} {k : Pass}

theorem keep_valid (hkept : ∀ w,Kept w → Kept (op.apply w))
    (hholds : ∀ it∈items,Holds (.write op k) it.recipientID)
    (hk : keptContract.Valid (Held items) k) : keptContract.Valid (Held items) (.write op k) :=
  .write Held.keeps (stable_held hholds) (fun w _ h _ => h.write (hkept w h.1)) hk

theorem Kept.retry (h : Kept w) (id : Nat) (nextAttempt : Int) (lastErr : Bytes) :
    Kept ((Write.retry id nextAttempt lastErr).apply w) :=
  h.update (fun _ => ⟨rfl,rfl,rfl⟩) fun r hr _ hd => h.delivered r hr hd

theorem Kept.markStarted (h : Kept w) (id : Nat) (now : Int) :
    Kept ((Write.markStarted id now).apply w) :=
  h.update (fun _ => ⟨rfl,rfl,rfl⟩) fun r hr _ hd => h.delivered r hr hd

theorem Kept.clearStarted (h : Kept w) (id : Nat) : Kept ((Write.clearStarted id).apply w) :=
  h.update (fun _ => ⟨rfl,rfl,rfl⟩) fun r hr _ hd => h.delivered r hr hd

theorem Kept.markDelivered (h : Kept w)
    (haccepted : ∀ r∈w.recipients,r.id=id → r.serial∈w.accepted) :
    Kept ((Write.markDelivered id).apply w) :=
  h.update (fun _ => ⟨rfl,rfl,rfl⟩) fun r hr hid _ => haccepted r hr hid

theorem stable_over (it : Item) (hholds : ∀ other∈it::items,Holds p other.recipientID) :
    keptContract.Stable (fun w => Held (it::items) w ∧ Over it w) p := by
  intro w x h hspares
  refine ⟨stable_held hholds w x h.1 hspares,?_⟩
  have hhistory : (setting.other x w).accepted=w.accepted ∧ (setting.other x w).told=w.told :=
    other_history x w
  rw [Over,hhistory.1,hhistory.2]
  exact h.2

theorem giveUp_kept (hset : v.onGiveUp=true) (it : Item) (cause : Err) {k : Option Err → Pass}
    (hholds : ∀ other∈it::items,Holds (k none) other.recipientID)
    (hnone : keptContract.Valid (fun w => Held (it::items) w ∧ Over it w) (k none))
    (hsome : ∀ e,keptContract.Valid (Held items) (k (some e))) :
    keptContract.Valid (Held (it::items)) (giveUp v it cause k) := by
  rw [giveUp,if_pos hset]
  refine .call (Q := fun a w => Option.elim a (Held (it::items) w ∧ Over it w)
      fun _ => Held items w) Held.keeps
    (stable_held fun other hother => ⟨none,hholds other hother⟩) (fun w a h _ => ?_) fun a => ?_
  · cases a with
    | none =>
      have hmore := h.1.more [] [it.serial] []
      simp only [List.append_nil] at hmore
      exact ⟨⟨hmore,fun other hother => ⟨(h.2 other hother).row,(h.2 other hother).late⟩⟩,
        .inr (by simp [Call.answered])⟩
    | some e => exact h.tail
  · cases a with
    | none => exact hnone
    | some e => exact hsome e

theorem holds_settleFailure (v : Worker) (it : Item) (now : Int) (e : Err)
    (h : it.recipientID=id ∨ Holds k id) : Holds (settleFailure v it now e k) id := by
  rw [settleFailure]
  split_ifs
  · rw [settleGiveUp,giveUp]
    split_ifs
    · exact ⟨none,h⟩
    · exact h
  · exact h

section Rest

variable (hholds : ∀ it∈items,Holds k it.recipientID)

include hholds

theorem holds_cons (hrow : op.row=it.recipientID) :
    ∀ other∈it::items,Holds (.write op k) other.recipientID := by
  intro other hother
  rcases List.mem_cons.mp hother with rfl | hother
  · exact .inl hrow
  · exact .inr (hholds other hother)

theorem holds_settleDelivered (it : Item) :
    ∀ other∈it::items,Holds (settleDelivered it k) other.recipientID :=
  holds_cons (fun other hother => .inr (hholds other hother)) rfl

variable (hk : keptContract.Valid (Held items) k)

include hk

theorem settle_valid (hop : op.apply=settle it.recipientID) (hrow : op.row=it.recipientID) :
    keptContract.Valid (fun w => Held (it::items) w ∧ Over it w) (.write op k) := by
  refine .write (fun w h => h.1.1) (stable_over it (holds_cons hholds hrow)) (fun w _ h _ => ?_) hk
  refine h.1.tail.write ?_
  rw [hop]
  refine h.1.1.settle fun r hr hid => ?_
  rw [(h.1.2 it (by simp)).row r hr hid]
  rcases h.2 with haccepted | htold
  · exact .inl haccepted
  · exact .inr (.inl htold)

theorem retry_valid (id : Nat) (nextAttempt : Int) (lastErr : Bytes) :
    keptContract.Valid (Held items) (.write (.retry id nextAttempt lastErr) k) :=
  keep_valid (fun _ h => h.retry _ _ _) (fun other hother => .inr (hholds other hother)) hk

theorem settleDelivered_kept (it : Item) :
    keptContract.Valid (fun w => Held (it::items) w ∧ it.serial∈w.accepted)
      (settleDelivered it k) := by
  refine .write (fun w h => h.1.1) ?_ (fun w _ h _ => ?_) (settle_valid hholds hk rfl rfl)
  · intro w x h hspares
    refine ⟨stable_held (holds_settleDelivered hholds it) w x h.1 hspares,?_⟩
    rw [show (setting.other x w).accepted=w.accepted from (other_history x w).1]
    exact h.2
  · have hkept : Kept ((Write.markDelivered it.recipientID).apply w) := by
      refine h.1.1.markDelivered fun r hr hid => ?_
      rw [(h.1.2 it (by simp)).row r hr hid]
      exact h.2
    exact ⟨h.1.write hkept,.inl h.2⟩

variable (hset : v.onGiveUp=true)

include hset

theorem settleFailure_kept (it : Item) (now : Int) (e : Err) :
    keptContract.Valid (Held (it::items)) (settleFailure v it now e k) := by
  rw [settleFailure]
  split_ifs
  · exact giveUp_kept hset it e (holds_cons hholds (by rfl)) (settle_valid hholds hk rfl rfl)
      fun _ => retry_valid hholds hk _ _ _
  · exact .weaken (fun w h => h.tail) (retry_valid hholds hk _ _ _)

theorem attempt_kept (now : Int) (it : Item) :
    keptContract.Valid (Held (it::items)) (attempt v now it k) := by
  have hnone := holds_settleDelivered hholds it
  refine keep_valid (fun w h => h.markStarted _ _)
    (fun other hother => .inr ⟨none,hnone other hother⟩) ?_
  refine .call (Q := fun a w => Option.elim a (Held (it::items) w ∧ it.serial∈w.accepted)
      fun _ => Held (it::items) w) Held.keeps
    (stable_held fun other hother => ⟨none,hnone other hother⟩) (fun w a h _ => ?_) fun a => ?_
  · cases a with
    | none =>
      have hmore := h.1.more [it.serial] [] []
      simp only [List.append_nil] at hmore
      exact ⟨⟨hmore,fun other hother => ⟨(h.2 other hother).row,fun hd =>
        List.mem_append_left _ ((h.2 other hother).late hd)⟩⟩,by simp [Call.answered]⟩
    | some e => exact h
  · cases a with
    | none => exact settleDelivered_kept hholds hk it
    | some e =>
      refine keep_valid (fun w h => h.clearStarted _) (fun other hother => .inr ?_)
        (settleFailure_kept hholds hk hset it now e)
      rcases List.mem_cons.mp hother with rfl | hother
      · exact holds_settleFailure v _ now e (.inl rfl)
      · exact holds_settleFailure v _ now e (.inr (hholds other hother))

theorem resolve_kept (now : Int) (it : Item) :
    keptContract.Valid (Held (it::items)) (resolve v now it k) := by
  rw [resolve]
  split_ifs with hlate
  · exact .weaken (fun w h => ⟨h,.inl ((h.2 it (by simp)).late hlate)⟩)
      (settle_valid hholds hk rfl rfl)
  · exact giveUp_kept hset it _ (holds_cons hholds (by rfl)) (settle_valid hholds hk rfl rfl)
      fun _ => keep_valid (fun w h => h.clearStarted _)
        (fun other hother => .inr (.inr (hholds other hother))) (retry_valid hholds hk _ _ _)

end Rest

theorem holds_attempts (v : Worker) (now : Int) (items : List Item) :
    ∀ it∈items,Holds (items.foldr (attempt v now) .done) it.recipientID := by
  induction items with
  | nil => simp
  | cons it items ih =>
    exact holds_cons (fun other hother =>
      ⟨none,holds_settleDelivered ih it other (by simp [hother])⟩) rfl

theorem holds_resolve (v : Worker) (now : Int) (it : Item) (h : it.recipientID=id ∨ Holds k id) :
    Holds (resolve v now it k) id := by
  rw [resolve]
  split_ifs
  · exact h
  · rw [giveUp]
    split_ifs
    · exact ⟨none,h⟩
    · exact h

theorem holds_resolves (v : Worker) (now : Int) (k : Pass) (items : List Item) :
    ∀ it∈items,Holds (items.foldr (resolve v now) k) it.recipientID := by
  induction items with
  | nil => simp
  | cons it items ih =>
    intro other hother
    rcases List.mem_cons.mp hother with rfl | hother
    · exact holds_resolve v now _ (.inl rfl)
    · exact holds_resolve v now _ (.inr (ih other hother))

theorem Kept.owned (h : Kept w) (hr : r∈w.recipients) (hitem : w.item r=some it) :
    Owned w it := by
  obtain ⟨hid,hserial,hdelivered⟩ := item_eq hitem
  refine ⟨fun r' hr' hsame => ?_,fun hd => ?_⟩
  · rw [Table.eq_of_key hr' hr (hsame.trans hid),hserial]
  · rw [hserial]
    exact h.delivered r hr (hdelivered.symm.trans hd)

theorem processDue_kept (hset : v.onGiveUp=true) (now : Int) :
    keptContract.Valid Kept (processDue v now) := by
  have hattempts : ∀ items,keptContract.Valid (Held items)
      (items.foldr (attempt v now) .done) := by
    intro items
    induction items with
    | nil => exact .done Held.keeps
    | cons it items ih => exact attempt_kept (holds_attempts v now items) ih hset now it
  have hnone : ∀ p : Pass,∀ it∈([] : List Item),Holds p it.recipientID := by simp
  have hclaim : keptContract.Valid (Held []) (.read (.claim (unix now) v.batchSize) fun items =>
      items.foldr (attempt v now) .done) := by
    refine .read Held.keeps (stable_held (hnone _)) (fun w h => ⟨h.1,fun it hit => ?_⟩) hattempts
    obtain ⟨r,hr,hitem,-,-⟩ := mem_claim hit
    exact h.1.owned hr hitem
  have hresolves : ∀ items,keptContract.Valid (Held items) (items.foldr (resolve v now)
      (.read (.claim (unix now) v.batchSize) fun items => items.foldr (attempt v now) .done)) := by
    intro items
    induction items with
    | nil => exact hclaim
    | cons it items ih => exact resolve_kept (holds_resolves v now _ items) ih hset now it
  refine .weaken (fun w h => (⟨h,by simp⟩ : Held [] w)) ?_
  refine .read Held.keeps (stable_held (hnone _)) (fun w h => ⟨h.1,fun it hit => ?_⟩) hresolves
  obtain ⟨r,hr,hitem⟩ := mem_unsettled hit
  exact h.1.owned hr hitem

/-- No submission is lost while none reuses an id a pass holds. -/
theorem nothing_lost {moves : List Step} (h : Meets drain keptContract.Allows .empty moves) :
    Accounted (runSteps drain .empty moves).state ∧
      BodiesMatch (runSteps drain .empty moves).state := by
  have hrow : ∀ r,r∉World.empty.recipients := Table.not_mem_empty
  have hempty : Kept World.empty := by
    refine ⟨⟨⟨fun r hr => absurd hr (hrow r),fun r hr => absurd hr (hrow r)⟩,
      fun r hr => absurd hr (hrow r),by simp [World.empty],fun r hr => absurd hr (hrow r)⟩,
      fun m hm => absurd hm (Table.not_mem_empty m)⟩
  have hidle : keptContract.Stable Kept .done := fun _ x hw _ => hw.other x
  have hinv := Contract.run_inv hidle (fun i hset => processDue_kept hset i.2) hempty h
  exact ⟨hinv.accounted,hinv.bodiesMatch⟩

/-- Of two recipients one accepts, and the sender is told of the other. -/
theorem nothing_lost_bounced :
    let worker : Worker := ⟨0,0,0,0,0,true⟩
    let moves : List Step :=
      [.other (.enqueueDSN (lit "sender") [] [] [⟨lit "first",[],[]⟩,⟨lit "second",[],[]⟩] (lit "hi")
          3000000),
        .start (worker,3000000*second),.go .goes none,.go .goes none,.go .goes none,.go .goes none,
        .go .goes none,.go .goes none,.go .goes none,.go .goes (some ⟨some 550,lit "no such user"⟩),
        .go .goes none,.go .goes none,.go .goes none]
    (runSteps drain .empty moves).state.accepted = [0] ∧
      (runSteps drain .empty moves).state.told = [1] ∧
      (runSteps drain .empty moves).state.messages.rows = [] ∧
      Accounted (runSteps drain .empty moves).state ∧
      BodiesMatch (runSteps drain .empty moves).state := by
  intro worker moves
  have hmoves : Meets drain keptContract.Allows .empty moves :=
    ⟨fun _ h => h.elim,rfl,.inr trivial,.inr trivial,.inr trivial,.inr trivial,.inr trivial,
      .inr trivial,.inr trivial,.inr trivial,.inr trivial,.inr trivial,.inr trivial,trivial⟩
  exact ⟨by decide +kernel,by decide +kernel,by decide +kernel,nothing_lost hmoves⟩

/-- A claimed row is deleted, and the pass removes a new one with its id. -/
theorem new_message_lost :
    let worker : Worker := ⟨0,0,0,0,0,true⟩
    let moves : List Step :=
      [.other (.enqueueDSN (lit "sender") [] [] [⟨lit "first",[],[]⟩] (lit "hi") 3000000),
        .start (worker,3000000*second),.go .goes none,.go .goes none,.other (.delete 1),
        .other (.enqueueDSN (lit "other") [] [] [⟨lit "third",[],[]⟩] (lit "contract") 3000001),
        .go .goes none,.go .goes none,.go .goes none,.go .goes none]
    (runSteps drain .empty moves).state.log[1]? = some ⟨lit "other",lit "third",lit "contract"⟩ ∧
      (runSteps drain .empty moves).state.recipients.rows = [] ∧
      (runSteps drain .empty moves).state.accepted = [0] ∧
      (runSteps drain .empty moves).state.told = [] ∧
      (runSteps drain .empty moves).state.deleted = [0] := by
  decide +kernel

end HermEX.Relay
