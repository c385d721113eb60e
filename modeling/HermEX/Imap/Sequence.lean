import HermEX.Imap.Session

namespace HermEX.Imap

open Framework Mapi Objectstore

/-- In order, and complete under a value the counter has passed. -/
structure Listed (idx : IndexDB) (fid : Nat) (view : List Nat) : Prop where
  sorted : view.Pairwise (·<·)
  bound : ∃ n,n≤ idx.uidNext fid ∧ (∀ u∈view,u<n) ∧
    ∀ r∈idx.messages,r.folderId=fid → r.uid<n → r.uid∈view

variable {idx : IndexDB} {fid : Nat} {s s' : Store} {c : Conn} {w : SessionWorld}

theorem Listed.step {idx' : IndexDB} {view : List Nat} (h : Listed idx fid view)
    (hs : UidStep idx idx') : Listed idx' fid view := by
  obtain ⟨n,hn,hlt,hin⟩ := h.bound
  refine ⟨h.sorted,n,hn.trans (hs.next fid),hlt,?_⟩
  intro r hr hf hu
  rcases hs.rows r hr with ⟨r₀,hr₀,hf₀,hu₀⟩ | hnew
  · have hin₀ := hin r₀ hr₀ (hf₀.trans hf) (by omega)
    rwa [hu₀] at hin₀
  · rw [hf] at hnew
    omega

theorem Listed.drop {u : Nat} {before after : List Nat} (h : Listed idx fid (before++u::after))
    (hgone : ∀ r∈idx.messages,r.folderId=fid → r.uid≠u) : Listed idx fid (before++after) := by
  have hsub : List.Sublist (before++after) (before++u::after) :=
    (List.sublist_cons_self u after).append_left before
  obtain ⟨n,hn,hlt,hin⟩ := h.bound
  refine ⟨h.sorted.sublist hsub,n,hn,fun x hx => hlt x (hsub.subset hx),?_⟩
  intro r hr hf hu
  have hmem := hin r hr hf hu
  simp only [List.mem_append,List.mem_cons] at hmem ⊢
  tauto

theorem filter_ne_middle {u : Nat} {before after : List Nat}
    (h : (before++u::after).Pairwise (·<·)) :
    (before++u::after).filter (·≠u)=before++after := by
  obtain ⟨-,hafter,hb⟩ := List.pairwise_append.mp h
  have ha := (List.pairwise_cons.mp hafter).1
  have hkeep : ∀ x∈before++after,x≠u := by
    intro x hx
    rcases List.mem_append.mp hx with hx | hx
    · have := hb x hx u List.mem_cons_self
      omega
    · have := ha x hx
      omega
  have hself : (before++after).filter (·≠u)=before++after := by
    rw [List.filter_eq_self]
    intro x hx
    simpa using hkeep x hx
  simpa using hself

theorem ensureIndexFolder_uidStep {idx' : IndexDB} {obj : ObjDB}
    (h : idx.ensureIndexFolder obj fid=.ok idx') : UidStep idx idx' := by
  obtain ⟨hm,-,-,hU⟩ := IndexDB.ensureIndexFolder_ok h
  exact uidStep_counters hm hU

theorem loadMailbox_error {e : StoreErr} (h : loadMailbox s fid=(.error e,s')) : s'=s := by
  unfold loadMailbox at h
  split at h
  · exact (Prod.mk.inj h).2.symm
  · simp at h

theorem loadMailbox_ok {msgs : List MessageInfo} (h : loadMailbox s fid=(.ok msgs,s'))
    (hinv : UidInv s.idxdb) :
    UidStep s.idxdb s'.idxdb ∧ (msgs.map MessageInfo.uid).Pairwise (·<·) ∧
    (∀ u,u∈msgs.map MessageInfo.uid ↔ ∃ r∈s.idxdb.messages,r.folderId=fid ∧ r.uid=u) ∧
    Listed s'.idxdb fid (msgs.map MessageInfo.uid) := by
  unfold loadMailbox at h
  split at h
  · simp at h
  rename_i idx hidx
  simp only [Prod.mk.injEq,Except.ok.injEq] at h
  obtain ⟨hmsgs,hs⟩ := h
  have huids : msgs.map MessageInfo.uid=(s.listMessages fid).map IndexMessageRow.uid := by
    rw [← hmsgs,List.map_map]
    rfl
  have hsorted : (msgs.map MessageInfo.uid).Pairwise (·<·) := by
    rw [huids]
    exact listMessages_sorted hinv fid
  have hmem : ∀ u,u∈msgs.map MessageInfo.uid ↔
      ∃ r∈s.idxdb.messages,r.folderId=fid ∧ r.uid=u := by
    simp [huids,mem_listMessages,and_assoc]
  have hstep : UidStep s.idxdb s'.idxdb := by
    rw [← hs]
    exact ensureIndexFolder_uidStep hidx
  refine ⟨hstep,hsorted,hmem,Listed.step ⟨hsorted,s.idxdb.uidNext fid,Nat.le_refl _,?_,?_⟩ hstep⟩
  · intro u hu
    obtain ⟨r,hr,hf,hu⟩ := (hmem u).mp hu
    have hlt := hinv.lt r hr
    rwa [hf,hu] at hlt
  · intro r hr hf _
    exact (hmem r.uid).mpr ⟨r,hr,hf,rfl⟩

theorem receive_expunges (fetch view : List Nat) (seqs : List Nat) :
    (seqs.map Response.expunge).foldl (receive fetch) view=seqs.foldl removeAt view := by
  rw [List.foldl_map]
  rfl

theorem dropPositions_map {α β : Type} (f : α → β) (keep : β → Bool) (xs : List α) (i : Nat) :
    dropPositions (fun x => keep (f x)) xs i=dropPositions keep (xs.map f) i := by
  induction xs generalizing i with
  | nil => rfl
  | cons x xs ih => simp [dropPositions,ih]

theorem receive_exists (view new : List Nat) :
    receive (view++new) view (.exists_ (view++new).length)=view++new := by
  rw [receive,List.take_length,List.drop_left]

theorem poll_receive {fresh : List MessageInfo} (h : loadMailbox s c.id=(.ok fresh,s'))
    (hinv : UidInv s.idxdb) (hl : Listed s.idxdb c.id (c.msgs.map MessageInfo.uid)) :
    (c.poll s).1.foldl (receive (fresh.map MessageInfo.uid)) (c.msgs.map MessageInfo.uid)=
      fresh.map MessageInfo.uid := by
  obtain ⟨-,hsorted,hmem,-⟩ := loadMailbox_ok h hinv
  obtain ⟨n,-,hlt,hin⟩ := hl.bound
  have hshared := sorted_shared hsorted hl.sorted hlt (by
    intro u hu hun
    obtain ⟨r,hr,hf,rfl⟩ := (hmem u).mp hu
    exact hin r hr hf hun)
  have hexp := removeAt_dropPositions
    (fun u => decide (u∈fresh.map MessageInfo.uid)) [] (c.msgs.map MessageInfo.uid)
  have hview : (c.msgs.filter fun m => m.uid∈fresh.map MessageInfo.uid).length=
      ((c.msgs.map MessageInfo.uid).filter (·∈fresh.map MessageInfo.uid)).length := by
    rw [List.filter_map,List.length_map]
    rfl
  simp only [Conn.poll,h,List.foldl_append,receive_expunges]
  rw [dropPositions_map MessageInfo.uid (fun u => decide (u∈fresh.map MessageInfo.uid))]
  simp only [List.nil_append,List.length_nil] at hexp
  rw [hexp]
  have hlen := congrArg List.length hshared
  rw [List.length_append,List.length_map] at hlen
  generalize (c.msgs.map MessageInfo.uid).filter (·∈fresh.map MessageInfo.uid)=view at *
  split_ifs with hg
  · have hex := receive_exists view ((fresh.map MessageInfo.uid).filter (n≤·))
    rw [hshared,List.length_map] at hex
    exact hex
  · have hnil : (fresh.map MessageInfo.uid).filter (n≤·)=[] := by
      apply List.eq_nil_of_length_eq_zero
      omega
    rw [hnil,List.append_nil] at hshared
    exact hshared

def removable (s : Store) (fid uid : Nat) : Bool :=
  match s.idxdb.byUID fid uid with
  | none => false
  | some r => (s.objdb.messages.get r.messageId).isSome && (s.idxdb.folders.get r.folderId).isSome

theorem softDeleteRow_ok_of_some {db : ObjDB} {mid : Nat} (h : (db.messages.get mid).isSome) :
    ∃ db',db.softDeleteRow mid=(.ok (),db') := by
  have hmark : ((db.markDeleted mid).messages.get mid).isSome := by
    simp only [ObjDB.markDeleted,ObjDB.updateMessage,Table.get_updateWhere,Option.isSome_map]
    exact h
  obtain ⟨r',hr'⟩ := Option.isSome_iff_exists.mp hmark
  simp only [ObjDB.softDeleteRow,ObjDB.modifyMessageProperties,hr']
  exact ⟨_,rfl⟩

theorem vanishIndexRow_ok {r : IndexMessageRow} (h : (idx.folders.get r.folderId).isSome) :
    ∃ idx',idx.vanishIndexRow r=.ok idx' := by
  obtain ⟨f,hf⟩ := Option.isSome_iff_exists.mp h
  simp only [IndexDB.vanishIndexRow,IndexDB.nextModSeq,hf]
  exact ⟨_,rfl⟩

theorem softDeleteMessage_removable {uid : Nat} (hinv : UidInv s.idxdb) (h : removable s fid uid) :
    ∃ s',s.softDeleteMessage fid uid=(.ok (),s') ∧
      ∀ r∈s'.idxdb.messages,r.folderId=fid → r.uid≠uid := by
  unfold removable at h
  split at h
  · cases h
  rename_i r hr
  obtain ⟨hmem,hf,hu⟩ := byUID_eq_some hr
  obtain ⟨hobj,hfolder⟩ := Bool.and_eq_true_iff.mp h
  obtain ⟨obj,hobj⟩ := softDeleteRow_ok_of_some hobj
  obtain ⟨idx,hidx⟩ := vanishIndexRow_ok hfolder
  have hget := Table.get_key hmem
  refine ⟨⟨obj,idx⟩,?_,?_⟩
  · simp [Store.softDeleteMessage,hr,Store.softDeleteRow,hobj,IndexDB.recordVanishedAndDrop,hget,hidx]
  · intro x hx hxf hxu
    obtain ⟨hx,hid⟩ := (vanishIndexRow_rows hidx x).mp hx
    exact hid (congrArg IndexMessageRow.messageId
      (hinv.inj x hx r hmem (hxf.trans hf.symm) (hxu.trans hu.symm)))

def Conn.view (c : Conn) : List Nat :=
  match c.phase with
  | .expunging e => (e.survivors++e.rest).map MessageInfo.uid
  | _ => c.msgs.map MessageInfo.uid

def Conn.unsent (c : Conn) : List Nat :=
  match c.phase with
  | .expunging e => if e.silent then e.vanished else []
  | _ => []

structure SessionInv (w : SessionWorld) : Prop where
  uids : UidInv w.store.idxdb
  listed : Listed w.store.idxdb w.conn.id w.conn.view
  told : w.client.filter (·∉w.conn.unsent)=w.conn.view

/-- What the session deletes is still there then. -/
def SessionWorld.DeletesLive (w : SessionWorld) : SessionStep → Prop
  | .next _ => match w.conn.phase with
    | .expunging e => ∀ m∈e.rest.head?,e.picks m → removable w.store w.conn.id m.uid
    | _ => True
  | _ => True

instance (w : SessionWorld) : ∀ a,Decidable (w.DeletesLive a)
  | .next _ => by
      unfold SessionWorld.DeletesLive
      cases w.conn.phase <;> infer_instance
  | .poll | .expunge | .uidExpunge _ | .move .. | .other _ => isTrue trivial

theorem SessionInv.store (h : SessionInv w) (hs : UidStep w.store.idxdb s.idxdb) :
    SessionInv {w with store:=s} :=
  ⟨hs.inv h.uids,h.listed.step hs,h.told⟩

def Conn.Untouched (c : Conn) : Prop :=
  match c.phase with
  | .expunging e => e.rest=c.msgs ∧ e.survivors=[] ∧ e.vanished=[]
  | _ => True

theorem Conn.Untouched.view_eq (h : c.Untouched) : c.view=c.msgs.map MessageInfo.uid := by
  unfold Conn.Untouched at h
  unfold Conn.view
  split
  · rename_i e hp
    rw [hp] at h
    rw [h.1,h.2.1,List.nil_append]
  · rfl

theorem Conn.Untouched.unsent_eq (h : c.Untouched) : c.unsent=[] := by
  unfold Conn.Untouched at h
  unfold Conn.unsent
  split
  · rename_i e hp
    rw [hp] at h
    rw [h.2.2,ite_self]
  · rfl

theorem SessionInv.client_msgs (h : SessionInv w) (hw : w.conn.Untouched) :
    w.client=w.conn.msgs.map MessageInfo.uid := by
  have ht := h.told
  rw [hw.unsent_eq,hw.view_eq] at ht
  simpa using ht

theorem SessionInv.of_client {client : List Nat} (hc : c.Untouched) (hu : UidInv s.idxdb)
    (hl : Listed s.idxdb c.id (c.msgs.map MessageInfo.uid)) (ht : client=c.msgs.map MessageInfo.uid) :
    SessionInv ⟨c,s,client⟩ := by
  refine ⟨hu,?_,?_⟩
  · rw [hc.view_eq]
    exact hl
  · rw [hc.unsent_eq,hc.view_eq,ht]
    simp

theorem SessionInv.untouched (h : SessionInv w) (hw : w.conn.Untouched) (hc : c.Untouched)
    (hid : c.id=w.conn.id) (hm : c.msgs=w.conn.msgs) (hs : UidStep w.store.idxdb s.idxdb) :
    SessionInv ⟨c,s,w.client⟩ := by
  have hl := h.listed.step hs
  rw [hw.view_eq,← hid,← hm] at hl
  apply SessionInv.of_client hc (hs.inv h.uids) hl
  rw [hm]
  exact h.client_msgs hw

attribute [local simp] Conn.Untouched

theorem deliver_poll_inv (h : SessionInv w) (hp : w.conn.phase=.idle) :
    SessionInv (w.deliver (w.conn.poll w.store)) := by
  have hidle : w.conn.Untouched := by simp [hp]
  have hclient := h.client_msgs hidle
  have hl := h.listed
  rw [hidle.view_eq] at hl
  cases hload : loadMailbox w.store w.conn.id with
  | mk res s =>
  cases res with
  | error e =>
    obtain rfl := loadMailbox_error hload
    simpa [SessionWorld.deliver,Conn.poll,hload] using h
  | ok fresh =>
    obtain ⟨hstep,-,-,hnew⟩ := loadMailbox_ok hload h.uids
    have hrec := poll_receive hload h.uids hl
    have hout : (w.conn.poll w.store).2=({w.conn with msgs:=fresh},s) := by simp [Conn.poll,hload]
    rw [SessionWorld.deliver,hout,hclient]
    have hfresh : ({w.conn with msgs:=fresh} : Conn).Untouched := by simp [hp]
    exact SessionInv.of_client hfresh (hstep.inv h.uids) hnew hrec

theorem deliver_expungeNext_inv {e : Expunging} (h : SessionInv w) (hp : w.conn.phase=.expunging e)
    (hlive : ∀ m∈e.rest.head?,e.picks m → removable w.store w.conn.id m.uid) :
    SessionInv (w.deliver (w.conn.expungeNext e w.store)) := by
  obtain ⟨⟨id,msgs,qresync,readOnly,phase⟩,s,client⟩ := w
  obtain ⟨picks,silent,rest,survivors,vanished⟩ := e
  subst hp
  have hl := h.listed
  have ht := h.told
  simp only [Conn.view,Conn.unsent] at hl ht
  cases rest with
  | nil =>
    rw [List.append_nil] at hl ht
    refine SessionInv.of_client trivial h.uids hl ?_
    simp only [Conn.expungeNext]
    split_ifs with hv
    · rw [if_pos hv.1] at ht
      exact ht
    · have hnone : (if silent then vanished else [])=[] := by
        split_ifs with hs
        · exact not_not.mp fun hne => hv ⟨hs,hne⟩
        · rfl
      rw [hnone] at ht
      simpa using ht
  | cons m rest =>
    simp only [List.map_append,List.map_cons] at hl ht
    by_cases hm : picks m
    · obtain ⟨s',hdel,hgone⟩ := softDeleteMessage_removable h.uids (hlive m rfl hm)
      have hstep : UidStep s.idxdb s'.idxdb := by
        have hd : UidStep s.idxdb (s.softDeleteMessage id m.uid).2.idxdb :=
          indexStep_uidStep s (.softDeleteMessage id m.uid)
        rwa [hdel] at hd
      have hl' := (hl.step hstep).drop hgone
      simp only [SessionWorld.deliver,Conn.expungeNext,hm,if_true,hdel]
      refine ⟨hstep.inv h.uids,?_,?_⟩
      · simpa [Conn.view] using hl'
      · simp only [Conn.view,Conn.unsent,List.map_append]
        cases silent with
        | true =>
          have hf : client.filter (·∉vanished++[m.uid])=
              (client.filter (·∉vanished)).filter (·≠m.uid) := by
            rw [List.filter_filter]
            apply List.filter_congr
            simp [and_comm]
          simp only [if_true,List.foldl_nil] at ht ⊢
          rw [hf,ht]
          exact filter_ne_middle hl.sorted
        | false =>
          simp only [Bool.false_eq_true,if_false,List.not_mem_nil,not_false_eq_true,
            decide_true,List.filter_true] at ht ⊢
          rw [ht,List.foldl_cons,List.foldl_nil,receive]
          have hlen : (survivors.map MessageInfo.uid).length=survivors.length := List.length_map _
          rw [← hlen,removeAt_append]
    · simp only [SessionWorld.deliver,Conn.expungeNext,hm]
      refine ⟨h.uids,?_,?_⟩
      · simpa [Conn.view] using hl
      · simpa [Conn.view,Conn.unsent] using ht

theorem copyNext_inv {destFID : Option Nat} {fetched : Option MessageHead} {rest : List MessageInfo}
    {srcUIDs : List Nat} (h : SessionInv w) (hw : w.conn.Untouched)
    (raw : Except StoreErr MessageHead) :
    SessionInv {w with
      conn:=(w.conn.copyNext destFID fetched rest srcUIDs raw w.store).1,
      store:=(w.conn.copyNext destFID fetched rest srcUIDs raw w.store).2} := by
  unfold Conn.copyNext
  split
  · split_ifs
    · exact h.untouched hw trivial rfl rfl (.refl _)
    · exact h.untouched hw ⟨rfl,rfl,rfl⟩ rfl rfl (.refl _)
  · split <;> exact h.untouched hw trivial rfl rfl (.refl _)
  · split
    · split <;> exact h.untouched hw trivial rfl rfl (.refl _)
    · rename_i m _ msg _ fid
      have happ : UidStep w.store.idxdb (w.store.appendMessage fid msg m.flags).2.idxdb :=
        indexStep_uidStep w.store (.appendMessage fid msg m.flags)
      split
      all_goals
        rename_i he
        rw [he] at happ
        exact h.untouched hw trivial rfl rfl happ

theorem step_inv (w : SessionWorld) (a : SessionStep) (h : SessionInv w) (hc : w.DeletesLive a) :
    SessionInv (w.step a) := by
  have hidle : w.conn.phase=.idle → w.conn.Untouched := by
    intro hp
    simp [hp]
  cases a with
  | other a => exact h.store (indexStep_uidStep w.store a)
  | next raw =>
    simp only [SessionWorld.step,SessionWorld.DeletesLive] at hc ⊢
    split
    · exact h
    · rename_i hp
      exact copyNext_inv h (by simp [hp]) raw
    · rename_i e hp
      rw [hp] at hc
      exact deliver_expungeNext_inv h hp hc
  | poll =>
    simp only [SessionWorld.step]
    split
    · exact deliver_poll_inv h (by assumption)
    · exact h
  | expunge | uidExpunge set =>
    simp only [SessionWorld.step]
    split
    · exact h.untouched (hidle (by assumption)) ⟨rfl,rfl,rfl⟩ rfl rfl (.refl _)
    · exact h
  | move byUID set destFID =>
    simp only [SessionWorld.step]
    split
    · exact h.untouched (hidle (by assumption)) trivial rfl rfl (.refl _)
    · exact h

theorem select_inv {qresync readOnly : Bool} (hinv : UidInv s.idxdb)
    (h : SessionWorld.select s fid qresync readOnly=some w) : SessionInv w := by
  unfold SessionWorld.select at h
  split at h
  · cases h
  rename_i msgs s' hload
  cases h
  obtain ⟨hstep,-,-,hl⟩ := loadMailbox_ok hload hinv
  have hex := receive_exists [] (msgs.map MessageInfo.uid)
  rw [List.nil_append,List.length_map] at hex
  exact SessionInv.of_client trivial (hstep.inv hinv) hl hex

/-- While only messages still there are deleted, the client's numbers are the session's. -/
theorem session_client_agree (obj : ObjDB) (before : List IndexStep) (fid : Nat)
    (qresync readOnly : Bool) (w : SessionWorld) (steps : List SessionStep)
    (hsel : SessionWorld.select (runSteps Store.indexStep ⟨obj,.empty⟩ before) fid qresync
      readOnly=some w)
    (hlive : Meets SessionWorld.step SessionWorld.DeletesLive w steps)
    (hidle : (runSteps SessionWorld.step w steps).conn.phase=.idle) :
    (runSteps SessionWorld.step w steps).client=
      (runSteps SessionWorld.step w steps).conn.msgs.map MessageInfo.uid := by
  have hinv := hlive.invariant step_inv (select_inv (runSteps_uidInv obj before) hsel)
  exact hinv.client_msgs (by simp [hidle])

def threeMessages : List IndexStep :=
  [.appendMessage 13 ⟨false,false,10⟩ ∅,.appendMessage 13 ⟨false,false,10⟩ {.deleted},
    .appendMessage 13 ⟨false,false,10⟩ ∅]

def expungeThenPoll : List SessionStep :=
  [.expunge,.next (.error .notFound),.other (.appendMessage 13 ⟨false,false,10⟩ ∅),
    .next (.error .notFound),.next (.error .notFound),.next (.error .notFound),.poll]

theorem session_client_agree_expunge :
    ∃ w,SessionWorld.select (runSteps Store.indexStep emptyInbox threeMessages) 13 false false=
        some w ∧
      (runSteps SessionWorld.step w expungeThenPoll).client=[1,3,4] ∧
      (runSteps SessionWorld.step w expungeThenPoll).client=
        (runSteps SessionWorld.step w expungeThenPoll).conn.msgs.map MessageInfo.uid :=
  ⟨_,rfl,by decide,session_client_agree emptyInbox.objdb threeMessages 13 false false _
    expungeThenPoll rfl (by decide) rfl⟩

/-- Another session removes the message mid-EXPUNGE: it goes without a response. -/
theorem session_silent_drop :
    ∃ w,SessionWorld.select (runSteps Store.indexStep emptyInbox threeMessages) 13 false false=
        some w ∧
      let w' := runSteps SessionWorld.step w [.expunge,.other (.softDeleteMessage 13 2),
        .next (.error .notFound),.next (.error .notFound),.next (.error .notFound),
        .next (.error .notFound),.poll]
      w'.conn.phase=.idle ∧ w'.client=[1,2,3] ∧ w'.conn.msgs.map MessageInfo.uid=[1,3] :=
  ⟨_,rfl,rfl,by decide,by decide⟩

end HermEX.Imap
