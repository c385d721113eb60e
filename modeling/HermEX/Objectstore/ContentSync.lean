import HermEX.Objectstore.IcsSync

namespace HermEX.Objectstore

open Framework Mapi Ics

/-- A newer change number, carried over, or a read flip under a newer number. -/
inductive RowStamp (db db' : ObjDB) (r' : MessageRow) : Prop
  | fresh (newer : db.lastChangeNumber< r'.changeNumber)
      (bound : r'.changeNumber≤db'.lastChangeNumber)
      (readCn : ∀ c,r'.readCn=some c → (∃ r∈db.messages,r.readCn=some c) ∨
        (db.lastChangeNumber< c ∧ c≤db'.lastChangeNumber))
  | kept (mem : r'∈db.messages)
  | flipped (r : MessageRow) (want : Bool) (c : Nat) (mem : r∈db.messages)
      (normal : r.isAssociated=false) (newer : db.lastChangeNumber< c)
      (bound : c≤db'.lastChangeNumber) (eq : r'={r with readState:=want,readCn:=some c})

structure Stamped (db db' : ObjDB) : Prop where
  mono : db.lastChangeNumber≤db'.lastChangeNumber
  rows : ∀ r'∈db'.messages,RowStamp db db' r'

variable (db : ObjDB) {db' : ObjDB} (mid : Nat)

theorem Stamped.refl : Stamped db db := ⟨Nat.le_refl _,fun _ h => .kept h⟩

theorem RowStamp.readCn_origin {db : ObjDB} {r' : MessageRow} (h : RowStamp db db' r') {c : Nat}
    (hc : r'.readCn=some c) : (∃ r∈db.messages,r.readCn=some c) ∨
      (db.lastChangeNumber< c ∧ c≤db'.lastChangeNumber) := by
  cases h with
  | fresh _ _ hrd => exact hrd c hc
  | kept hk => exact .inl ⟨r',hk,hc⟩
  | flipped r want c' _ _ hn hb he =>
    rw [he] at hc
    have hcc := Option.some.inj hc
    exact .inr (by omega)

theorem Stamped.trans {db₀ db₁ db₂ : ObjDB} (h : Stamped db₀ db₁) (k : Stamped db₁ db₂) :
    Stamped db₀ db₂ := by
  have hm := h.mono
  have km := k.mono
  refine ⟨by omega,?_⟩
  intro r' hr
  cases k.rows r' hr with
  | fresh hn hb hrd =>
    refine .fresh (by omega) hb ?_
    intro c hc
    rcases hrd c hc with ⟨r,hr,hrc⟩ | hnew
    · have ho := (h.rows r hr).readCn_origin hrc
      exact ho.imp_right fun ho => ⟨ho.1,by omega⟩
    · exact .inr ⟨by omega,hnew.2⟩
  | kept hk =>
    cases h.rows r' hk with
    | fresh hn hb hrd =>
      refine .fresh hn (by omega) ?_
      intro c hc
      exact (hrd c hc).imp_right fun ho => ⟨ho.1,by omega⟩
    | kept hk' => exact .kept hk'
    | flipped r want c hr₀ ha hn hb he => exact .flipped r want c hr₀ ha hn (by omega) he
  | flipped r want c hr₁ ha hn hb he =>
    cases h.rows r hr₁ with
    | fresh hn' hb' _ =>
      subst he
      refine .fresh hn' (Nat.le_trans hb' km) ?_
      intro c' hc'
      have hcc := Option.some.inj hc'
      exact .inr (by omega)
    | kept hk => exact .flipped r want c hk ha (by omega) hb he
    | flipped r₀ _ _ hr₀ ha₀ _ _ he₀ =>
      exact .flipped r₀ want c hr₀ ha₀ (by omega) hb (by rw [he,he₀])

theorem createMessage_stamped {db : ObjDB} {fid eid : Nat} {msg : MessageHead}
    (h : db.createMessage fid msg=.ok (eid,db')) : Stamped db db' := by
  obtain ⟨db₁,t,he,rfl,-,ht⟩ := createMessage_ok h
  obtain ⟨hm,hcn⟩ := allocateEIDFromFolder_messages he
  constructor
  · simp only [ObjDB.allocateCN]
    omega
  · intro r' hr
    rcases (ht r').mp hr with hr | rfl
    · exact .kept (hm ▸ hr)
    · refine .fresh ?_ (Nat.le_refl _) (by simp)
      simp only [ObjDB.allocateCN]
      omega

theorem clearTarget_lastChangeNumber (um : UploadMessage) :
    (db.clearTarget um).lastChangeNumber=db.lastChangeNumber := by
  unfold ObjDB.clearTarget
  split_ifs <;> rfl

theorem commitUpload_stamped {db : ObjDB} {um : UploadMessage} (h : db.commitUpload um=.ok db') :
    Stamped db db' := by
  obtain ⟨-,-,t,rfl,ht⟩ := insertMessageRow_ok h
  have hcn := clearTarget_lastChangeNumber db.allocateCN.2 um
  refine ⟨hcn.symm ▸ Nat.le_succ _,?_⟩
  intro r' hr
  rcases (ht r').mp hr with hr | rfl
  · exact .kept (mem_clearTarget db.allocateCN.2 um hr)
  · exact .fresh (Nat.lt_succ_self _) (Nat.le_of_eq hcn.symm) (by simp)

theorem updateMessage_stamped (f : MessageRow → MessageRow) (hf : ∀ r,(f r).messageId=r.messageId)
    (hcn : ∀ r,(f r).changeNumber=db.lastChangeNumber+1) (hrd : ∀ r,(f r).readCn=r.readCn) :
    Stamped db ((db.allocateCN.2).updateMessage mid f hf) := by
  refine ⟨Nat.le_succ _,?_⟩
  intro r' hr'
  obtain ⟨r,hr,rfl⟩ := ObjDB.mem_updateMessage.mp hr'
  split_ifs
  · refine .fresh (by rw [hcn]; omega) (by rw [hcn]; exact Nat.le_refl _) ?_
    intro c hc
    exact .inl ⟨r,hr,by rw [← hrd,hc]⟩
  · exact .kept hr

theorem modifyMessageProperties_stamped {db : ObjDB} {mid : Nat}
    (h : db.modifyMessageProperties mid=.ok db') : Stamped db db' := by
  unfold ObjDB.modifyMessageProperties at h
  split at h
  · cases h
  · obtain rfl := Except.ok.inj h
    exact updateMessage_stamped db mid _ _ (fun _ => rfl) fun _ => rfl

theorem updateReadState_stamped (want : Bool) {r : MessageRow} (hr : db.messages.get mid=some r)
    (hn : r.isAssociated=false) :
    Stamped db ((db.allocateCN.2).updateMessage mid
      (fun r => {r with readState:=want,readCn:=some db.allocateCN.1}) fun _ => rfl) := by
  refine ⟨Nat.le_succ _,?_⟩
  intro r' hr'
  obtain ⟨x,hx,rfl⟩ := ObjDB.mem_updateMessage.mp hr'
  split_ifs with hm
  · have hg := Table.get_eq_some.mp hr
    have hxr : x=r := Table.eq_of_key hx hg.1 (by rw [hg.2,hm])
    exact .flipped x want (db.lastChangeNumber+1) hx (by rw [hxr,hn]) (Nat.lt_succ_self _)
      (Nat.le_refl _) rfl
  · exact .kept hx

theorem setObjReadState_stamped (want : Bool) : Stamped db (db.setObjReadState mid want).2 := by
  unfold ObjDB.setObjReadState
  split
  · exact .refl db
  · rename_i r hr
    split_ifs with ha
    · exact .refl db
    · exact updateReadState_stamped db mid want hr (by simp_all)

theorem applyReadStateChange_stamped (fid mid : Nat) (markRead : Bool) :
    Stamped db (db.applyReadStateChange fid mid markRead).2 := by
  unfold ObjDB.applyReadStateChange
  split
  · exact .refl db
  rename_i r hr
  split_ifs with hp ha
  · exact .refl db
  · exact .refl db
  · exact updateReadState_stamped db mid markRead hr (by simp_all)

theorem deleteMessageRow_stamped : Stamped db (db.deleteMessageRow mid) :=
  ⟨Nat.le_refl _,fun _ hr => .kept (Table.mem_deleteWhere.mp hr).1⟩

theorem markDeleted_stamped : Stamped db (db.markDeleted mid) :=
  updateMessage_stamped db mid _ _ (fun _ => rfl) fun _ => rfl

theorem softDeleteRow_stamped : Stamped db (db.softDeleteRow mid).2 := by
  have hm := markDeleted_stamped db mid
  simp only [ObjDB.softDeleteRow]
  split
  · exact hm
  · exact hm.trans (modifyMessageProperties_stamped (by assumption))

theorem restoreMessageRow_stamped {db : ObjDB} {mid dest : Nat}
    (h : db.restoreMessageRow mid dest=.ok db') : Stamped db db' := by
  unfold ObjDB.restoreMessageRow at h
  simp only at h
  split at h
  · cases h
  · obtain rfl := Except.ok.inj h
    exact updateMessage_stamped db mid _ _ (fun _ => rfl) fun _ => rfl

theorem moveMessageImport_stamped {db : ObjDB} {src srcMID dest dstMID : Nat}
    (h : db.moveMessageImport src srcMID dest dstMID=.ok db') : Stamped db db' := by
  unfold ObjDB.moveMessageImport at h
  split at h
  · cases h
  rename_i r hr
  split_ifs at h
  simp only at h
  split at h
  · cases h
  obtain rfl := Except.ok.inj h
  have hg := Table.get_eq_some.mp hr
  refine ⟨Nat.le_succ _,?_⟩
  intro r' hr'
  have hput := Table.mem_put.mp hr'
  rcases hput with rfl | ⟨hdel,-⟩
  · exact .fresh (Nat.lt_succ_self _) (Nat.le_refl _) fun c hc => .inl ⟨r,hg.1,hc⟩
  · exact .kept (Table.mem_deleteWhere.mp hdel).1

structure Entry where
  cn : Nat
  read : Bool
deriving DecidableEq

def entryOf (r : MessageRow) : Entry := ⟨r.changeNumber,r.readState⟩

structure SyncClient where
  state : SyncState
  replica : Nat → Option Entry

def SyncClient.fresh : SyncClient := ⟨newState,fun _ => none⟩

def consume (db : ObjDB) (flags : UInt16) (res : ContentSyncResult)
    (replica : Nat → Option Entry) : FlowNode → Nat → Option Entry
  | .message mid _ => fun m => if m=mid then (db.messages.get mid).map entryOf else replica m
  | .deletions => fun m => if m∈writeDeletions res flags then none else replica m
  | .readState => fun m => (replica m).map fun e =>
    if m∈res.readMIDs then {e with read:=true}
    else if m∈res.unreadMIDs then {e with read:=false} else e
  | _ => replica

def SyncClient.download (db : ObjDB) (flags : UInt16) (fid : Nat) (c : SyncClient) : SyncClient :=
  let res := db.getContentSync (contentSyncRequestFor fid c.state flags)
  ⟨writeState flags res.givenMIDs res.lastCN res.lastReadCN,
    (contentFlow res flags).foldl (consume db flags res) c.replica⟩

inductive ContentStep where
  | createMessage (folderID : Nat) (msg : MessageHead)
  | commitUpload (um : UploadMessage)
  | modifyMessageProperties (mid : Nat)
  | setObjReadState (mid : Nat) (want : Bool)
  | applyReadStateChange (folderID mid : Nat) (markRead : Bool)
  | deleteMessageRow (mid : Nat)
  | softDeleteRow (mid : Nat)
  | restoreMessageRow (mid destFID : Nat)
  | moveMessageImport (srcFolderID srcMID destFolderID dstMID : Nat)
  | download

def ObjDB.write (db : ObjDB) : ContentStep → ObjDB
  | .createMessage fid msg => match db.createMessage fid msg with
    | .ok (_,db') => db'
    | .error _ => db
  | .commitUpload um => match db.commitUpload um with
    | .ok db' => db'
    | .error _ => db
  | .modifyMessageProperties mid => match db.modifyMessageProperties mid with
    | .ok db' => db'
    | .error _ => db
  | .setObjReadState mid want => (db.setObjReadState mid want).2
  | .applyReadStateChange fid mid markRead => (db.applyReadStateChange fid mid markRead).2
  | .deleteMessageRow mid => db.deleteMessageRow mid
  | .softDeleteRow mid => (db.softDeleteRow mid).2
  | .restoreMessageRow mid dest => match db.restoreMessageRow mid dest with
    | .ok db' => db'
    | .error _ => db
  | .moveMessageImport src srcMID dest dstMID =>
    match db.moveMessageImport src srcMID dest dstMID with
    | .ok db' => db'
    | .error _ => db
  | .download => db

structure SyncWorld where
  db : ObjDB
  client : SyncClient

def SyncWorld.download (w : SyncWorld) (flags : UInt16) (fid : Nat) : SyncWorld :=
  {w with client:=w.client.download w.db flags fid}

@[simp] theorem SyncWorld.download_db (w : SyncWorld) (flags : UInt16) (fid : Nat) :
    (w.download flags fid).db=w.db := rfl

def SyncWorld.step (flags : UInt16) (fid : Nat) (w : SyncWorld) (s : ContentStep) : SyncWorld :=
  match s with
  | .download => w.download flags fid
  | s => {w with db:=w.db.write s}

def SyncWorld.initial (db : ObjDB) : SyncWorld := ⟨{db with messages:=.empty},.fresh⟩

def SyncWorld.run (flags : UInt16) (fid : Nat) (db : ObjDB) (steps : List ContentStep) :
    SyncWorld :=
  steps.foldl (step flags fid) (initial db)

theorem write_stamped (s : ContentStep) : Stamped db (db.write s) := by
  cases s with
  | createMessage fid msg =>
    simp only [ObjDB.write]
    split
    · exact createMessage_stamped (by assumption)
    · exact .refl db
  | commitUpload um =>
    simp only [ObjDB.write]
    split
    · exact commitUpload_stamped (by assumption)
    · exact .refl db
  | modifyMessageProperties mid =>
    simp only [ObjDB.write]
    split
    · exact modifyMessageProperties_stamped (by assumption)
    · exact .refl db
  | setObjReadState mid want => exact setObjReadState_stamped db mid want
  | applyReadStateChange fid mid markRead => exact applyReadStateChange_stamped db fid mid markRead
  | deleteMessageRow mid => exact deleteMessageRow_stamped db mid
  | softDeleteRow mid => exact softDeleteRow_stamped db mid
  | restoreMessageRow mid dest =>
    simp only [ObjDB.write]
    split
    · exact restoreMessageRow_stamped (by assumption)
    · exact .refl db
  | moveMessageImport src srcMID dest dstMID =>
    simp only [ObjDB.write]
    split
    · exact moveMessageImport_stamped (by assumption)
    · exact .refl db
  | download => exact .refl db

/-- Every stamp lies between one and the counter. -/
structure StampsBounded (db : ObjDB) : Prop where
  cn : ∀ r∈db.messages,1≤ r.changeNumber ∧ r.changeNumber≤db.lastChangeNumber
  readCn : ∀ r∈db.messages,∀ c,r.readCn=some c → 1≤ c ∧ c≤db.lastChangeNumber

theorem StampsBounded.stamped {db : ObjDB} (h : StampsBounded db) (hs : Stamped db db') :
    StampsBounded db' := by
  have hm := hs.mono
  constructor
  · intro r' hr
    cases hs.rows r' hr with
    | fresh hn hb _ => omega
    | kept hk =>
      have := h.cn r' hk
      omega
    | flipped r _ _ hr₀ _ _ _ he =>
      have := h.cn r hr₀
      rw [he]
      simp only
      omega
  · intro r' hr c hc
    rcases (hs.rows r' hr).readCn_origin hc with ⟨r,hr,hrc⟩ | hnew
    · have := h.readCn r hr c hrc
      omega
    · omega

def inScope (flags : UInt16) (r : MessageRow) : Bool :=
  enabled flags (if r.isAssociated then syncAssociated else syncNormal)

def ObjDB.scoped (db : ObjDB) (flags : UInt16) (fid m : Nat) : Option MessageRow :=
  (db.messages.get m).filter fun r => r.parentFid=fid ∧ r.isDeleted=false ∧ inScope flags r

def Pending (r : MessageRow) (b : Nat) : Prop := r.isAssociated=false ∧ ∃ c,r.readCn=some c ∧ b< c

/-- The marks `a`, `f` and `b` are old ones, and what the client takes for current it has. -/
structure ClientInv (flags : UInt16) (fid : Nat) (w : SyncWorld) (a f b : Nat) : Prop where
  holds : w.client.state.Holds (fun m => (w.client.replica m).isSome) a f b
  bound : a≤w.db.lastChangeNumber ∧ f≤w.db.lastChangeNumber ∧ b≤w.db.lastChangeNumber
  current : ∀ r∈w.db.messages,r.parentFid=fid → r.isDeleted=false → inScope flags r →
    (w.client.replica r.messageId).isSome → r.changeNumber≤(if r.isAssociated then f else a) →
    ∃ e,w.client.replica r.messageId=some e ∧ e.cn=r.changeNumber ∧
      (enabled flags syncReadState → e.read=r.readState ∨ Pending r b)

theorem ClientInv.write {flags : UInt16} {fid : Nat} {w : SyncWorld} {a f b : Nat}
    (h : ClientInv flags fid w a f b) (hs : Stamped w.db db') :
    ClientInv flags fid {w with db:=db'} a f b := by
  have hm := hs.mono
  have hb := h.bound
  refine ⟨h.holds,by simp only; omega,?_⟩
  intro r' hr hp hd hsc hg hcn
  cases hs.rows r' hr with
  | fresh hn _ _ =>
    -- a newer change number is above both marks
    split_ifs at hcn <;> omega
  | kept hk => exact h.current r' hk hp hd hsc hg hcn
  | flipped r want c hr₀ ha hn _ he =>
    subst he
    obtain ⟨e,he,hecn,-⟩ := h.current r hr₀ hp hd hsc hg hcn
    exact ⟨e,he,hecn,fun _ => .inr ⟨ha,c,rfl,by omega⟩⟩

section Request

variable {flags : UInt16} {fid : Nat} {st : SyncState} {G : Nat → Prop} {a f b : Nat}

theorem scoped_iff (fid : Nat) (st : SyncState) (r : MessageRow) :
    (contentSyncRequestFor fid st flags).Scoped (scanContentRow r) ↔ inScope flags r=true := by
  unfold ContentSyncRequest.Scoped ContentSyncRequest.seenOf inScope contentSyncRequestFor
  cases hf : r.isAssociated <;> simp [hf]

theorem bodyCurrent_iff (fid : Nat) (h : st.Holds G a f b) (r : MessageRow) (hr : inScope flags r=true) :
    (contentSyncRequestFor fid st flags).bodyCurrent (scanContentRow r)=true ↔
      G r.messageId ∧ 1≤ r.changeNumber ∧ r.changeNumber≤(if r.isAssociated then f else a) := by
  unfold inScope at hr
  cases hf : r.isAssociated <;> simp only [hf,if_true,Bool.false_eq_true,if_false] at hr <;>
    simp [ContentSyncRequest.bodyCurrent,ContentSyncRequest.inGiven,ContentSyncRequest.seenOf,
      contentSyncRequestFor,hf,hr,h.given.contains_iff,h.seen.contains_iff,h.seenFAI.contains_iff]

theorem readStateChanged_iff (fid : Nat) (h : st.Holds G a f b) (r : MessageRow) :
    readStateChanged (scanContentRow r) (contentSyncRequestFor fid st flags).read=true ↔
      enabled flags syncReadState=true ∧ Pending r b := by
  cases hf : enabled flags syncReadState with
  | false => simp [readStateChanged,contentSyncRequestFor,hf]
  | true =>
    have hc := h.read.contains_iff (r.readCn.getD 0)
    cases hr : r.readCn with
    | none => simp [readStateChanged,contentSyncRequestFor,hf,Pending,hr]
    | some c =>
      rw [hr,Option.getD_some] at hc
      have hn : st.read.contains (makeEIDEx homeReplID c)=false ↔ ¬(1≤ c ∧ c≤b) := by
        rw [← hc,Bool.not_eq_true]
      simp only [readStateChanged,contentSyncRequestFor,hf,if_true,scanContentRow_isFAI,
        scanContentRow_readCN,hr,Option.getD_some,Bool.and_eq_true,Bool.not_eq_true',
        decide_eq_true_eq,Pending,Option.some.injEq,true_and,exists_eq_left',hn,
        and_assoc]
      have hlt : ¬c=0 ∧ ¬(1≤ c ∧ c≤b) ↔ b< c := by omega
      rw [hlt]

end Request

theorem consume_messages (flags : UInt16) (res : ContentSyncResult) (g : Nat → Bool)
    (mids : List Nat) (replica : Nat → Option Entry) (m : Nat) :
    (mids.map fun m => FlowNode.message m (g m)).foldl (consume db flags res) replica m=
      if m∈mids then (db.messages.get m).map entryOf else replica m := by
  induction mids generalizing replica with
  | nil => simp
  | cons x xs ih =>
    rw [List.map_cons,List.foldl_cons,ih]
    by_cases hx : m∈xs
    · simp [hx]
    · by_cases he : m=x <;> simp [consume,he]

def reflag (res : ContentSyncResult) (m : Nat) (e : Entry) : Entry :=
  if m∈res.readMIDs then {e with read:=true}
  else if m∈res.unreadMIDs then {e with read:=false} else e

theorem enabled_or (flags x y : UInt16) :
    enabled flags (x ||| y)=(enabled flags x || enabled flags y) := by
  have h : flags &&& (x ||| y)=(flags &&& x) ||| (flags &&& y) := by
    apply UInt16.toBitVec_inj.mp
    simpa using BitVec.and_or_distrib_left
  simp [enabled,h]

def SendsDeletions (flags : UInt16) : Prop :=
  enabled flags syncNoDeletions=false ∧ enabled flags syncNoSoftDeletions=false

instance (flags : UInt16) : Decidable (SendsDeletions flags) := inferInstanceAs (Decidable (_ ∧ _))

section Download

variable {flags : UInt16} {fid : Nat} {w : SyncWorld} {a f b : Nat}

def SyncWorld.delta (w : SyncWorld) (flags : UInt16) (fid : Nat) : ContentSyncResult :=
  w.db.getContentSync (contentSyncRequestFor fid w.client.state flags)

variable {r : MessageRow}

theorem mem_liveMessages {db : ObjDB} :
    r∈db.liveMessages fid ↔ r∈db.messages ∧ r.parentFid=fid ∧ r.isDeleted=false := by
  simp [ObjDB.liveMessages,Table.mem_rows]

theorem scoped_eq_some {db : ObjDB} {m : Nat} :
    db.scoped flags fid m=some r ↔
      r∈db.liveMessages fid ∧ inScope flags r=true ∧ r.messageId=m := by
  rw [ObjDB.scoped,Option.filter_eq_some_iff,Table.get_eq_some,mem_liveMessages]
  simp only [decide_eq_true_eq]
  tauto

variable (h : ClientInv flags fid w a f b)

include h

theorem ClientInv.delta :
    ContentDelta w.db (contentSyncRequestFor fid w.client.state flags)
      (fun m => (w.client.replica m).isSome) (w.delta flags fid) :=
  contentDelta w.db _ rfl h.holds.given

theorem ClientInv.changed_nil (hf : enabled flags (syncAssociated ||| syncNormal)=false) :
    (w.delta flags fid).changedMIDs=[] := by
  rw [enabled_or] at hf
  apply List.eq_nil_iff_forall_not_mem.mpr
  intro m hm
  obtain ⟨r,-,ho,-⟩ := (h.delta.changed m).mp hm
  have hsc : inScope flags r=true := (scoped_iff fid _ r).mp ho.1
  unfold inScope at hsc
  split_ifs at hsc <;> simp_all

theorem ClientInv.reflag_eq (hr : r∈w.db.liveMessages fid) (e : Entry) :
    (reflag (w.delta flags fid) r.messageId e).cn=e.cn ∧
    (e.read=r.readState ∨ (contentSyncRequestFor fid w.client.state flags).Reflagged
      (scanContentRow r) → (reflag (w.delta flags fid) r.messageId e).read=r.readState) := by
  have hu : ∀ v,r.messageId∈(if v then (w.delta flags fid).readMIDs
      else (w.delta flags fid).unreadMIDs) → r.readState=v := by
    intro v hv
    obtain ⟨x,hx,-,hid,rfl⟩ := (h.delta.flagged v r.messageId).mp hv
    rw [Table.eq_of_key (mem_liveMessages.mp hx).1 (mem_liveMessages.mp hr).1 hid]
  have hf := fun hre => (h.delta.flagged r.readState r.messageId).mpr ⟨r,hr,hre,rfl,rfl⟩
  have ht := hu true
  have hn := hu false
  unfold reflag
  split_ifs with h1 h2
  · exact ⟨rfl,fun _ => (ht h1).symm⟩
  · exact ⟨rfl,fun _ => (hn h2).symm⟩
  · cases hv : r.readState <;> simp_all

def Converged (flags : UInt16) (fid : Nat) (w : SyncWorld) : Prop :=
  ∀ m,(w.client.replica m).map Entry.cn=
      (w.db.scoped flags fid m).map MessageRow.changeNumber ∧
    (enabled flags syncReadState=true → w.client.replica m=(w.db.scoped flags fid m).map entryOf)

def ContentSyncResult.Quiet (res : ContentSyncResult) : Prop :=
  res.changedMIDs=[] ∧ res.deletedMIDs=[] ∧ res.noLongerMIDs=[] ∧ res.readMIDs=[] ∧
    res.unreadMIDs=[]

variable (hdel : SendsDeletions flags)

include hdel

theorem ClientInv.download_replica (m : Nat) :
    let res := w.delta flags fid
    let base := if m∈res.changedMIDs then (w.db.messages.get m).map entryOf else w.client.replica m
    let kept := if m∈res.deletedMIDs ∨ m∈res.noLongerMIDs then none else base
    (w.download flags fid).client.replica m=
      if enabled flags syncReadState then kept.map (reflag res m) else kept := by
  intro res base kept
  have hmsg : ∀ rep : Nat → Option Entry,
      (if enabled flags (syncAssociated ||| syncNormal) then
        res.changedMIDs.map fun m => FlowNode.message m (decide (m∈res.updatedMIDs))
        else []).foldl (consume w.db flags res) rep=
      fun m => if m∈res.changedMIDs then (w.db.messages.get m).map entryOf else rep m := by
    intro rep
    funext m
    by_cases hf : enabled flags (syncAssociated ||| syncNormal)=true
    · rw [if_pos hf]
      exact consume_messages w.db flags res _ _ rep m
    · have hnil : res.changedMIDs=[] := h.changed_nil (by simpa using hf)
      simp [hnil]
  have hprog : (if enabled flags syncProgressMode then [FlowNode.progress] else []).foldl
      (consume w.db flags res) w.client.replica=w.client.replica := by
    split_ifs <;> rfl
  show ((contentFlow res flags).foldl (consume w.db flags res) w.client.replica) m=_
  simp only [contentFlow,List.foldl_append,hprog,hmsg,hdel.1]
  cases enabled flags syncReadState <;>
    simp only [List.foldl_cons,Bool.false_eq_true,if_false,consume,
      writeDeletions,hdel.2,List.mem_append] <;> rfl

theorem ClientInv.download_scoped (hr : r∈w.db.liveMessages fid) (hin : inScope flags r=true) :
    ∃ e,(w.download flags fid).client.replica r.messageId=some e ∧ e.cn=r.changeNumber ∧
      (enabled flags syncReadState=true → e.read=r.readState) := by
  have hlive := mem_liveMessages.mp hr
  have hsc := (scoped_iff fid w.client.state r).mpr hin
  have hsame : ∀ x∈w.db.liveMessages fid,x.messageId=r.messageId → x=r :=
    fun x hx => Table.eq_of_key (mem_liveMessages.mp hx).1 hlive.1
  have hstay : ¬(r.messageId∈(w.delta flags fid).deletedMIDs ∨
      r.messageId∈(w.delta flags fid).noLongerMIDs) := by
    intro hg
    exact ((h.delta.gone _).mp hg).2 ⟨r,hr,hsc,rfl⟩
  have hbase : ∃ e,(if r.messageId∈(w.delta flags fid).changedMIDs
      then (w.db.messages.get r.messageId).map entryOf else w.client.replica r.messageId)=some e ∧
      e.cn=r.changeNumber ∧ (enabled flags syncReadState=true → e.read=r.readState ∨
        (contentSyncRequestFor fid w.client.state flags).Reflagged (scanContentRow r)) := by
    cases hb : (contentSyncRequestFor fid w.client.state flags).bodyCurrent (scanContentRow r) with
    | false =>
      have hm := (h.delta.changed r.messageId).mpr ⟨r,hr,⟨hsc,hb⟩,rfl⟩
      refine ⟨entryOf r,?_,rfl,fun _ => .inl rfl⟩
      rw [if_pos hm,Table.get_key hlive.1,Option.map_some]
    | true =>
      have hm : r.messageId∉(w.delta flags fid).changedMIDs := by
        intro hm
        obtain ⟨x,hx,ho,hid⟩ := (h.delta.changed _).mp hm
        rw [hsame x hx hid] at ho
        have hcur := ho.2
        rw [hb] at hcur
        cases hcur
      obtain ⟨hg,-,hle⟩ := (bodyCurrent_iff fid h.holds r hin).mp hb
      obtain ⟨e,he,hcn,hrd⟩ := h.current r hlive.1 hlive.2.1 hlive.2.2 hin hg hle
      refine ⟨e,by rw [if_neg hm,he],hcn,fun hf => (hrd hf).imp_right fun hp => ?_⟩
      exact ⟨hsc,hb,(readStateChanged_iff fid h.holds r).mpr ⟨hf,hp⟩⟩
  obtain ⟨e,he,hcn,hrd⟩ := hbase
  have hrep := h.download_replica hdel r.messageId
  have hfl := h.reflag_eq hr e
  simp only [hstay,he] at hrep
  cases hf : enabled flags syncReadState with
  | false => exact ⟨e,by simpa [hf] using hrep,hcn,by simp⟩
  | true =>
    exact ⟨reflag (w.delta flags fid) r.messageId e,by simpa [hf] using hrep,hfl.1.trans hcn,
      fun _ => hfl.2 (hrd hf)⟩

theorem ClientInv.download_unscoped {m : Nat} (hs : w.db.scoped flags fid m=none) :
    (w.download flags fid).client.replica m=none := by
  have hno : ¬∃ r∈w.db.liveMessages fid,
      (contentSyncRequestFor fid w.client.state flags).Scoped (scanContentRow r) ∧
      r.messageId=m := by
    intro ⟨r,hr,hsc,hid⟩
    have hsome := scoped_eq_some.mpr ⟨hr,(scoped_iff fid _ r).mp hsc,hid⟩
    rw [hs] at hsome
    cases hsome
  have hch : m∉(w.delta flags fid).changedMIDs := by
    intro hm
    obtain ⟨r,hr,ho,hid⟩ := (h.delta.changed m).mp hm
    exact hno ⟨r,hr,ho.1,hid⟩
  have hrep := h.download_replica hdel m
  rw [hrep]
  cases hc : w.client.replica m with
  | none => simp [hch]
  | some e =>
    have hgone := (h.delta.gone m).mpr ⟨by simp [hc],hno⟩
    simp [hgone]

theorem ClientInv.download_converged :
    Converged flags fid (w.download flags fid) := by
  intro m
  cases hs : w.db.scoped flags fid m with
  | none => simp [hs,h.download_unscoped hdel hs]
  | some r =>
    obtain ⟨hr,hin,rfl⟩ := scoped_eq_some.mp hs
    obtain ⟨e,he,hcn,hrd⟩ := h.download_scoped hdel hr hin
    simp only [SyncWorld.download_db,hs,he,Option.map_some,Option.some.injEq]
    refine ⟨hcn,fun hf => ?_⟩
    rw [entryOf,← hcn,← hrd hf]

theorem ClientInv.download_isSome (m : Nat) : ((w.download flags fid).client.replica m).isSome ↔
      ∃ r∈w.db.liveMessages fid,inScope flags r=true ∧ r.messageId=m := by
  cases hs : w.db.scoped flags fid m with
  | none =>
    rw [h.download_unscoped hdel hs]
    simp only [Option.isSome_none,Bool.false_eq_true,false_iff]
    intro ⟨r,hr,hin,hid⟩
    have hsome := scoped_eq_some.mpr ⟨hr,hin,hid⟩
    rw [hs] at hsome
    cases hsome
  | some r =>
    obtain ⟨hr,hin,rfl⟩ := scoped_eq_some.mp hs
    obtain ⟨e,he,-⟩ := h.download_scoped hdel hr hin
    simp only [he,Option.isSome_some,true_iff]
    exact ⟨r,hr,hin,rfl⟩

theorem ClientInv.download (hst : StampsBounded w.db) :
    ClientInv flags fid (w.download flags fid)
      (if enabled flags syncNormal then (w.delta flags fid).lastCN else 0)
      (if enabled flags syncAssociated then (w.delta flags fid).lastCN else 0)
      (if enabled flags syncReadState then (w.delta flags fid).lastReadCN else 0) := by
  have hgiven : (fun m => m∈(w.delta flags fid).givenMIDs)=
      fun m => ((w.download flags fid).client.replica m).isSome=true := by
    funext m
    rw [h.download_isSome hdel,h.delta.given]
    simp only [scoped_iff]
    rfl
  have hcn : (w.delta flags fid).lastCN≤w.db.lastChangeNumber := by
    apply (h.delta.lastCN _).mpr
    intro r hr _
    exact (hst.cn r (mem_liveMessages.mp hr).1).2
  have hrcn : (w.delta flags fid).lastReadCN≤w.db.lastChangeNumber := by
    apply (h.delta.lastReadCN _).mpr
    intro r hr _
    cases hc : r.readCn with
    | none => exact Nat.zero_le _
    | some c => exact (hst.readCn r (mem_liveMessages.mp hr).1 c hc).2
  refine ⟨?_,⟨?_,?_,?_⟩,?_⟩
  · rw [← hgiven]
    exact writeState_holds flags _ _ _
  · split_ifs <;> simp only [SyncWorld.download_db] <;> omega
  · split_ifs <;> simp only [SyncWorld.download_db] <;> omega
  · split_ifs <;> simp only [SyncWorld.download_db] <;> omega
  · intro r hr hp hd hin _ _
    obtain ⟨e,he,hcn,hrd⟩ := h.download_scoped hdel (mem_liveMessages.mpr ⟨hr,hp,hd⟩) hin
    exact ⟨e,he,hcn,fun hf => .inl (hrd hf)⟩

theorem ClientInv.download_quiet (hst : StampsBounded w.db) :
    ((w.download flags fid).delta flags fid).Quiet := by
  have h' := h.download hdel hst
  have hcn := (h.delta.lastCN _).mp (Nat.le_refl _)
  have hrcn := (h.delta.lastReadCN _).mp (Nat.le_refl _)
  have hbody : ∀ m,m∉((w.download flags fid).delta flags fid).changedMIDs := by
    intro m hm
    obtain ⟨r,hr,⟨hsc,hb⟩,-⟩ := (h'.delta.changed m).mp hm
    have hin := (scoped_iff fid _ r).mp hsc
    have hlast := hcn r hr ((scoped_iff fid _ r).mpr hin)
    have hone := (hst.cn r (mem_liveMessages.mp hr).1).1
    have hle : r.changeNumber≤(if r.isAssociated
        then (if enabled flags syncAssociated then (w.delta flags fid).lastCN else 0)
        else (if enabled flags syncNormal then (w.delta flags fid).lastCN else 0)) := by
      unfold inScope at hin
      cases ha : r.isAssociated <;> simp_all
    have hcur := (bodyCurrent_iff fid h'.holds r hin).mpr
      ⟨(h.download_isSome hdel _).mpr ⟨r,hr,hin,rfl⟩,hone,hle⟩
    rw [hb] at hcur
    cases hcur
  have hgone : ∀ m,¬(m∈((w.download flags fid).delta flags fid).deletedMIDs ∨
      m∈((w.download flags fid).delta flags fid).noLongerMIDs) := by
    intro m hm
    obtain ⟨hg,hno⟩ := (h'.delta.gone m).mp hm
    obtain ⟨r,hr,hin,hid⟩ := (h.download_isSome hdel m).mp hg
    exact hno ⟨r,hr,(scoped_iff fid _ r).mpr hin,hid⟩
  have hflag : ∀ (v : Bool) m,m∉(if v then ((w.download flags fid).delta flags fid).readMIDs
      else ((w.download flags fid).delta flags fid).unreadMIDs) := by
    intro v m hm
    obtain ⟨r,hr,⟨hsc,-,hre⟩,-,-⟩ := (h'.delta.flagged v m).mp hm
    obtain ⟨hf,-,c,hc,hlt⟩ := (readStateChanged_iff fid h'.holds r).mp hre
    have hle := hrcn r hr ((scoped_iff fid _ r).mpr ((scoped_iff fid _ r).mp hsc))
    simp only [hc,Option.getD_some,hf,if_true] at hle hlt
    omega
  refine ⟨?_,?_,?_,?_,?_⟩ <;> apply List.eq_nil_iff_forall_not_mem.mpr <;> intro m hm
  · exact hbody m hm
  · exact hgone m (.inl hm)
  · exact hgone m (.inr hm)
  · exact hflag true m hm
  · exact hflag false m hm

end Download

theorem inv_initial (flags : UInt16) (fid : Nat) (db : ObjDB) :
    ClientInv flags fid (.initial db) 0 0 0 ∧ StampsBounded (SyncWorld.initial db).db := by
  refine ⟨⟨?_,by simp,?_⟩,⟨?_,?_⟩⟩
  · simpa [SyncWorld.initial,SyncClient.fresh] using newState_holds
  all_goals
    intro r hr
    exact absurd hr (Table.not_mem_empty r)

theorem inv_step {flags : UInt16} {fid : Nat} {w : SyncWorld} (hdel : SendsDeletions flags)
    (h : (∃ a f b,ClientInv flags fid w a f b) ∧ StampsBounded w.db) (s : ContentStep) :
    (∃ a f b,ClientInv flags fid (w.step flags fid s) a f b) ∧
      StampsBounded (w.step flags fid s).db := by
  obtain ⟨⟨a,f,b,hc⟩,hst⟩ := h
  have hs := write_stamped w.db s
  by_cases hd : s=.download
  · subst hd
    exact ⟨⟨_,_,_,hc.download hdel hst⟩,hst⟩
  · have he : w.step flags fid s={w with db:=w.db.write s} := by
      cases s <;> first | rfl | exact absurd rfl hd
    rw [he]
    exact ⟨⟨a,f,b,hc.write hs⟩,hst.stamped hs⟩

theorem inv_run (flags : UInt16) (fid : Nat) (db : ObjDB)
    (hdel : SendsDeletions flags) (steps : List ContentStep) :
    (∃ a f b,ClientInv flags fid (.run flags fid db steps) a f b) ∧
      StampsBounded (SyncWorld.run flags fid db steps).db := by
  induction steps using List.reverseRecOn with
  | nil =>
    have h := inv_initial flags fid db
    exact ⟨⟨0,0,0,h.1⟩,h.2⟩
  | append_singleton steps s ih =>
    simp only [SyncWorld.run,List.foldl_append]
    exact inv_step hdel ih s

/-- Each download leaves the live in-scope messages, and the next reports nothing. -/
theorem contentSync_converges (flags : UInt16) (fid : Nat) (db : ObjDB)
    (hdel : SendsDeletions flags) (steps : List ContentStep) :
    Converged flags fid (.run flags fid db (steps++[.download])) ∧
      ((SyncWorld.run flags fid db (steps++[.download])).delta flags fid).Quiet := by
  obtain ⟨⟨a,f,b,hc⟩,hst⟩ := inv_run flags fid db hdel steps
  have he : SyncWorld.run flags fid db (steps++[.download])=
      (SyncWorld.run flags fid db steps).download flags fid := by
    simp [SyncWorld.run,SyncWorld.step]
  rw [he]
  exact ⟨hc.download_converged hdel,hc.download_quiet hdel hst⟩

def inboxOnly : ObjDB := .ofFolders (.single ⟨13,none,1,false,0x10000,0x1FFFF,[]⟩)

theorem contentSync_converges_flip :
    SendsDeletions (syncNormal ||| syncReadState) ∧
    Converged (syncNormal ||| syncReadState) 13 (.run (syncNormal ||| syncReadState) 13 inboxOnly
      ([.createMessage 13 ⟨false,false,10⟩,.download,.setObjReadState 0x10000 true]++[.download])) :=
  ⟨by decide,(contentSync_converges _ 13 inboxOnly (by decide) _).1⟩

/-- Without read-state synchronization a flip is never sent. -/
theorem contentSync_flip_unsent :
    (SyncWorld.run syncNormal 13 inboxOnly [.createMessage 13 ⟨false,false,10⟩,.download,
      .setObjReadState 0x10000 true,.download]).client.replica 0x10000=some ⟨1,false⟩ ∧
    ((SyncWorld.run syncNormal 13 inboxOnly [.createMessage 13 ⟨false,false,10⟩,.download,
      .setObjReadState 0x10000 true,.download]).db.scoped syncNormal 13 0x10000).map entryOf=
      some ⟨1,true⟩ := by
  decide

end HermEX.Objectstore
