import HermEX.Rop.Granted

namespace HermEX.Rop

open Framework Mapi Objectstore

namespace World

/-- The right in the folder that each of the messages is in. -/
def Entitles (w : World) (need : UInt32) (ids : List Nat) : Prop :=
  ∀ r∈w.store.objdb.messages,r.messageId∈ids → w.has r.parentFid need=true

instance (w : World) (need : UInt32) (ids : List Nat) : Decidable (w.Entitles need ids) :=
  inferInstanceAs (Decidable (∀ r∈w.store.objdb.messages.rows,_))

def MayClear (w : World) (fid : Nat) : Prop :=
  w.Entitles frightsDeleteAny ((w.store.listMessages fid).map IndexMessageRow.messageId)

def Cleared (w : World) (fid : Nat) : Prop :=
  w.store.objdb.isBuiltinFolder fid=false → ∀ g,w.store.objdb.links.Below fid g →
    w.has g frightsOwner=true ∧ w.has g frightsDeleteAny=true

def Replaceable (w : World) (mid fid : Nat) : Prop :=
  ∀ r∈w.store.objdb.messages,r.messageId=mid →
    (w.has r.parentFid frightsDeleteAny=true ∧ w.has fid frightsCreate=true) ∨
    (w.has r.parentFid frightsEditAny=true ∧ r.parentFid=fid ∧ r.isDeleted=false)

def MayEmpty (w : World) (h : Nat) : Prop :=
  ∀ fid∈w.session.openFolder h,w.has fid frightsDeleteAny=true → w.MayClear fid ∧
    ∀ cs∈childFolders w.store.objdb fid,∀ c∈cs,w.Cleared c

/-- The caller has the rights that are not checked, too. -/
def Within (w : World) : Request → Prop
  | .setReadFlags h _ ids _ => ∀ fid∈w.session.openFolder h,w.has fid frightsEditAny=true →
      w.Entitles frightsEditAny (readFlagTargets w.store fid ids)
  | .deleteMessages h ids => ∀ fid∈w.session.openFolder h,
      w.has fid frightsDeleteAny=true → w.Entitles frightsDeleteAny ids
  | .hardDeleteMessages h ids => ∀ fid∈w.session.openFolder h,
      w.has fid frightsDeleteAny=true → w.Entitles frightsDeleteAny ids
  | .moveCopyMessages h _ _ wantCopy _ => wantCopy=false → ∀ src∈w.session.openFolder h,
      w.has src frightsDeleteAny=true → w.MayClear src
  | .emptyFolder h => w.MayEmpty h
  | .hardDeleteMessagesAndSubfolders h => w.MayEmpty h
  | .deleteFolder _ fid => w.has fid frightsOwner=true → w.Cleared fid
  | .moveFolder _ dh fid _ _ => w.session.openFolder dh=none → ∀ f∈w.store.objdb.folders,
      f.folderId=fid → f.parentId=some w.store.objdb.ipmSubtree ∨
        w.has w.store.objdb.ipmSubtree frightsCreateSubfolder=true
  | .syncImportHierarchyChange h hichyvals _ _ => ∀ c∈w.session.upload h,
      ∀ imp∈(ObjDB.parseHierarchyImport c.folderID hichyvals w.store.objdb.replica).toOption,
      ∀ f∈w.store.objdb.folders,f.folderId=imp.fid → w.has imp.fid frightsOwner=true ∧
        (f.parentId=some imp.parent ∨ w.has imp.parent frightsCreateSubfolder=true)
  | .syncImportDeletes h _ => ∀ c∈w.session.upload h,w.has c.folderID frightsDeleteAny=true
  | .syncImportReadStateChanges h _ => ∀ c∈w.session.upload h,
      w.has c.folderID frightsEditAny=true
  | .syncImportMessageMove h srcFolderKey srcMsgKey dstMsgKey => ∀ c∈w.session.upload h,
      ∀ x∈(UploadCollector.parseMessageMove srcFolderKey srcMsgKey dstMsgKey
        w.store.objdb.replica).toOption,
      (x.2.1≠x.2.2 → w.has x.1 frightsDeleteAny=true) ∧ w.Replaceable x.2.2 c.folderID
  | .saveChangesMessage h _ infected => ∀ um,w.session.get h=some (.uploadMessage um) →
      um.isNew=false → if infected then ∀ r∈w.store.objdb.messages,r.messageId=um.mid →
        w.has r.parentFid frightsDeleteAny=true else w.Replaceable um.mid um.folderID
  | _ => True

def Allows (w : World) (s : Store) : Prop :=
  Respects (fun fid need => w.has fid need=true) w.store.objdb s.objdb

variable (w : World) {fid : Nat}

theorem allows_self : w.Allows w.store := .refl _

theorem onFolder_allows {w : World} {h : Nat} {k : Nat → Reply×World}
    (hk : ∀ fid,w.session.openFolder h=some fid → w.Allows (k fid).2.store) :
    w.Allows (w.onFolder h k).2.store := by
  unfold onFolder
  split
  · exact w.allows_self
  · rename_i fid hf
    exact hk fid hf

theorem onUpload_allows {w : World} {h : Nat} {k : UploadCollector → Reply×World}
    (hk : ∀ c,w.session.upload h=some c → w.Allows (k c).2.store) :
    w.Allows (w.onUpload h k).2.store := by
  unfold onUpload
  split
  · exact w.allows_self
  · rename_i c hc
    exact hk c hc

theorem unlessDenied_allows {w : World} {need : UInt32} {k : Reply×World}
    (hk : w.has fid need=true → w.Allows k.2.store) :
    w.Allows (w.unlessDenied fid need k).2.store := by
  unfold unlessDenied
  split_ifs with hn
  · exact hk hn
  · exact w.allows_self

theorem afterQuery_allows {w : World} {res : Option (Except StoreErr Unit×Store)}
    (hk : ∀ x,res=some x → w.Allows x.2) : w.Allows (w.afterQuery res).2.store := by
  unfold afterQuery
  split
  · exact w.allows_self
  · rename_i x
    exact hk x rfl

theorem entitled_allows {w : World} {ids : List Nat} {need : UInt32}
    {Q : MessageRow → Option MessageRow → Prop} {s : Store} (hn : w.Entitles need ids)
    (h : MailChange (fun r => r.messageId∈ids) Q w.store.objdb s.objdb)
    (hQ : ∀ {r o},Q r o → w.has r.parentFid need=true →
      MessageGranted (fun fid need => w.has fid need=true) r o) : w.Allows s := by
  refine (mailChange_granted h ?_).respects
  intro r hr ht o ho
  exact hQ ho (hn r hr ht)

theorem ropSetReadFlags_allows (h : Nat) (flags : UInt8) (ids : List Nat) (receipt : Nat → Bool)
    (hc : w.Within (.setReadFlags h flags ids receipt)) :
    w.Allows (w.ropSetReadFlags h flags ids receipt).2.store := by
  apply onFolder_allows
  intro fid hf
  apply unlessDenied_allows
  intro he
  have hedit := tryEach_mail (readFlagTargets w.store fid ids) edited_composes
    (applyReadFlag_edits receipt (decodeReadFlags flags)) w.store
  exact entitled_allows (hc fid hf he) hedit fun ho hn => edited_granted ho hn

theorem ropDeleteMessages_allows (h : Nat) (ids : List Nat) (hc : w.Within (.deleteMessages h ids)) :
    w.Allows (w.ropDeleteMessages h ids).2.store := by
  apply onFolder_allows
  intro fid hf
  apply unlessDenied_allows
  intro hd
  exact entitled_allows (hc fid hf hd) (softDeleteEach_deletes ids w.store)
    fun ho hn => softDeleted_granted ho hn

theorem ropHardDeleteMessages_allows (h : Nat) (ids : List Nat)
    (hc : w.Within (.hardDeleteMessages h ids)) :
    w.Allows (w.ropHardDeleteMessages h ids).2.store := by
  apply onFolder_allows
  intro fid hf
  apply unlessDenied_allows
  intro hd
  have hdel := forEach_mail ids softDeleted_composes
    (fun mid s => (softDeleteObject_deletes s mid).1) w.store
  exact entitled_allows (hc fid hf hd) hdel fun ho hn => softDeleted_granted ho hn

theorem ropMoveCopyMessages_allows (h dh : Nat) (ids : List Nat) (wantCopy : Bool)
    (wire : Nat → Except StoreErr MessageHead)
    (hc : w.Within (.moveCopyMessages h dh ids wantCopy wire)) :
    w.Allows (w.ropMoveCopyMessages h dh ids wantCopy wire).2.store := by
  apply onFolder_allows
  intro src hsrc
  apply onFolder_allows
  intro dst hdst
  apply unlessDenied_allows
  intro hright
  apply unlessDenied_allows
  intro hcreate
  cases wantCopy with
  | true => exact adds_respects (moveCopyEach_adds wire src dst ids w.store)
  | false =>
    have hlists := hc rfl src hsrc hright
    have hstart : Moving (fun fid => w.has fid frightsDeleteAny=true) w.store.objdb src dst
        w.store := by
      refine ⟨fun r hr _ => hr,fun r hr => .inl hr,?_,.refl sameFolder_composes _⟩
      intro m hm hfid r hr hid
      have hmem := List.mem_map_of_mem (f := IndexMessageRow.messageId)
        (mem_listMessages.mpr ⟨hm,hfid⟩)
      exact hlists r hr (hid ▸ hmem)
    exact (moveCopyEach_moving wire ids hstart).respects hcreate

theorem emptyFolder_allows {w : World} {h : Nat} (hc : w.MayEmpty h)
    (hf : w.session.openFolder h=some fid) (hd : w.has fid frightsDeleteAny=true) :
    w.Allows (emptyFolderContents fid w.store).2 := by
  obtain ⟨hlists,hchildren⟩ := hc fid hf hd
  refine (emptyFolderContents_granted fid w.store ?_ ?_).respects
  · intro m hm r hr hid
    have hmem := List.mem_map_of_mem (f := IndexMessageRow.messageId) hm
    exact hlists r hr (hid ▸ hmem)
  · intro cs hcs c hmem
    exact hchildren cs hcs c hmem

theorem ropEmptyFolder_allows (h : Nat) (hc : w.MayEmpty h) :
    w.Allows (w.ropEmptyFolder h).2.store := by
  apply onFolder_allows
  intro fid hf
  apply unlessDenied_allows
  intro hd
  exact emptyFolder_allows hc hf hd

theorem ropHardDeleteMessagesAndSubfolders_allows (h : Nat) (hc : w.MayEmpty h) :
    w.Allows (w.ropHardDeleteMessagesAndSubfolders h).2.store := by
  apply onFolder_allows
  intro fid hf
  apply unlessDenied_allows
  intro hd
  exact emptyFolder_allows hc hf hd

theorem ropDeleteFolder_allows (h fid : Nat) (hc : w.Within (.deleteFolder h fid)) :
    w.Allows (w.ropDeleteFolder h fid).2.store := by
  apply onFolder_allows
  intro _ _
  apply unlessDenied_allows
  intro ho
  apply afterQuery_allows
  intro x hx
  have hg : Granted (fun fid need => w.has fid need=true) w.store.objdb x.2.objdb :=
    And.left (deleteFolder_granted hx (hc ho))
  exact hg.respects

theorem renameStore_allows {w : World} {newParent : Option Nat} {name : GoString} {now : UInt64}
    (ho : w.has fid frightsOwner=true) (hp : ∀ f∈w.store.objdb.folders,f.folderId=fid →
      f.parentId=some (newParent.getD w.store.objdb.ipmSubtree) ∨
        w.has (newParent.getD w.store.objdb.ipmSubtree) frightsCreateSubfolder=true) :
    w.Allows (w.afterQuery (renameStore w.store fid newParent name now)).2.store := by
  apply afterQuery_allows
  intro x hx
  obtain ⟨⟨res,db⟩,hren,rfl⟩ := Option.map_eq_some_iff.mp hx
  obtain ⟨hm,hf⟩ := renameFolder_rehangs hren
  exact rehung_respects hm hf.old fun f hmem hid => ⟨ho,hp f hmem hid⟩

theorem ropMoveFolder_allows (h dh fid : Nat) (name : GoString) (now : UInt64)
    (hc : w.Within (.moveFolder h dh fid name now)) :
    w.Allows (w.ropMoveFolder h dh fid name now).2.store := by
  apply onFolder_allows
  intro _ _
  apply unlessDenied_allows
  intro ho
  split
  · rename_i hdest
    exact renameStore_allows ho (hc hdest)
  · apply unlessDenied_allows
    intro hcreate
    exact renameStore_allows ho fun _ _ _ => .inr hcreate

theorem ropCopyFolder_allows (h dh fid : Nat) (name : GoString) (recursive : Bool)
    (wire : Nat → Except StoreErr MessageHead) (now : UInt64) (levels : Nat) :
    w.Allows (w.ropCopyFolder h dh fid name recursive wire now levels).2.store := by
  apply onFolder_allows
  intro _ _
  apply unlessDenied_allows
  intro _
  apply onFolder_allows
  intro dest _
  apply unlessDenied_allows
  intro _
  exact adds_respects (copyFolder_adds wire now levels w.store fid dest name recursive)

theorem ropSyncImportHierarchyChange_allows (h : Nat) (hichyvals propvals : PropertyValues)
    (now : UInt64) (hc : w.Within (.syncImportHierarchyChange h hichyvals propvals now)) :
    w.Allows (w.ropSyncImportHierarchyChange h hichyvals propvals now).2.store := by
  apply onUpload_allows
  intro c hu
  unfold UploadCollector.importHierarchyChange
  split_ifs
  · exact w.allows_self
  · split
    · exact w.allows_self
    · rename_i fid obj hok
      obtain ⟨imp,himp,hm,hf⟩ := importHierarchyChange_rehangs hok
      refine rehung_respects hm hf ?_
      exact hc c hu imp (by rw [himp]; rfl)

theorem ropSyncImportDeletes_allows (h : Nat) (propvals : PropertyValues)
    (hc : w.Within (.syncImportDeletes h propvals)) :
    w.Allows (w.ropSyncImportDeletes h propvals).2.store := by
  apply onUpload_allows
  intro c hu
  have hd : w.has c.folderID frightsDeleteAny=true := hc c hu
  split
  · rename_i tag keys
    split_ifs
    · refine (mailChange_granted (importDeletes_gone c.folderID keys w.store) ?_).respects
      intro r _ ht o ho
      exact gone_granted ho (ht ▸ hd)
    · exact w.allows_self
  · exact w.allows_self

theorem ropSyncImportReadStateChanges_allows (h : Nat) (changes : List ReadStateChange)
    (hc : w.Within (.syncImportReadStateChanges h changes)) :
    w.Allows (w.ropSyncImportReadStateChanges h changes).2.store := by
  apply onUpload_allows
  intro c hu
  have he : w.has c.folderID frightsEditAny=true := hc c hu
  have hedit := importReadStateChanges_edits w.store c.folderID changes
  have hg : w.Allows (w.store.importReadStateChanges c.folderID changes).2 := by
    refine (mailChange_granted hedit ?_).respects
    intro r _ ht o ho
    exact edited_granted ho (ht ▸ he)
  unfold UploadCollector.importReadStateChanges
  split_ifs
  · exact w.allows_self
  · split
    all_goals
      rename_i he
      rw [he] at hg
      exact hg

theorem Replaceable.granted {w : World} {mid : Nat} (h : w.Replaceable mid fid) {r row : MessageRow}
    (hr : r∈w.store.objdb.messages) (hid : r.messageId=mid) (hp : row.parentFid=fid)
    (hl : row.isDeleted=false) :
    MessageGranted (fun fid need => w.has fid need=true) r (some row) := by
  rcases h r hr hid with ⟨hd,hc⟩ | ⟨he,hf,hd⟩
  · exact .inr (.inl ⟨hd,.inr (hp ▸ hc)⟩)
  · exact .inr (.inr ⟨he,hp.trans hf.symm,hl.trans hd.symm⟩)

theorem ropSyncImportMessageMove_allows (h : Nat) (srcFolderKey srcMsgKey dstMsgKey : Bytes)
    (hc : w.Within (.syncImportMessageMove h srcFolderKey srcMsgKey dstMsgKey)) :
    w.Allows (w.ropSyncImportMessageMove h srcFolderKey srcMsgKey dstMsgKey).2.store := by
  apply onUpload_allows
  intro c hu
  change w.Allows (c.importMessageMove w.store srcFolderKey srcMsgKey dstMsgKey).2
  unfold UploadCollector.importMessageMove
  split_ifs
  · exact w.allows_self
  · split
    · exact w.allows_self
    · rename_i srcFID srcMID dstMID hparse
      obtain ⟨hsrc,hdst⟩ := hc c hu (srcFID,srcMID,dstMID) (by rw [hparse]; rfl)
      unfold Store.moveMessageImport
      split
      · exact w.allows_self
      · rename_i obj hok
        obtain ⟨⟨x,hx,hxid,hxp,-⟩,⟨row,hp,hl,hget⟩,hfolders⟩ := moveMessageImport_rows hok
        refine ⟨?_,sameFolders_granted hfolders⟩
        intro r hr
        rw [hget]
        split_ifs with hd hs
        · exact hdst.granted hr hd hp hl
        · -- the message that moved, under its old id
          have hne : srcMID≠dstMID := fun he => hd (hs.trans he)
          have hrx := Table.eq_of_key hr hx (hs.trans hxid.symm)
          have hdel := hsrc hne
          rw [← hxp,← hrx] at hdel
          exact hdel
        · rw [Table.get_key hr]
          exact .inl rfl

theorem deleteObject_get (s : Store) (mid k : Nat) :
    (s.deleteObject mid).2.objdb.messages.get k=
      if k=mid then none else s.objdb.messages.get k := by
  unfold Store.deleteObject
  split
  · rename_i hn
    split_ifs with hk
    · rw [hk]
      exact hn
    · rfl
  · exact Table.get_deleteKey _ _ _

theorem saveUploadedMessage_allows (um : UploadMessage) (msg : MessageHead) (infected : Bool)
    (hc : um.isNew=false → if infected then ∀ r∈w.store.objdb.messages,r.messageId=um.mid →
      w.has r.parentFid frightsDeleteAny=true else w.Replaceable um.mid um.folderID) :
    w.Allows (w.saveUploadedMessage um msg infected).2.store := by
  unfold saveUploadedMessage Store.commitUpload
  cases hok : w.store.objdb.commitUpload {um with read:=msg.read,size:=msg.size} with
  | error e => exact w.allows_self
  | ok obj =>
    obtain ⟨hnew,⟨row,hp,hl,hget⟩,hfolders⟩ := commitUpload_rows hok
    have hold : ∀ r∈w.store.objdb.messages,r.messageId=um.mid → um.isNew=false := by
      intro r hr hid
      rw [← Bool.not_eq_true]
      exact fun hn => Table.get_eq_none.mp (hnew hn) r hr hid
    cases infected with
    | true =>
      change w.Allows (Store.deleteObject ⟨obj,w.store.idxdb⟩ um.mid).2
      refine ⟨?_,sameFolders_granted ?_⟩
      · intro r hr
        rw [deleteObject_get]
        split_ifs with hid
        · exact hc (hold r hr hid) r hr hid
        · rw [hget,if_neg hid,Table.get_key hr]
          exact .inl rfl
      · have hf := (deleteObject_gone ⟨obj,w.store.idxdb⟩ um.mid).folders
        rw [hf]
        exact hfolders
    | false =>
      change w.Allows ⟨obj,w.store.idxdb⟩
      refine ⟨?_,sameFolders_granted hfolders⟩
      intro r hr
      rw [hget]
      split_ifs with hid
      · have hrep : w.Replaceable um.mid um.folderID := hc (hold r hr hid)
        exact hrep.granted hr hid hp hl
      · rw [Table.get_key hr]
        exact .inl rfl

theorem ropSaveChangesMessage_allows (h : Nat) (msg : MessageHead) (infected : Bool)
    (hc : w.Within (.saveChangesMessage h msg infected)) :
    w.Allows (w.ropSaveChangesMessage h msg infected).2.store := by
  unfold ropSaveChangesMessage
  split
  · rename_i um hum
    exact w.saveUploadedMessage_allows um msg infected (hc um hum)
  · exact unlessDenied_allows fun _ => w.allows_self
  · exact w.allows_self

theorem step_allows (rop : Request) (hc : w.Within rop) : w.Allows (w.step rop).store := by
  cases rop with
  | openFolder h fid =>
    simp only [step,dispatch,ropOpenFolder]
    split
    · exact w.allows_self
    · split_ifs
      · exact unlessDenied_allows fun _ => w.allows_self
      · exact w.allows_self
  | openMessage h mid =>
    simp only [step,dispatch,ropOpenMessage]
    split
    · exact w.allows_self
    · split
      · exact w.allows_self
      · exact unlessDenied_allows fun _ => w.allows_self
  | setReadFlags h flags ids receipt => exact w.ropSetReadFlags_allows h flags ids receipt hc
  | deleteMessages h ids => exact w.ropDeleteMessages_allows h ids hc
  | hardDeleteMessages h ids => exact w.ropHardDeleteMessages_allows h ids hc
  | moveCopyMessages h dh ids wantCopy wire =>
    exact w.ropMoveCopyMessages_allows h dh ids wantCopy wire hc
  | emptyFolder h => exact w.ropEmptyFolder_allows h hc
  | hardDeleteMessagesAndSubfolders h => exact w.ropHardDeleteMessagesAndSubfolders_allows h hc
  | deleteFolder h fid => exact w.ropDeleteFolder_allows h fid hc
  | moveFolder h dh fid newName ntNow => exact w.ropMoveFolder_allows h dh fid newName ntNow hc
  | copyFolder h dh fid newName recursive wire ntNow levels =>
    exact w.ropCopyFolder_allows h dh fid newName recursive wire ntNow levels
  | syncOpenCollector h isContent =>
    exact onFolder_allows fun _ _ => unlessDenied_allows fun _ => w.allows_self
  | syncImportHierarchyChange h hichyvals propvals ntNow =>
    exact w.ropSyncImportHierarchyChange_allows h hichyvals propvals ntNow hc
  | syncImportDeletes h propvals => exact w.ropSyncImportDeletes_allows h propvals hc
  | syncImportReadStateChanges h changes =>
    exact w.ropSyncImportReadStateChanges_allows h changes hc
  | syncImportMessageMove h srcFolderKey srcMsgKey dstMsgKey =>
    exact w.ropSyncImportMessageMove_allows h srcFolderKey srcMsgKey dstMsgKey hc
  | syncImportMessageChange h importFlags header =>
    refine onUpload_allows fun c _ => ?_
    split <;> exact w.allows_self
  | saveChangesMessage h msg infected => exact w.ropSaveChangesMessage_allows h msg infected hc

theorem step_caller (rop : Request) :
    (w.step rop).session.delegateCaller=w.session.delegateCaller ∧
      (w.step rop).session.isStoreOwner=w.session.isStoreOwner := by
  all_goals
    simp only [step,dispatch,ropOpenFolder,ropOpenMessage,ropSetReadFlags,ropDeleteMessages,
      ropHardDeleteMessages,ropMoveCopyMessages,ropEmptyFolder,ropHardDeleteMessagesAndSubfolders,
      ropDeleteFolder,ropMoveFolder,ropCopyFolder,ropSyncOpenCollector,
      ropSyncImportHierarchyChange,ropSyncImportDeletes,ropSyncImportReadStateChanges,
      ropSyncImportMessageMove,ropSyncImportMessageChange,ropSaveChangesMessage,
      saveUploadedMessage,onFolder,onUpload,unlessDenied,afterQuery]
    repeat' split
  all_goals exact ⟨rfl,rfl⟩

theorem runSteps_caller (store : Store) (caller : GoString) (isStoreOwner : Bool)
    (rops : List Request) :
    (runSteps step (delegateLogon store caller isStoreOwner) rops).session.delegateCaller=
        some caller ∧
      (runSteps step (delegateLogon store caller isStoreOwner) rops).session.isStoreOwner=
        isStoreOwner := by
  refine runSteps_invariant (I := fun w : World => w.session.delegateCaller=some caller ∧
    w.session.isStoreOwner=isStoreOwner) ?_ ⟨rfl,rfl⟩ rops
  intro w rop h
  have hs := w.step_caller rop
  exact ⟨hs.1.trans h.1,hs.2.trans h.2⟩

end World

/-- While requests stay within what is checked, all they change was theirs to change. -/
theorem delegate_changes_granted (store : Store) (caller : GoString) (isStoreOwner : Bool)
    (before : List Request) (rop : Request)
    (h : Meets World.step World.Within (.delegateLogon store caller isStoreOwner)
      (before++[rop])) :
    Respects (fun fid need =>
        (runSteps World.step (.delegateLogon store caller isStoreOwner)
          before).store.objdb.resolvePermission isStoreOwner fid caller &&& need=need)
      (runSteps World.step (.delegateLogon store caller isStoreOwner) before).store.objdb
      (runSteps World.step (.delegateLogon store caller isStoreOwner)
        (before++[rop])).store.objdb := by
  obtain ⟨-,hc,-⟩ := meets_append.mp h
  have hstep := World.step_allows _ rop hc
  have hcaller := World.runSteps_caller store caller isStoreOwner before
  rw [runSteps_append]
  generalize runSteps World.step (.delegateLogon store caller isStoreOwner) before=w
    at hstep hcaller ⊢
  have hhas : (fun fid need => w.has fid need=true)=fun fid need =>
      w.store.objdb.resolvePermission isStoreOwner fid caller &&& need=need := by
    simp [World.has,Session.authorize,hcaller.1,hcaller.2]
  rw [← hhas]
  exact hstep

def sharedStore : Store where
  objdb := {ObjDB.ofFolders ⟨[⟨9,none,1,false,0,0,[]⟩,⟨0x101,some 9,2,false,0x20001,0x2FFFF,[]⟩,
      ⟨0x102,some 9,3,false,0x30001,0x3FFFF,[]⟩],by decide⟩ with
    lastChangeNumber:=5
    messages:=⟨[⟨0x20000,0x101,false,false,4,false,none,1⟩,
      ⟨0x30000,0x102,false,false,5,false,none,1⟩],by decide⟩
    permissions:=[⟨0x101,[0x62,0x6F,0x62],frightsVisible|||frightsDeleteAny⟩]}
  idxdb := .empty

theorem delegate_changes_granted_delete :
    Respects (fun fid need =>
        (runSteps World.step (.delegateLogon sharedStore [0x62,0x6F,0x62] false)
          [.openFolder 1 0x101]).store.objdb.resolvePermission false fid [0x62,0x6F,0x62] &&&
            need=need)
      (runSteps World.step (.delegateLogon sharedStore [0x62,0x6F,0x62] false)
        [.openFolder 1 0x101]).store.objdb
      (runSteps World.step (.delegateLogon sharedStore [0x62,0x6F,0x62] false)
        ([.openFolder 1 0x101]++[.deleteMessages 2 [0x20000]])).store.objdb :=
  delegate_changes_granted sharedStore [0x62,0x6F,0x62] false [.openFolder 1 0x101]
    (.deleteMessages 2 [0x20000]) ⟨trivial,by unfold World.Within; decide,trivial⟩

/-- Through one folder's handle the message in the other is deleted. -/
theorem delegate_deletes_elsewhere :
    sharedStore.objdb.resolvePermission false 0x102 [0x62,0x6F,0x62]=0 ∧
      sharedStore.objdb.messages.get 0x30000=some ⟨0x30000,0x102,false,false,5,false,none,1⟩ ∧
      (runSteps World.step (.delegateLogon sharedStore [0x62,0x6F,0x62] false)
        [.openFolder 1 0x101,.deleteMessages 2 [0x30000]]).store.objdb.messages.get 0x30000=
          some ⟨0x30000,0x102,true,false,7,false,none,1⟩ := by
  decide

end HermEX.Rop
