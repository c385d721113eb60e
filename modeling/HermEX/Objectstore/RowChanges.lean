import HermEX.Framework.Changes
import HermEX.Objectstore.Collector
import HermEX.Objectstore.FolderTree
import HermEX.Objectstore.ModSeq

namespace HermEX.Objectstore

open Framework Mapi

def SoftDeleted (r : MessageRow) (o : Option MessageRow) : Prop :=
  ∃ r',o=some r' ∧ r'.parentFid=r.parentFid ∧ r'.isDeleted=true

def Edited (r : MessageRow) (o : Option MessageRow) : Prop :=
  ∃ r',o=some r' ∧ r'.parentFid=r.parentFid ∧ r'.isDeleted=r.isDeleted

def Dumped (_ : MessageRow) (o : Option MessageRow) : Prop := ∃ r',o=some r' ∧ r'.isDeleted=true

def Gone (_ : MessageRow) (o : Option MessageRow) : Prop := o=none

variable {r : MessageRow} {db' : ObjDB} (db : ObjDB) (mid : Nat) (s : Store) (fid : Nat)
  (wire : Nat → Except StoreErr MessageHead) {now : UInt64} {f : MessageRow → MessageRow}
  {o : Option MessageRow}

theorem SoftDeleted.trans {r' : MessageRow} (h : SoftDeleted r (some r')) (k : SoftDeleted r' o) :
    SoftDeleted r o := by
  obtain ⟨x,hx,hp,-⟩ := h
  cases hx
  obtain ⟨y,hy,hp',hd⟩ := k
  exact ⟨y,hy,hp'.trans hp,hd⟩

theorem Edited.trans {r' : MessageRow} (h : Edited r (some r')) (k : Edited r' o) : Edited r o := by
  obtain ⟨x,hx,hp,hd⟩ := h
  cases hx
  obtain ⟨y,hy,hp',hd'⟩ := k
  exact ⟨y,hy,hp'.trans hp,hd'.trans hd⟩

/-- Only targets change, as `Q` allows, and no folder does. -/
structure MailChange (target : MessageRow → Prop) (Q : MessageRow → Option MessageRow → Prop)
    (db db' : ObjDB) : Prop where
  kind : db'.kind=db.kind
  folders : db'.folders=db.folders
  messages : Changes (Touched target Q) (fun _ => False) db.messages db'.messages

section MailChange

variable {target : MessageRow → Prop} {Q : MessageRow → Option MessageRow → Prop} {a b c : ObjDB}

theorem softDeleted_composes : Composes MessageRow.messageId (Touched target SoftDeleted)
    (fun _ => False) :=
  Touched.composes fun _ => SoftDeleted.trans

theorem edited_composes : Composes MessageRow.messageId (Touched target Edited)
    (fun _ => False) :=
  Touched.composes fun _ => Edited.trans

theorem dumped_composes : Composes MessageRow.messageId (Touched target Dumped)
    (fun _ => False) :=
  Touched.composes fun _ _ h => h

theorem gone_composes : Composes MessageRow.messageId (Touched target Gone) (fun _ => False) :=
  Touched.composes fun _ _ h => h

theorem MailChange.refl (hc : Composes MessageRow.messageId (Touched target Q) (fun _ => False))
    (db : ObjDB) : MailChange target Q db db :=
  ⟨rfl,rfl,.refl hc _⟩

theorem MailChange.trans (hc : Composes MessageRow.messageId (Touched target Q) (fun _ => False))
    (h : MailChange target Q a b) (k : MailChange target Q b c) : MailChange target Q a c :=
  ⟨k.kind.trans h.kind,k.folders.trans h.folders,h.messages.trans hc k.messages⟩

theorem MailChange.mono {target' : MessageRow → Prop}
    {Q' : MessageRow → Option MessageRow → Prop} (h : MailChange target Q a b)
    (ht : ∀ r∈a.messages,target r → target' r) (hQ : ∀ r o,Q r o → Q' r o) :
    MailChange target' Q' a b := by
  refine ⟨h.kind,h.folders,h.messages.mono ?_ fun _ hf => hf⟩
  intro r hr o hb
  rcases hb with hb | ⟨hb,hq⟩
  · exact .inl hb
  · exact .inr ⟨ht r hr hb,hQ r o hq⟩

theorem MailChange.update (hc : Composes MessageRow.messageId (Touched target Q) (fun _ => False))
    {mid : Nat} (hf : ∀ r,(f r).messageId=r.messageId) (hkind : b.kind=a.kind)
    (hfolders : b.folders=a.folders)
    (hmessages : b.messages=a.messages.updateWhere (fun r => r.messageId=mid) f hf)
    (ht : ∀ r∈a.messages,r.messageId=mid → target r ∧ Q r (some (f r))) :
    MailChange target Q a b := by
  refine ⟨hkind,hfolders,?_⟩
  rw [hmessages]
  apply Changes.updateWhere hc hf
  intro r hr hm
  exact .inr (ht r hr (by simpa using hm))

end MailChange

theorem modifyMessageProperties_edits {db : ObjDB} {mid : Nat}
    (h : db.modifyMessageProperties mid=.ok db') :
    MailChange (fun r => r.messageId=mid) Edited db db' := by
  unfold ObjDB.modifyMessageProperties at h
  split at h
  · cases h
  · obtain rfl := Except.ok.inj h
    exact .update edited_composes (by exact fun _ => rfl) rfl rfl rfl fun r _ hm => ⟨hm,_,rfl,rfl,rfl⟩

theorem setObjReadState_edits (want : Bool) :
    MailChange (fun r => r.messageId=mid) Edited db (db.setObjReadState mid want).2 := by
  unfold ObjDB.setObjReadState
  split
  · exact .refl edited_composes db
  · split_ifs
    · exact .refl edited_composes db
    · exact .update edited_composes (by exact fun _ => rfl) rfl rfl rfl fun r _ hm => ⟨hm,_,rfl,rfl,rfl⟩

theorem setMessageReadState_edits (mid : Nat) (read : Bool) :
    MailChange (fun r => r.messageId=mid) Edited s.objdb
      (s.setMessageReadState mid read).2.objdb := by
  have h := setObjReadState_edits s.objdb mid read
  unfold Store.setMessageReadState
  split
  · exact .refl edited_composes _
  · rename_i obj he
    rw [he] at h
    exact h

theorem updated_row {db : ObjDB} {mid : Nat} {hf : ∀ r,(f r).messageId=r.messageId}
    (hr : r∈(db.updateMessage mid f hf).messages) (hm : r.messageId=mid) :
    ∃ x∈db.messages,x.messageId=mid ∧ r=f x := by
  obtain ⟨x,hx,he⟩ := ObjDB.mem_updateMessage.mp hr
  have hxm : x.messageId=mid := by
    rw [← hm,he]
    split_ifs
    · exact (hf x).symm
    · rfl
  exact ⟨x,hx,hxm,by rw [he,if_pos hxm]⟩

theorem markDeleted_isDeleted (hr : r∈(db.markDeleted mid).messages) (hm : r.messageId=mid) :
    r.isDeleted=true := by
  obtain ⟨x,-,-,rfl⟩ := updated_row hr hm
  rfl

theorem softDeleteRow_deletes :
    MailChange (fun r => r.messageId=mid) SoftDeleted db (db.softDeleteRow mid).2 ∧
      ∀ r∈(db.softDeleteRow mid).2.messages,r.messageId=mid → r.isDeleted=true := by
  have hmark : MailChange (fun r => r.messageId=mid) SoftDeleted db (db.markDeleted mid) :=
    .update softDeleted_composes (by exact fun _ => rfl) rfl rfl rfl fun r _ hm => ⟨hm,_,rfl,rfl,rfl⟩
  unfold ObjDB.softDeleteRow
  simp only
  split
  · exact ⟨hmark,fun r => markDeleted_isDeleted db mid⟩
  · rename_i db' h
    unfold ObjDB.modifyMessageProperties at h
    split at h
    · cases h
    obtain rfl := Except.ok.inj h
    constructor
    · refine hmark.trans softDeleted_composes ?_
      refine .update softDeleted_composes (by exact fun _ => rfl) rfl rfl rfl ?_
      intro r hr hm
      have hd := markDeleted_isDeleted db mid hr hm
      exact ⟨hm,_,rfl,rfl,hd⟩
    · intro r hr hm
      obtain ⟨x,hx,hxm,rfl⟩ := updated_row hr hm
      have hd := markDeleted_isDeleted db mid hx hxm
      exact hd

theorem softDeleteObject_deletes (mid : Nat) :
    MailChange (fun r => r.messageId=mid) SoftDeleted s.objdb (s.softDeleteObject mid).2.objdb ∧
      ∀ r∈(s.softDeleteObject mid).2.objdb.messages,r.messageId=mid → r.isDeleted=true := by
  have h := softDeleteRow_deletes s.objdb mid
  unfold Store.softDeleteObject
  split
  · rename_i hn
    exact ⟨.refl softDeleted_composes _,fun r hr hm => absurd hm (Table.get_eq_none.mp hn r hr)⟩
  · rename_i r hg
    obtain ⟨hr,hm⟩ := Table.get_eq_some.mp hg
    split_ifs with hd
    · refine ⟨.refl softDeleted_composes _,fun x hx hxm => ?_⟩
      rw [Table.eq_of_key hx hr (hxm.trans hm.symm)]
      exact hd
    · unfold Store.softDeleteRow
      split
      · rename_i e obj he
        rw [he] at h
        exact h
      · rename_i obj he
        rw [he] at h
        split <;> exact h

theorem forEach_mail {Q : MessageRow → Option MessageRow → Prop}
    {f : Nat → Store → Except StoreErr Unit×Store} (ids : List Nat)
    (hc : Composes MessageRow.messageId (Touched (fun r => r.messageId∈ids) Q) (fun _ => False))
    (hf : ∀ mid s,MailChange (fun r => r.messageId=mid) Q s.objdb (f mid s).2.objdb) (s : Store) :
    MailChange (fun r => r.messageId∈ids) Q s.objdb (Store.forEach f ids s).2.objdb := by
  refine forEach_keeps (P := fun s' : Store =>
    MailChange (fun r => r.messageId∈ids) Q s.objdb s'.objdb) ?_ (.refl hc _)
  intro mid hmid s₁ hs₁
  have hone := (hf mid s₁).mono (fun r _ (h : r.messageId=mid) => h ▸ hmid) fun _ _ h => h
  exact hs₁.trans hc hone

theorem dumpMessage_dumps :
    MailChange (fun r => r.messageId=mid) Dumped s.objdb (Store.dumpMessage mid s).2.objdb := by
  obtain ⟨hdel,hrow⟩ := softDeleteObject_deletes s mid
  have hdump : MailChange (fun r => r.messageId=mid) Dumped s.objdb
      (s.softDeleteObject mid).2.objdb :=
    hdel.mono (fun _ _ h => h) fun _ _ ⟨r',he,_,hd⟩ => ⟨r',he,hd⟩
  unfold Store.dumpMessage
  simp only
  split_ifs
  · exact hdump
  · refine hdump.trans dumped_composes ?_
    refine .update dumped_composes (by exact fun _ => rfl) rfl rfl rfl ?_
    intro r hr hm
    have hd := hrow r hr hm
    exact ⟨hm,_,rfl,hd⟩
  · exact hdump

theorem dumpsterFolder_dumps (s : Store) :
    MailChange (fun r => r.parentFid=fid) Dumped s.objdb (Store.dumpsterFolder fid s).2.objdb := by
  unfold Store.dumpsterFolder
  split_ifs
  · exact .refl dumped_composes _
  have hids := forEach_mail (s.allFolderMessageIDs fid) dumped_composes dumpMessage_dumps s
  refine hids.mono ?_ fun _ _ h => h
  intro r hr hmem
  obtain ⟨x,hx,hxm⟩ := List.mem_map.mp hmem
  obtain ⟨hx,hxf⟩ := List.mem_filter.mp hx
  rw [Table.eq_of_key hr hx hxm.symm]
  simpa using hxf

theorem dumpsterSubtree_dumps (subtree : List Nat) :
    MailChange (fun r => r.parentFid∈subtree) Dumped s.objdb
      (s.dumpsterSubtree subtree).2.objdb := by
  unfold Store.dumpsterSubtree
  split
  · exact .refl dumped_composes _
  refine forEach_keeps (P := fun s' : Store => MailChange (fun r => r.parentFid∈subtree) Dumped
    s.objdb s'.objdb) ?_ (.refl dumped_composes _)
  intro fid hfid s₁ hs₁
  have hone := (dumpsterFolder_dumps fid s₁).mono (fun r _ (h : r.parentFid=fid) => h ▸ hfid)
    fun _ _ h => h
  exact hs₁.trans dumped_composes hone

theorem deleteObject_gone (mid : Nat) :
    MailChange (fun r => r.messageId=mid) Gone s.objdb (s.deleteObject mid).2.objdb := by
  unfold Store.deleteObject
  split
  · exact .refl gone_composes _
  · refine ⟨rfl,rfl,Changes.deleteWhere gone_composes ?_⟩
    intro r hr hm
    exact .inr ⟨by simpa using hm,rfl⟩

theorem importDeletes_gone (keys : List Bytes) (s : Store) :
    MailChange (fun r => r.parentFid=fid) Gone s.objdb (Store.importDeletes fid keys s).2.objdb := by
  induction keys generalizing s with
  | nil => exact .refl gone_composes _
  | cons sk sks ih =>
    rw [Store.importDeletes]
    split
    · exact .refl gone_composes _
    · exact ih s
    · rename_i mid hk
      split
      · exact ih s
      · rename_i r hg
        obtain ⟨hr,hm⟩ := Table.get_eq_some.mp hg
        split_ifs with hp
        · exact ih s
        · have hone : MailChange (fun r => r.parentFid=fid) Gone s.objdb
              (s.deleteObject mid).2.objdb := by
            refine (deleteObject_gone s mid).mono ?_ fun _ _ h => h
            intro x hx hxm
            rw [Table.eq_of_key hx hr (hxm.trans hm.symm)]
            exact not_not.mp hp
          exact hone.trans gone_composes (ih _)

theorem applyReadStateChange_edits (mid : Nat) (markRead : Bool) :
    MailChange (fun r => r.parentFid=fid) Edited db
      (db.applyReadStateChange fid mid markRead).2 := by
  unfold ObjDB.applyReadStateChange
  split
  · exact .refl edited_composes db
  rename_i r hg
  obtain ⟨hr,hm⟩ := Table.get_eq_some.mp hg
  split_ifs with hp hsame
  · exact .refl edited_composes db
  · exact .refl edited_composes db
  refine .update edited_composes (by exact fun _ => rfl) rfl rfl rfl ?_
  intro x hx hxm
  have hpx : x.parentFid=fid := by
    rw [Table.eq_of_key hx hr (hxm.trans hm.symm)]
    by_contra hne
    exact hp (.inl hne)
  exact ⟨hpx,_,rfl,rfl,rfl⟩

theorem applyReadStateChanges_edits {fid : Nat} {changes : List ReadStateChange} {db : ObjDB}
    {cns : List Nat} {mirror : List (Nat×Bool)}
    (h : Store.applyReadStateChanges fid changes db=.ok (cns,mirror,db')) :
    MailChange (fun r => r.parentFid=fid) Edited db db' := by
  induction changes generalizing db cns mirror with
  | nil =>
    cases h
    exact .refl edited_composes _
  | cons c cs ih =>
    rw [Store.applyReadStateChanges] at h
    split at h
    · cases h
    · exact ih h
    · rename_i mid hk
      have hone := applyReadStateChange_edits db fid mid c.markRead
      split at h
      · rename_i db₁ he
        rw [he] at hone
        exact hone.trans edited_composes (ih h)
      · rename_i rcn db₁ he
        rw [he] at hone
        obtain ⟨⟨cns',mirror',db₂⟩,hrest,heq⟩ := map_eq_ok h
        cases heq
        exact hone.trans edited_composes (ih hrest)

theorem importReadStateChanges_edits (changes : List ReadStateChange) :
    MailChange (fun r => r.parentFid=fid) Edited s.objdb
      (s.importReadStateChanges fid changes).2.objdb := by
  unfold Store.importReadStateChanges
  split
  · exact .refl edited_composes _
  · rename_i cns mirror obj h
    exact applyReadStateChanges_edits h

def FolderRow.Same (f f' : FolderRow) : Prop := f'={f with curEid:=f'.curEid,maxEid:=f'.maxEid}

theorem FolderRow.Same.trans {a b c : FolderRow} (h : a.Same b) (k : b.Same c) : a.Same c := by
  unfold FolderRow.Same at h k ⊢
  rw [k,h]

theorem FolderRow.Same.parent {f f' : FolderRow} (h : f.Same f') : f'.parentId=f.parentId := by
  rw [h]

theorem sameFolder_composes : Composes FolderRow.folderId (Keeps FolderRow.Same) (fun _ => True) :=
  Keeps.composes (fun _ => rfl) FolderRow.Same.trans

theorem sameMessage_composes : Composes MessageRow.messageId (Keeps Eq) (fun _ => True) :=
  Keeps.composes (fun _ => rfl) Eq.trans

/-- All that was there still is, folders up to their blocks. -/
structure Adds (db db' : ObjDB) : Prop where
  messages : Changes (Keeps Eq) (fun _ => True) db.messages db'.messages
  folders : Changes (Keeps FolderRow.Same) (fun _ => True) db.folders db'.folders

theorem Adds.refl : Adds db db := ⟨.refl sameMessage_composes _,.refl sameFolder_composes _⟩

theorem Adds.trans {a b c : ObjDB} (h : Adds a b) (k : Adds b c) : Adds a c :=
  ⟨h.messages.trans sameMessage_composes k.messages,h.folders.trans sameFolder_composes k.folders⟩

theorem updateFolder_same (f : FolderRow → FolderRow) (hf : ∀ r,(f r).folderId=r.folderId)
    (hs : ∀ r : FolderRow,r.Same (f r)) :
    Changes (Keeps FolderRow.Same) (fun _ => True) db.folders (db.updateFolder fid f hf).folders :=
  Changes.updateWhere sameFolder_composes hf fun r _ _ => ⟨_,rfl,hs r⟩

theorem allocateEIDFromFolder_same {db : ObjDB} {fid eid : Nat}
    (h : db.allocateEIDFromFolder fid=.ok (eid,db')) :
    Changes (Keeps FolderRow.Same) (fun _ => True) db.folders db'.folders := by
  unfold ObjDB.allocateEIDFromFolder at h
  split at h
  · cases h
  · split_ifs at h <;> cases h <;> exact updateFolder_same _ _ _ _ fun _ => rfl

theorem advanceFolderEID_same (mid : Nat) :
    Changes (Keeps FolderRow.Same) (fun _ => True) db.folders (db.advanceFolderEID fid mid).folders := by
  apply updateFolder_same
  intro r
  split_ifs <;> rfl

/-- At most one new row, and one index row for it. -/
structure Files (fid : Nat) (s s' : Store) : Prop where
  messages : s'.objdb.messages=s.objdb.messages ∨ ∃ row : MessageRow,row.parentFid=fid ∧
    (∀ r∈s.objdb.messages,r.messageId≠row.messageId) ∧
    ∀ r,r∈s'.objdb.messages ↔ r∈s.objdb.messages ∨ r=row
  folders : Changes (Keeps FolderRow.Same) (fun _ => True) s.objdb.folders s'.objdb.folders
  index : ∀ m∈s'.idxdb.messages,m∈s.idxdb.messages ∨ ∀ r∈s.objdb.messages,r.messageId≠m.messageId

theorem Files.refl (s : Store) : Files fid s s :=
  ⟨.inl rfl,.refl sameFolder_composes _,fun _ hm => .inl hm⟩

theorem Files.adds {fid : Nat} {s s' : Store} (h : Files fid s s') : Adds s.objdb s'.objdb := by
  refine ⟨?_,h.folders⟩
  rcases h.messages with he | ⟨row,-,hn,hi⟩
  · rw [he]
    exact .refl sameMessage_composes _
  · exact .insert sameMessage_composes hn hi trivial

theorem indexMessage_rows {idx idx' : IndexDB} {obj : ObjDB} {fid mid uid : Nat} {flags : Flags}
    (h : idx.indexMessage obj fid mid flags=.ok (uid,idx')) {m : IndexMessageRow}
    (hm : m∈idx'.messages) : m∈idx.messages ∨ m.messageId=mid := by
  obtain ⟨i₁,h₁,h⟩ := bind_eq_ok h
  obtain ⟨⟨u,i₂⟩,h₂,h⟩ := bind_eq_ok h
  obtain ⟨⟨ms,i₃⟩,h₃,h⟩ := bind_eq_ok h
  obtain ⟨hm₁,-⟩ := IndexDB.ensureIndexFolder_ok h₁
  obtain ⟨-,hm₂,-⟩ := IndexDB.allocateUID_ok h₂
  obtain ⟨-,hm₃,-⟩ := IndexDB.nextModSeq_ok h₃
  simp only at h
  split at h
  · cases h
  rename_i t hi
  cases h
  rcases (Table.insert_eq_some hi).2 m |>.mp hm with hm | rfl
  · rw [hm₃,hm₂,hm₁] at hm
    exact .inl hm
  · exact .inr rfl

theorem createMessage_fresh {db : ObjDB} {fid eid : Nat} {msg : MessageHead}
    (h : db.createMessage fid msg=.ok (eid,db')) :
    Changes (Keeps FolderRow.Same) (fun _ => True) db.folders db'.folders ∧
      ∃ row : MessageRow,row.messageId=eid ∧ row.parentFid=fid ∧
        (∀ r∈db.messages,r.messageId≠eid) ∧ ∀ r,r∈db'.messages ↔ r∈db.messages ∨ r=row := by
  obtain ⟨db₁,t,he,rfl,hn,ht⟩ := createMessage_ok h
  have hm := (allocateEIDFromFolder_messages he).1
  have hf := allocateEIDFromFolder_same he
  rw [hm] at hn ht
  exact ⟨hf,_,rfl,rfl,hn,ht⟩

theorem appendMessage_files (msg : MessageHead) (flags : Flags) :
    Files fid s (s.appendMessage fid msg flags).2 := by
  unfold Store.appendMessage
  simp only
  split
  · exact .refl fid s
  rename_i eid obj h
  obtain ⟨hf,row,hid,hp,hn,hi⟩ := createMessage_fresh h
  have hmsgs : ∃ row : MessageRow,row.parentFid=fid ∧
      (∀ r∈s.objdb.messages,r.messageId≠row.messageId) ∧
      ∀ r,r∈obj.messages ↔ r∈s.objdb.messages ∨ r=row := ⟨row,hp,hid ▸ hn,hi⟩
  split
  · exact ⟨.inr hmsgs,hf,fun _ hm => .inl hm⟩
  · rename_i uid idx hidx
    refine ⟨.inr hmsgs,hf,?_⟩
    intro m hm
    rcases indexMessage_rows hidx hm with hm | hm
    · exact .inl hm
    · exact .inr (hm ▸ hn)

theorem copyMessageTo_files (dst : Nat) (m : IndexMessageRow) (s : Store) :
    Files dst s (Store.copyMessageTo wire dst m s).2 := by
  unfold Store.copyMessageTo
  split
  · exact .refl dst s
  rename_i msg _
  have h := appendMessage_files s dst msg m.flags
  split
  all_goals
    rename_i he
    rw [he] at h
    exact h

theorem allocateEID_messages : db.allocateEID.2.messages=db.messages := by
  unfold ObjDB.allocateEID
  split_ifs <;> rfl

theorem createFolder_adds {db : ObjDB} {parent : Option Nat} {name : GoString} {fid : Nat}
    (h : db.createFolder parent name now=.ok (fid,db')) : Adds db db' := by
  have hm : db'.messages=db.messages := by
    obtain ⟨d,hi,hd⟩ := map_eq_ok h
    obtain ⟨-,rfl⟩ := Prod.mk.inj hd
    obtain ⟨-,-,t,rfl,-⟩ := insertFolder_ok hi
    exact allocateEID_messages db
  obtain ⟨-,db₁,row,hrows,-,hi,-⟩ := createFolder_ok h
  obtain ⟨-,hn,t,rfl,ht⟩ := insertFolder_ok hi
  constructor
  · rw [hm]
    exact .refl sameMessage_composes _
  · rw [hrows] at hn ht
    exact .insert sameFolder_composes hn ht trivial

theorem copyFolderInto_adds (now : UInt64) (recursive : Bool) (n src newParent : Nat)
    (name : GoString) (s : Store) :
    Adds s.objdb (Store.copyFolderInto wire now recursive n src newParent name s).2.objdb := by
  refine copyFolderInto_relates (R := fun a b : Store => Adds a.objdb b.objdb)
    (fun _ _ => True) (fun _ _ => True) (fun _ => .refl _) Adds.trans ?_ ?_ (fun _ h => h)
    (fun h => h) recursive n src newParent name s trivial
  · intro s p newID name obj _ h
    exact ⟨createFolder_adds h,trivial⟩
  · intro dst m s
    exact (copyMessageTo_files wire dst m s).adds

theorem copyFolder_adds (now : UInt64) (levels : Nat) (s : Store) (src newParent : Nat)
    (name : GoString) (recursive : Bool) :
    Adds s.objdb (s.copyFolder wire now levels src newParent name recursive).2.objdb := by
  unfold Store.copyFolder
  split_ifs
  · split
    · exact .refl _
    · split_ifs
      · exact .refl _
      · exact copyFolderInto_adds wire now recursive levels src newParent name s
  · exact .refl _

def Rehung (p : Nat) (f : FolderRow) (o : Option FolderRow) : Prop :=
  ∃ f',o=some f' ∧ (f'.parentId=f.parentId ∨ f'.parentId=some p)

theorem rehung_composes {target : FolderRow → Prop} {p : Nat} :
    Composes FolderRow.folderId (Touched target (Rehung p)) (fun _ => False) := by
  apply Touched.composes
  intro f f' o _ ⟨x,hx,hp⟩ ⟨y,hy,hp'⟩
  cases hx
  refine ⟨y,hy,?_⟩
  rcases hp' with hp' | hp'
  · rw [hp']
    exact hp
  · exact .inr hp'

theorem updateFolder_rehangs (p : Nat) (f : FolderRow → FolderRow)
    (hf : ∀ r,(f r).folderId=r.folderId)
    (hp : ∀ r,(f r).parentId=r.parentId ∨ (f r).parentId=some p) :
    Changes (Touched (fun r => r.folderId=fid) (Rehung p)) (fun _ => False) db.folders
      (db.updateFolder fid f hf).folders := by
  apply Changes.updateWhere rehung_composes hf
  intro r _ hr
  exact .inr ⟨by simpa using hr,_,rfl,hp r⟩

theorem renameCommit_rehangs (p : Nat) (name : GoString) (now : UInt64) :
    (db.renameCommit fid p name now).2.messages=db.messages ∧
      Changes (Touched (fun r => r.folderId=fid) (Rehung p)) (fun _ => False) db.folders
        (db.renameCommit fid p name now).2.folders := by
  unfold ObjDB.renameCommit
  split
  · exact ⟨rfl,.refl rehung_composes _⟩
  rename_i db₁ h₁
  obtain ⟨-,-,rfl⟩ := reparentFolder_ok h₁
  have hmove := updateFolder_rehangs db fid p (fun r => {r with parentId:=some p})
    (fun _ => rfl) fun _ => .inr rfl
  split
  · exact ⟨rfl,hmove⟩
  · rename_i db₂ h₂
    obtain ⟨r,ps,-,-,rfl⟩ := setFolderProperties_ok h₂
    refine ⟨rfl,hmove.trans rehung_composes ?_⟩
    exact updateFolder_rehangs _ fid p _ _ fun _ => .inl rfl

theorem renameFolder_rehangs {db : ObjDB} {fid : Nat} {newParent : Option Nat} {name : GoString}
    {res : Except StoreErr Unit} (h : db.renameFolder fid newParent name now=some (res,db')) :
    db'.messages=db.messages ∧
      Changes (Touched (fun r => r.folderId=fid) (Rehung (newParent.getD db.ipmSubtree)))
        (fun _ => False) db.folders db'.folders := by
  obtain ⟨t,ht,h⟩ := Option.map_eq_some_iff.mp h
  cases t with
  | error e =>
    obtain ⟨-,rfl⟩ := Prod.mk.inj h
    exact ⟨rfl,.refl rehung_composes _⟩
  | ok p =>
    have hp : p=newParent.getD db.ipmSubtree := by
      unfold ObjDB.renameTarget at ht
      split_ifs at ht
      · cases ht
      split at ht
      · cases ht
        rfl
      · obtain ⟨ids,-,ht⟩ := Option.map_eq_some_iff.mp ht
        split_ifs at ht
        cases ht
        rfl
    have hcommit := renameCommit_rehangs db fid p name now
    simp only at h
    rw [h] at hcommit
    rw [← hp]
    exact hcommit

theorem importHierarchyChange_rehangs {db : ObjDB} {rootFID fid : Nat}
    {hichyvals propvals : PropertyValues}
    (h : db.importHierarchyChange rootFID hichyvals propvals now=.ok (fid,db')) :
    ∃ imp,ObjDB.parseHierarchyImport rootFID hichyvals db.replica=.ok imp ∧
      db'.messages=db.messages ∧
      ∀ f∈db.folders,Touched (fun r => r.folderId=imp.fid) (Rehung imp.parent) f
        (db'.folders.get f.folderId) := by
  obtain ⟨imp,himp,-,⟨r,hr,hok⟩ | ⟨hn,hok⟩⟩ := importHierarchyChange_ok h
  · obtain ⟨-,bag,-,rfl⟩ := updateImportedFolder_ok hok
    refine ⟨imp,himp,rfl,?_⟩
    exact (updateFolder_rehangs db imp.fid imp.parent _ _ fun _ => .inr rfl).old
  · obtain ⟨bag,d,-,hi,rfl⟩ := insertImportedFolder_ok hok
    obtain ⟨-,-,t,rfl,ht⟩ := insertFolder_ok hi
    refine ⟨imp,himp,?_,?_⟩
    · unfold ObjDB.advanceStoreEID
      split_ifs <;> rfl
    · intro f hf
      left
      unfold ObjDB.advanceStoreEID
      split_ifs <;> exact Table.get_key ((ht f).mpr (.inl hf))

theorem moveMessageImport_rows {db : ObjDB} {src srcMID dst dstMID : Nat}
    (h : db.moveMessageImport src srcMID dst dstMID=.ok db') :
    (∃ r∈db.messages,r.messageId=srcMID ∧ r.parentFid=src ∧ r.isDeleted=false) ∧
      (∃ row : MessageRow,row.parentFid=dst ∧ row.isDeleted=false ∧
        ∀ k,db'.messages.get k=if k=dstMID then some row else if k=srcMID then none
          else db.messages.get k) ∧
      Changes (Keeps FolderRow.Same) (fun _ => True) db.folders db'.folders := by
  unfold ObjDB.moveMessageImport at h
  split at h
  · cases h
  rename_i r hg
  obtain ⟨hr,hm⟩ := Table.get_eq_some.mp hg
  split_ifs at h with hsrc
  obtain ⟨hp,hd⟩ := not_or.mp hsrc
  have hd : r.isDeleted=false := by simpa using hd
  simp only at h
  split at h
  · cases h
  obtain rfl := Except.ok.inj h
  refine ⟨⟨r,hr,hm,not_not.mp hp,hd⟩,⟨{r with
    messageId:=dstMID,parentFid:=dst,changeNumber:=db.allocateCN.1},rfl,hd,?_⟩,
    advanceFolderEID_same _ dst dstMID⟩
  intro k
  refine (Table.get_put _ _ k).trans ?_
  rw [Table.get_deleteKey,hm]
  rfl

theorem clearTarget_get (um : UploadMessage) (k : Nat) :
    (db.clearTarget um).messages.get k=
      if k=um.mid ∧ um.isNew=false then none else db.messages.get k := by
  unfold ObjDB.clearTarget
  by_cases hn : um.isNew=true
  · simp [hn,ObjDB.advanceFolderEID,ObjDB.updateFolder]
  · simp [hn,Table.get_deleteKey]

theorem clearTarget_same (um : UploadMessage) :
    Changes (Keeps FolderRow.Same) (fun _ => True) db.folders (db.clearTarget um).folders := by
  unfold ObjDB.clearTarget
  split_ifs
  · exact advanceFolderEID_same db um.folderID um.mid
  · exact .refl sameFolder_composes _

theorem commitUpload_rows {db : ObjDB} {um : UploadMessage} (h : db.commitUpload um=.ok db') :
    (um.isNew=true → db.messages.get um.mid=none) ∧
      (∃ row : MessageRow,row.parentFid=um.folderID ∧ row.isDeleted=false ∧
        ∀ k,db'.messages.get k=if k=um.mid then some row else db.messages.get k) ∧
      Changes (Keeps FolderRow.Same) (fun _ => True) db.folders db'.folders := by
  obtain ⟨-,hn,t,rfl,ht⟩ := insertMessageRow_ok h
  have hget := clearTarget_get db.allocateCN.2 um
  have hins := Table.get_of_mem_insert hn ht
  refine ⟨?_,⟨⟨um.mid,um.folderID,false,um.associated,db.allocateCN.1,um.read,none,um.size⟩,rfl,
    rfl,?_⟩,clearTarget_same db.allocateCN.2 um⟩
  · intro hnew
    have hnone : (db.allocateCN.2.clearTarget um).messages.get um.mid=none :=
      Table.get_eq_none.mpr hn
    rw [hget um.mid,hnew,if_neg (by simp)] at hnone
    exact hnone
  · intro k
    refine (hins k).trans ?_
    change (if k=um.mid then _ else (db.allocateCN.2.clearTarget um).messages.get k)=_
    by_cases hk : k=um.mid
    · rw [if_pos hk,if_pos hk]
      rfl
    · rw [if_neg hk,if_neg hk,hget k,if_neg fun hc => hk hc.1]
      rfl

end HermEX.Objectstore
