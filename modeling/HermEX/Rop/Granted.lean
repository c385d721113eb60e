import HermEX.Objectstore.RowChanges
import HermEX.Objectstore.Uids
import HermEX.Rop.Session

namespace HermEX.Rop

open Framework Mapi Objectstore

section Granted

variable (has : Nat → UInt32 → Prop)

def MessageGranted (r : MessageRow) : Option MessageRow → Prop
  | none => has r.parentFid frightsDeleteAny
  | some r' => r'=r ∨
      (has r.parentFid frightsDeleteAny ∧ (r'.isDeleted=true ∨ has r'.parentFid frightsCreate)) ∨
      (has r.parentFid frightsEditAny ∧ r'.parentFid=r.parentFid ∧ r'.isDeleted=r.isDeleted)

def FolderGranted (f : FolderRow) : Option FolderRow → Prop
  | none => has f.folderId frightsOwner
  | some f' => f.Same f' ∨ (has f.folderId frightsOwner ∧
      (f'.parentId=f.parentId ∨ ∀ p∈f'.parentId,has p frightsCreateSubfolder))

/-- Every message and folder became what the rights allow. -/
structure Respects (db db' : ObjDB) : Prop where
  messages : ∀ r∈db.messages,MessageGranted has r (db'.messages.get r.messageId)
  folders : ∀ f∈db.folders,FolderGranted has f (db'.folders.get f.folderId)

/-- For operations that make nothing new, which can follow each other. -/
structure Granted (db db' : ObjDB) : Prop where
  messages : Changes (MessageGranted has) (fun _ => False) db.messages db'.messages
  folders : Changes (FolderGranted has) (fun _ => False) db.folders db'.folders

variable {has}

variable {db db' pre : ObjDB} {r : MessageRow} {o : Option MessageRow} {s : Store} (ids : List Nat)
  {dst src : Nat} (wire : Nat → Except StoreErr MessageHead)
  {Q : MessageRow → Option MessageRow → Prop}

theorem Granted.respects (h : Granted has db db') : Respects has db db' :=
  ⟨h.messages.old,h.folders.old⟩

theorem messageGranted_composes :
    Composes MessageRow.messageId (MessageGranted has) (fun _ => False) where
  refl r := .inl rfl
  trans := by
    intro r r' o _ h h'
    rcases h with rfl | ⟨hd,hc⟩ | ⟨he,hp,hl⟩
    · exact h'
    · cases o with
      | none => exact hd
      | some x =>
        rcases h' with rfl | ⟨-,hc'⟩ | ⟨-,hp',hl'⟩
        · exact .inr (.inl ⟨hd,hc⟩)
        · exact .inr (.inl ⟨hd,hc'⟩)
        · rw [← hp',← hl'] at hc
          exact .inr (.inl ⟨hd,hc⟩)
    · cases o with
      | none =>
        have hd : has r'.parentFid frightsDeleteAny := h'
        rw [hp] at hd
        exact hd
      | some x =>
        rcases h' with rfl | ⟨hd',hc'⟩ | ⟨-,hp',hl'⟩
        · exact .inr (.inr ⟨he,hp,hl⟩)
        · exact .inr (.inl ⟨hp ▸ hd',hc'⟩)
        · exact .inr (.inr ⟨he,hp'.trans hp,hl'.trans hl⟩)
  again _ _ h := h.elim
  later _ h _ := h.elim

theorem folderGranted_composes :
    Composes FolderRow.folderId (FolderGranted has) (fun _ => False) where
  refl f := .inl rfl
  trans := by
    intro f f' o hk h h'
    rcases h with hs | ⟨ho,hp⟩
    · have hpar := FolderRow.Same.parent hs
      cases o with
      | none =>
        have ho : has f'.folderId frightsOwner := h'
        rw [hk] at ho
        exact ho
      | some x =>
        rcases h' with hs' | ⟨ho',hp'⟩
        · exact .inl (hs.trans hs')
        · exact .inr ⟨hk ▸ ho',hpar ▸ hp'⟩
    · cases o with
      | none => exact ho
      | some x =>
        rcases h' with hs' | ⟨-,hp' | hp'⟩
        · rw [← FolderRow.Same.parent hs'] at hp
          exact .inr ⟨ho,hp⟩
        · rw [← hp'] at hp
          exact .inr ⟨ho,hp⟩
        · exact .inr ⟨ho,.inr hp'⟩
  again _ _ h := h.elim
  later _ h _ := h.elim

theorem Granted.refl (db : ObjDB) : Granted has db db :=
  ⟨.refl messageGranted_composes _,.refl folderGranted_composes _⟩

theorem Granted.trans {a b c : ObjDB} (h : Granted has a b) (k : Granted has b c) :
    Granted has a c :=
  ⟨h.messages.trans messageGranted_composes k.messages,
    h.folders.trans folderGranted_composes k.folders⟩

theorem Respects.refl (db : ObjDB) : Respects has db db := (Granted.refl db).respects

theorem mailChange_granted {target : MessageRow → Prop} (h : MailChange target Q db db')
    (hg : ∀ r∈db.messages,target r → ∀ o,Q r o → MessageGranted has r o) : Granted has db db' := by
  refine ⟨h.messages.mono ?_ fun _ hf => hf,?_⟩
  · intro r hr o ho
    rcases ho with rfl | ⟨ht,hq⟩
    · exact .inl rfl
    · exact hg r hr ht o hq
  · rw [h.folders]
    exact .refl folderGranted_composes _

theorem softDeleted_granted (h : SoftDeleted r o) (hd : has r.parentFid frightsDeleteAny) :
    MessageGranted has r o := by
  obtain ⟨r',rfl,-,hl⟩ := h
  exact .inr (.inl ⟨hd,.inl hl⟩)

theorem dumped_granted (h : Dumped r o) (hd : has r.parentFid frightsDeleteAny) :
    MessageGranted has r o := by
  obtain ⟨r',rfl,hl⟩ := h
  exact .inr (.inl ⟨hd,.inl hl⟩)

theorem edited_granted (h : Edited r o) (he : has r.parentFid frightsEditAny) :
    MessageGranted has r o := by
  obtain ⟨r',rfl,hp,hl⟩ := h
  exact .inr (.inr ⟨he,hp,hl⟩)

theorem gone_granted (h : Gone r o) (hd : has r.parentFid frightsDeleteAny) :
    MessageGranted has r o := by
  obtain rfl : o=none := h
  exact hd

theorem sameFolders_granted
    (h : Changes (Keeps FolderRow.Same) (fun _ => True) db.folders db'.folders) :
    ∀ f∈db.folders,FolderGranted has f (db'.folders.get f.folderId) := by
  intro f hf
  obtain ⟨f',he,hs⟩ := h.old f hf
  rw [he]
  exact .inl hs

theorem adds_respects (h : Adds db db') : Respects has db db' := by
  refine ⟨?_,sameFolders_granted h.folders⟩
  intro r hr
  obtain ⟨r',he,rfl⟩ := h.messages.old r hr
  rw [he]
  exact .inl rfl

theorem rehung_respects {fid p : Nat} (hm : db'.messages=db.messages)
    (h : ∀ f∈db.folders,Touched (fun f => f.folderId=fid) (Rehung p) f
      (db'.folders.get f.folderId)) (ho : ∀ f∈db.folders,f.folderId=fid → has fid frightsOwner ∧
      (f.parentId=some p ∨ has p frightsCreateSubfolder)) : Respects has db db' := by
  constructor
  · intro r hr
    rw [hm,Table.get_key hr]
    exact .inl rfl
  · intro f hf
    rcases h f hf with he | ⟨hid,f',he,hp⟩
    · rw [he]
      exact .inl rfl
    · obtain ⟨hown,hpar⟩ := ho f hf hid
      rw [he]
      refine .inr ⟨hid ▸ hown,?_⟩
      rcases hp with hp | hp
      · exact .inl hp
      · rcases hpar with hpar | hpar
        · exact .inl (hp.trans hpar.symm)
        · refine .inr fun q hq => ?_
          rw [hp] at hq
          exact Option.mem_some.mp hq ▸ hpar

theorem deleteFolder_granted {s' : Store} {fid : Nat} {res : Except StoreErr Unit}
    (h : s.deleteFolder fid=some (res,s'))
    (hc : s.objdb.isBuiltinFolder fid=false → ∀ g,s.objdb.links.Below fid g →
      has g frightsOwner ∧ has g frightsDeleteAny) :
    Granted has s.objdb s'.objdb ∧ s'.objdb.kind=s.objdb.kind ∧
      ∀ x∈s'.objdb.links,x∈s.objdb.links := by
  rcases deleteFolder_cases h with he | ⟨hb,ids,hids,he⟩
  · rw [he]
    exact ⟨.refl _,rfl,fun _ hx => hx⟩
  · have hall : ∀ g∈ids,has g frightsOwner ∧ has g frightsDeleteAny :=
      fun g hg => hc hb g ((mem_folderSubtreeIDs hids g).mp hg).2
    have hdump := dumpsterSubtree_dumps s ids
    have hg : Granted has s.objdb (s.dumpsterSubtree ids).2.objdb :=
      mailChange_granted hdump fun r _ ht _ hq => dumped_granted hq (hall _ ht).2
    have hl := links_of_folders_eq hdump.folders
    rcases he with he | he
    · rw [he]
      exact ⟨hg,hdump.kind,fun x hx => hl ▸ hx⟩
    · rw [he]
      refine ⟨hg.trans ⟨?_,?_⟩,hdump.kind,?_⟩
      · apply Changes.deleteWhere messageGranted_composes
        intro r _ hr
        exact (hall _ (by simpa using hr)).2
      · apply Changes.deleteWhere folderGranted_composes
        intro f _ hf
        exact (hall _ (by simpa using hf)).1
      · intro x hx
        exact hl ▸ ((mem_links_deleteFolderRows _ ids x).mp hx).1

theorem tryEach_keeps {α : Type} {P : Store → Prop}
    {f : α → Store → Option (Except StoreErr Unit×Store)} {xs : List α}
    (hf : ∀ x∈xs,∀ s,P s → ∀ res s',f x s=some (res,s') → P s') (hs : P s) :
    P (tryEach f xs s).2 := by
  induction xs generalizing s with
  | nil => exact hs
  | cons x xs ih =>
    rw [tryEach]
    split
    · exact hs
    · rename_i res s' he
      have hx := hf x List.mem_cons_self s hs res s' he
      exact ih (fun y hy => hf y (List.mem_cons_of_mem x hy)) hx

theorem tryEach_mail {f : Nat → Store → Except StoreErr Unit×Store}
    (hc : Composes MessageRow.messageId (Touched (fun r => r.messageId∈ids) Q) (fun _ => False))
    (hf : ∀ mid s,MailChange (fun r => r.messageId=mid) Q s.objdb (f mid s).2.objdb) (s : Store) :
    MailChange (fun r => r.messageId∈ids) Q s.objdb
      (tryEach (fun mid s => some (f mid s)) ids s).2.objdb := by
  refine tryEach_keeps (P := fun s' : Store =>
    MailChange (fun r => r.messageId∈ids) Q s.objdb s'.objdb) ?_ (.refl hc _)
  intro mid hmid s₁ hs₁ res s₂ he
  have hone := (hf mid s₁).mono (fun r _ (h : r.messageId=mid) => h ▸ hmid) fun _ _ h => h
  have h₂ : (f mid s₁).2=s₂ := by rw [Option.some.inj he]
  rw [← h₂]
  exact hs₁.trans hc hone

theorem softDeleteEach_deletes (s : Store) :
    MailChange (fun r => r.messageId∈ids) SoftDeleted s.objdb (softDeleteEach ids s).2.objdb :=
  tryEach_mail ids softDeleted_composes (fun mid s => (softDeleteObject_deletes s mid).1) s

theorem maybeReadReceipt_edits (receipt : Nat → Bool) (s : Store) (mid : Nat) :
    MailChange (fun r => r.messageId=mid) Edited s.objdb (maybeReadReceipt receipt s mid).objdb := by
  unfold maybeReadReceipt
  split_ifs
  · split
    · exact .refl edited_composes _
    · rename_i obj h
      exact modifyMessageProperties_edits h
  · exact .refl edited_composes _

theorem applyReadFlag_edits (receipt : Nat → Bool) (action : ReadFlagAction) (mid : Nat)
    (s : Store) :
    MailChange (fun r => r.messageId=mid) Edited s.objdb
      (applyReadFlag receipt action mid s).2.objdb := by
  unfold applyReadFlag
  split
  · split
    · exact .refl edited_composes _
    · have hset := setMessageReadState_edits s mid action.read
      split
      · rename_i e s₁ he
        rw [he] at hset
        exact hset
      · rename_i s₁ he
        rw [he] at hset
        split_ifs
        · exact hset.trans edited_composes (maybeReadReceipt_edits receipt s₁ mid)
        · exact hset
  · split_ifs
    · exact maybeReadReceipt_edits receipt s mid
    · exact .refl edited_composes _

theorem emptyFolderContents_granted (fid : Nat) (s : Store)
    (hl : ∀ m∈s.listMessages fid,∀ r∈s.objdb.messages,r.messageId=m.messageId →
      has r.parentFid frightsDeleteAny)
    (hc : ∀ cs∈childFolders s.objdb fid,∀ c∈cs,s.objdb.isBuiltinFolder c=false →
      ∀ g,s.objdb.links.Below c g → has g frightsOwner ∧ has g frightsDeleteAny) :
    Granted has s.objdb (emptyFolderContents fid s).2.objdb := by
  have hmail := softDeleteEach_deletes ((s.listMessages fid).map IndexMessageRow.messageId) s
  have hsoft : Granted has s.objdb
      (softDeleteEach ((s.listMessages fid).map IndexMessageRow.messageId) s).2.objdb := by
    refine mailChange_granted hmail ?_
    intro r hr ht o ho
    obtain ⟨m,hm,hid⟩ := List.mem_map.mp ht
    exact softDeleted_granted ho (hl m hm r hr hid.symm)
  unfold emptyFolderContents
  cases he : softDeleteEach ((s.listMessages fid).map IndexMessageRow.messageId) s with
  | mk failed s₁ =>
    rw [he] at hmail hsoft
    simp only
    split
    · rename_i _ _ b children hchildren
      -- the folders are as they were, and from one deletion to the next they become fewer
      have hobj : s₁.objdb.links=s.objdb.links := links_of_folders_eq hmail.folders
      have hcs : childFolders s.objdb fid=some children := by
        rw [← hchildren]
        unfold childFolders ObjDB.listFolders ObjDB.descendants ObjDB.searchFolderChildren
          ObjDB.ipmSubtree
        rw [hmail.folders,hmail.kind]
      refine (tryEach_keeps (P := fun s' : Store => Granted has s.objdb s'.objdb ∧
        s'.objdb.kind=s.objdb.kind ∧ ∀ x∈s'.objdb.links,x∈s.objdb.links) ?_
        ⟨hsoft,hmail.kind,fun x hx => hobj ▸ hx⟩).1
      intro c hcmem s₂ ⟨hg,hk,hlinks⟩ res s₃ hdel
      have hcleared : s₂.objdb.isBuiltinFolder c=false → ∀ g,s₂.objdb.links.Below c g →
          has g frightsOwner ∧ has g frightsDeleteAny := by
        intro hbuiltin g hbelow
        have hb₀ : s.objdb.isBuiltinFolder c=false := by
          rw [← hbuiltin]
          unfold ObjDB.isBuiltinFolder
          rw [hk]
        exact hc children hcs c hcmem hb₀ g (hbelow.mono hlinks)
      obtain ⟨hg',hk',hlinks'⟩ := deleteFolder_granted hdel hcleared
      exact ⟨hg.trans hg',hk'.trans hk,fun x hx => hlinks x (hlinks' x hx)⟩
    · exact hsoft

/-- Others stay, new ones come to `dst`, and `src`'s index lists its own. -/
structure Moving (mine : Nat → Prop) (pre : ObjDB) (src dst : Nat) (s : Store) : Prop where
  elsewhere : ∀ r∈pre.messages,¬mine r.parentFid → r∈s.objdb.messages
  rows : ∀ r∈s.objdb.messages,r∈pre.messages ∨ r.parentFid=dst
  listed : ∀ m∈s.idxdb.messages,m.folderId=src → ∀ r∈pre.messages,r.messageId=m.messageId →
    mine r.parentFid
  folders : Changes (Keeps FolderRow.Same) (fun _ => True) pre.folders s.objdb.folders

theorem Moving.files {s' : Store} (h : Moving mine pre src dst s) (hf : Files dst s s') :
    Moving mine pre src dst s' := by
  refine ⟨?_,?_,?_,h.folders.trans sameFolder_composes hf.folders⟩
  · intro r hr hp
    have hs := h.elsewhere r hr hp
    rcases hf.messages with he | ⟨row,-,-,hi⟩
    · rw [he]
      exact hs
    · exact (hi r).mpr (.inl hs)
  · intro r hr
    rcases hf.messages with he | ⟨row,hp,-,hi⟩
    · rw [he] at hr
      exact h.rows r hr
    · rcases (hi r).mp hr with hr | rfl
      · exact h.rows r hr
      · exact .inr hp
  · intro m hm hfid r hr hid
    rcases hf.index m hm with hm | hn
    · exact h.listed m hm hfid r hr hid
    · -- a new id is not the id of a message that stayed
      by_contra hp
      exact hn r (h.elsewhere r hr hp) hid

theorem Moving.deleteMessage (h : Moving mine pre src dst s) (uid : Nat) :
    Moving mine pre src dst (s.deleteMessage src uid).2 := by
  unfold Store.deleteMessage
  split
  · exact h
  rename_i m hm
  obtain ⟨hm,hfid,-⟩ := byUID_eq_some hm
  refine ⟨?_,?_,?_,h.folders⟩
  · intro r hr hp
    refine Table.mem_deleteWhere.mpr ⟨h.elsewhere r hr hp,?_⟩
    rw [decide_eq_false_iff_not]
    exact fun hid => hp (h.listed m hm hfid r hr hid)
  · exact fun r hr => h.rows r (Table.mem_deleteWhere.mp hr).1
  · exact fun x hx => h.listed x (Table.mem_deleteWhere.mp hx).1

theorem copyStoredMessage_files (src uid dst : Nat) (s : Store) :
    Files dst s (copyStoredMessage wire src uid dst s).2 := by
  unfold copyStoredMessage
  split
  · exact .refl dst s
  · rename_i m hm
    exact copyMessageTo_files wire dst m s

theorem moveCopyEach_keeps {P : Store → Prop} {wire : Nat → Except StoreErr MessageHead}
    {move : Bool} (hP : ∀ uid s,P s → P (moveCopyOne wire src dst move uid s).2) (ids : List Nat)
    (hs : P s) : P (moveCopyEach wire src dst move ids s).2 := by
  refine tryEach_keeps ?_ hs
  intro mid _ s₁ hs₁ res s₂ he
  split at he
  · cases he
    exact hs₁
  · rename_i uid hu
    have h := hP uid s₁ hs₁
    rw [Option.some.inj he] at h
    exact h

theorem moveCopyEach_moving (ids : List Nat) (hs : Moving mine pre src dst s) :
    Moving mine pre src dst (moveCopyEach wire src dst true ids s).2 := by
  refine moveCopyEach_keeps ?_ ids hs
  intro uid s₁ hs₁
  have hf := hs₁.files (copyStoredMessage_files wire src uid dst s₁)
  unfold moveCopyOne
  split
  · rename_i e s₂ he
    rw [he] at hf
    exact hf
  · rename_i s₂ he
    rw [he] at hf
    exact hf.deleteMessage uid

theorem moveCopyEach_adds (src dst : Nat) (ids : List Nat) (s : Store) :
    Adds s.objdb (moveCopyEach wire src dst false ids s).2.objdb := by
  refine moveCopyEach_keeps (P := fun s' : Store => Adds s.objdb s'.objdb) ?_ ids (.refl _)
  intro uid s₁ hs₁
  have hf := hs₁.trans (copyStoredMessage_files wire src uid dst s₁).adds
  unfold moveCopyOne
  split
  all_goals
    rename_i he
    rw [he] at hf
    exact hf

theorem Moving.respects (h : Moving (fun fid => has fid frightsDeleteAny) pre src dst s)
    (hc : has dst frightsCreate) : Respects has pre s.objdb := by
  refine ⟨?_,sameFolders_granted h.folders⟩
  intro r hr
  by_cases hd : has r.parentFid frightsDeleteAny
  · cases hg : s.objdb.messages.get r.messageId with
    | none => exact hd
    | some x =>
      obtain ⟨hx,hid⟩ := Table.get_eq_some.mp hg
      rcases h.rows x hx with hx | hx
      · exact .inl (Table.eq_of_key hx hr hid)
      · rw [← hx] at hc
        exact .inr (.inl ⟨hd,.inr hc⟩)
  · rw [Table.get_key (h.elsewhere r hr hd)]
    exact .inl rfl

end Granted
end HermEX.Rop
