import HermEX.Framework.Blocks
import HermEX.Objectstore.FolderTree

namespace HermEX.Objectstore

open Framework Mapi

def ObjDB.blocks (db : ObjDB) : Blocks (Option Nat) where
  ceil := db.maxRangeEnd
  block
    | none => (db.currentEID,db.maximumEID)
    | some fid => match db.folders.get fid with
      | none => (0,0)
      | some r => (r.curEid,r.maxEid)

variable {fid : Nat} {db' db : ObjDB} {now : UInt64} {row : FolderRow}

theorem maxRangeEnd_append (db : ObjDB) (a e : Nat) :
    ({db with allocatedEids:=db.allocatedEids++[(a,e)]} : ObjDB).maxRangeEnd=
      max db.maxRangeEnd e := by
  simp only [ObjDB.maxRangeEnd,List.map_append]
  induction db.allocatedEids.map Prod.snd with
  | nil => simp
  | cons x xs ih => rw [List.cons_append,List.foldr_cons,List.foldr_cons,ih,max_assoc]

theorem blocks_ext {b b' : Blocks (Option Nat)} (hc : b.ceil=b'.ceil)
    (hb : ∀ i,b.block i=b'.block i) : b=b' := by
  cases b
  cases b'
  simp only [Blocks.mk.injEq] at hc ⊢
  exact ⟨hc,funext hb⟩

attribute [local simp] Blocks.setBlock

theorem blocks_updateFolder {r : FolderRow} (hr : db.folders.get fid=some r)
    (f : FolderRow → FolderRow) (hf : ∀ r,(f r).folderId=r.folderId) :
    (db.updateFolder fid f hf).blocks= db.blocks.setBlock (some fid) (f r).curEid (f r).maxEid := by
  apply blocks_ext
  · rfl
  intro i
  cases i with
  | none => simp [ObjDB.blocks,ObjDB.updateFolder]
  | some x =>
    have hget := Table.get_updateWhere db.folders (fun r => r.folderId=fid) f hf x
    simp only [ObjDB.blocks,ObjDB.updateFolder,Blocks.setBlock,hget]
    by_cases hx : x=fid
    · subst hx
      obtain ⟨-,hid⟩ := Table.get_eq_some.mp hr
      simp [hr,hid]
    · rw [Function.update_of_ne (by simpa using hx)]
      cases hg : db.folders.get x with
      | none => simp [hg]
      | some r' =>
        obtain ⟨-,hid⟩ := Table.get_eq_some.mp hg
        simp [hg,hid,hx]

theorem blocks_updateFolder_of_none (hr : db.folders.get fid=none) (f : FolderRow → FolderRow)
    (hf : ∀ r,(f r).folderId=r.folderId) :
    (db.updateFolder fid f hf).blocks=db.blocks := by
  have hsame : db.folders.updateWhere (fun r => r.folderId=fid) f hf=db.folders := by
    apply Table.updateWhere_eq_self
    intro r hmem he
    exact absurd (by simpa using he) (Table.get_eq_none.mp hr r hmem)
  rw [ObjDB.updateFolder,hsame]

theorem insertFolder_blocks (h : db.insertFolder row=.ok db') :
    db'.blocks=db.blocks.setBlock (some row.folderId) row.curEid row.maxEid := by
  obtain ⟨-,hn,t,rfl,ht⟩ := insertFolder_ok h
  have hget := Table.get_of_mem_insert hn ht
  apply blocks_ext
  · rfl
  intro i
  cases i with
  | none => simp [ObjDB.blocks]
  | some x =>
    simp only [ObjDB.blocks,Blocks.setBlock,hget]
    by_cases hx : x=row.folderId
    · simp [hx]
    · rw [Function.update_of_ne (by simpa using hx),if_neg hx]

theorem allocateRange_blocks (db : ObjDB) :
    db.allocateRange.2.blocks=db.blocks.raise allocatedEIDRange := by
  apply blocks_ext
  · have hm := maxRangeEnd_append db (db.maxRangeEnd+1) (db.maxRangeEnd+1+allocatedEIDRange-1)
    have he : max db.maxRangeEnd (db.maxRangeEnd+1+allocatedEIDRange-1)=
        db.maxRangeEnd+allocatedEIDRange := by
      omega
    exact hm.trans he
  · intro i
    rfl

theorem allocateRange_last (db : ObjDB) :
    db.allocateRange.1.2=db.maxRangeEnd+allocatedEIDRange := by
  simp only [ObjDB.allocateRange]
  omega

attribute [local simp] Blocks.narrow

theorem allocateEID_take (db : ObjDB) :
    db.allocateEID.1=(db.blocks.take allocatedEIDRange none).1 ∧
      db.allocateEID.2.blocks=(db.blocks.take allocatedEIDRange none).2 := by
  unfold ObjDB.allocateEID Blocks.take
  have hb : db.blocks.block none=(db.currentEID,db.maximumEID) := rfl
  simp only [hb]
  split_ifs with hc
  · refine ⟨rfl,blocks_ext ?_ ?_⟩
    · have hm := maxRangeEnd_append db (db.maxRangeEnd+1+1) (db.maxRangeEnd+allocatedEIDRange)
      rw [max_eq_right (Nat.le_add_right _ _)] at hm
      exact hm
    · intro i
      cases i with
      | none => simp [ObjDB.blocks,Blocks.carve]
      | some x => simp [ObjDB.blocks,Blocks.carve,Blocks.raise]
  · refine ⟨rfl,blocks_ext rfl ?_⟩
    intro i
    cases i with
    | none | some x => simp [ObjDB.blocks]

theorem allocateEIDFromFolder_take {eid : Nat} (h : db.allocateEIDFromFolder fid=.ok (eid,db')) :
    eid=(db.blocks.take allocatedEIDRange (some fid)).1 ∧
      db'.blocks=(db.blocks.take allocatedEIDRange (some fid)).2 := by
  unfold ObjDB.allocateEIDFromFolder at h
  split at h
  · cases h
  rename_i r hr
  have hb : db.blocks.block (some fid)=(r.curEid,r.maxEid) := by simp [ObjDB.blocks,hr]
  unfold Blocks.take
  simp only [hb]
  split_ifs at h ⊢ with hc
  · obtain ⟨rfl,rfl⟩ := Prod.mk.inj (Except.ok.inj h)
    let db₁ : ObjDB := {db with
      allocatedEids:=db.allocatedEids++[(db.maxRangeEnd+1,db.maxRangeEnd+allocatedEIDRange)]}
    have hr₁ : db₁.folders.get fid=some r := hr
    refine ⟨rfl,(blocks_updateFolder hr₁ _ _).trans ?_⟩
    apply blocks_ext
    · have hm := maxRangeEnd_append db (db.maxRangeEnd+1) (db.maxRangeEnd+allocatedEIDRange)
      rw [max_eq_right (Nat.le_add_right _ _)] at hm
      exact hm
    · intro i
      by_cases hi : i=some fid
      · simp [hi,ObjDB.blocks,Blocks.carve]
      · simp [ObjDB.blocks,Blocks.carve,Blocks.raise,db₁]
  · obtain ⟨rfl,rfl⟩ := Prod.mk.inj (Except.ok.inj h)
    refine ⟨rfl,?_⟩
    rw [blocks_updateFolder hr,Blocks.narrow,hb]

def FolderOwned (i : Option Nat) : Prop := i≠none

def StoreOwned (i : Option Nat) : Prop := i=none

theorem avoids_store {x : Nat} :
    db.blocks.Avoids StoreOwned x ↔ x≤db.maxRangeEnd ∧ ¬(db.currentEID≤x ∧ x<db.maximumEID) := by
  simp [Blocks.Avoids,Blocks.Holds,StoreOwned,ObjDB.blocks]

/-- Blocks move on, and new ids are nobody's to give. -/
structure Issues (db db' : ObjDB) : Prop where
  advance : Blocks.Advance db.blocks db'.blocks
  disjoint : db'.blocks.Disjoint
  messages : ∀ m∈db'.messages,(∃ m₀∈db.messages,m₀.messageId=m.messageId) ∨
    db'.blocks.Avoids FolderOwned m.messageId
  folders : ∀ r∈db'.folders,(∃ r₀∈db.folders,r₀.folderId=r.folderId) ∨
    db'.blocks.Avoids StoreOwned r.folderId

section Issues

variable {db db' : ObjDB}

variable {eid fid x : Nat}

theorem Issues.trans {a b c : ObjDB} (h : Issues a b) (k : Issues b c) : Issues a c := by
  refine ⟨h.advance.trans k.advance,k.disjoint,?_,?_⟩
  · intro m hm
    rcases k.messages m hm with ⟨m₁,hm₁,he⟩ | hm
    · rcases h.messages m₁ hm₁ with ⟨m₀,hm₀,he₀⟩ | ha
      · exact .inl ⟨m₀,hm₀,he₀.trans he⟩
      · exact .inr (he ▸ ha.advance k.advance)
    · exact .inr hm
  · intro r hr
    rcases k.folders r hr with ⟨r₁,hr₁,he⟩ | hr
    · rcases h.folders r₁ hr₁ with ⟨r₀,hr₀,he₀⟩ | ha
      · exact .inl ⟨r₀,hr₀,he₀.trans he⟩
      · exact .inr (he ▸ ha.advance k.advance)
    · exact .inr hr

theorem Issues.of_blocks (ha : Blocks.Advance db.blocks db'.blocks) (hd : db'.blocks.Disjoint)
    (hm : db'.messages=db.messages)
    (hf : ∀ r∈db'.folders,∃ r₀∈db.folders,r₀.folderId=r.folderId) : Issues db db' :=
  ⟨ha,hd,fun m h => .inl ⟨m,hm ▸ h,rfl⟩,fun r h => .inl (hf r h)⟩

theorem mem_allocateEIDFromFolder (h : db.allocateEIDFromFolder fid=.ok (eid,db')) :
    ∀ r∈db'.folders,∃ r₀∈db.folders,r₀.folderId=r.folderId := by
  unfold ObjDB.allocateEIDFromFolder at h
  split at h
  · cases h
  split_ifs at h <;> obtain ⟨-,rfl⟩ := Prod.mk.inj (Except.ok.inj h)
  all_goals
    intro r hr
    obtain ⟨r₀,hr₀,⟨-,rfl⟩ | ⟨-,rfl⟩⟩ := mem_updateFolder _ _ _ _ hr
    · exact ⟨r₀,hr₀,rfl⟩
    · exact ⟨r,hr₀,rfl⟩

theorem insertFolder_carves {db₀ : ObjDB} (h : db.insertFolder row=.ok db')
    (hb : db.blocks=db₀.blocks.raise allocatedEIDRange) (hm : db.messages=db₀.messages)
    (hf : db.folders=db₀.folders) (hcur : row.curEid=db₀.maxRangeEnd+1)
    (hmax : row.maxEid=db₀.maxRangeEnd+allocatedEIDRange) :
    db'.blocks=db₀.blocks.carve allocatedEIDRange (some row.folderId) ∧
      db'.messages=db₀.messages ∧ ∀ r∈db'.folders,r∈db₀.folders ∨ r=row := by
  have hbl := insertFolder_blocks h
  obtain ⟨-,-,t,rfl,ht⟩ := insertFolder_ok h
  refine ⟨?_,hm,?_⟩
  · rw [hbl,hb,hcur,hmax]
    rfl
  · intro r hr
    rw [← hf]
    exact (ht r).mp hr

theorem Issues.of_new_folder (ha : Blocks.Advance db.blocks db'.blocks) (hd : db'.blocks.Disjoint)
    (hm : db'.messages=db.messages) (hf : ∀ r∈db'.folders,r∈db.folders ∨ r=row)
    (hsafe : db'.blocks.Avoids StoreOwned row.folderId) : Issues db db' := by
  refine ⟨ha,hd,fun m h => .inl ⟨m,hm ▸ h,rfl⟩,?_⟩
  intro r hr
  rcases hf r hr with hr | rfl
  · exact .inl ⟨r,hr,rfl⟩
  · exact .inr hsafe

def ObjDB.ClearFor (db : ObjDB) (fid x : Nat) : Prop :=
  x≤db.maxRangeEnd ∧ ∀ r∈db.folders.rows,r.folderId≠fid → ¬(r.curEid≤x ∧ x< r.maxEid)

instance (db : ObjDB) (fid x : Nat) : Decidable (db.ClearFor fid x) :=
  inferInstanceAs (Decidable (_ ∧ _))

theorem ObjDB.ClearFor.not_holds (h : db.ClearFor fid x) {j : Option Nat} (hj : FolderOwned j)
    (hne : j≠some fid) : ¬db.blocks.Holds j x := by
  cases j with
  | none => exact absurd rfl hj
  | some k =>
    unfold Blocks.Holds
    simp only [ObjDB.blocks]
    cases hg : db.folders.get k with
    | none => simp
    | some r =>
      obtain ⟨hr,hid⟩ := Table.get_eq_some.mp hg
      exact h.2 r hr fun he => hne (by rw [← hid,he])

/-- Blocks as they are, the imported id safe from now on. -/
structure Skips (b b' : Blocks (Option Nat)) (S : Option Nat → Prop) (x : Nat) : Prop where
  advance : Blocks.Advance b b'
  disjoint : b'.Disjoint
  safe : b'.Avoids S x

theorem Issues.of_new_message {mid : Nat} (hs : Skips db.blocks db'.blocks FolderOwned mid)
    (hm : ∀ m∈db'.messages,m∈db.messages ∨ m.messageId=mid)
    (hf : ∀ r∈db'.folders,∃ r₀∈db.folders,r₀.folderId=r.folderId) : Issues db db' := by
  refine ⟨hs.advance,hs.disjoint,?_,fun r hr => .inl (hf r hr)⟩
  intro m hmem
  rcases hm m hmem with hm | rfl
  · exact .inl ⟨m,hm,rfl⟩
  · exact .inr hs.safe

theorem mem_advanceFolderEID :
    ∀ r∈(db.advanceFolderEID fid x).folders,∃ r₀∈db.folders,r₀.folderId=r.folderId := by
  intro r hr
  obtain ⟨r₀,hr₀,⟨-,rfl⟩ | ⟨-,rfl⟩⟩ := mem_updateFolder _ _ _ _ hr
  · refine ⟨r₀,hr₀,?_⟩
    split_ifs <;> rfl
  · exact ⟨r,hr₀,rfl⟩

theorem blocks_updateFolder_same (f : FolderRow → FolderRow) (hf : ∀ r,(f r).folderId=r.folderId)
    (hcur : ∀ r,(f r).curEid=r.curEid) (hmax : ∀ r,(f r).maxEid=r.maxEid) :
    (db.updateFolder fid f hf).blocks=db.blocks := by
  cases hg : db.folders.get fid with
  | none => exact blocks_updateFolder_of_none hg f hf
  | some r =>
    have hb : db.blocks.block (some fid)=(r.curEid,r.maxEid) := by simp [ObjDB.blocks,hg]
    rw [blocks_updateFolder hg,hcur,hmax]
    apply blocks_ext
    · rfl
    · intro i
      by_cases hi : i=some fid
      · simp [hi,hb]
      · simp [hi]

section Disjoint

variable (hd : db.blocks.Disjoint)

include hd

theorem Issues.refl : Issues db db :=
  ⟨.refl _,hd,fun m hm => .inl ⟨m,hm,rfl⟩,fun r hr => .inl ⟨r,hr,rfl⟩⟩

theorem allocateEID_issues : Issues db db.allocateEID.2 := by
  obtain ⟨-,hb⟩ := allocateEID_take db
  have hf := (allocateEID_folders db).1
  apply Issues.of_blocks
  · rw [hb]
    exact Blocks.take_advance _ _ _
  · rw [hb]
    exact hd.take _ _
  · unfold ObjDB.allocateEID
    split_ifs <;> rfl
  · intro r hr
    exact ⟨r,hf ▸ hr,rfl⟩

theorem allocateMore_issues {prev n : Nat}
    (h : db.allocateMore prev n=.ok db') : Issues db db' := by
  induction n generalizing db prev with
  | zero =>
    obtain rfl := Except.ok.inj h
    exact .refl hd
  | succ n ih =>
    simp only [ObjDB.allocateMore] at h
    split_ifs at h
    have hi := allocateEID_issues hd
    exact hi.trans (ih hi.disjoint h)

theorem allocateLocalIDs_issues {count first : Nat}
    (h : db.allocateLocalIDs count=.ok (first,db')) : Issues db db' := by
  unfold ObjDB.allocateLocalIDs at h
  split_ifs at h
  obtain ⟨d,hm,he⟩ := map_eq_ok h
  obtain ⟨-,rfl⟩ := Prod.mk.inj he
  have hi := allocateEID_issues hd
  exact hi.trans (allocateMore_issues hi.disjoint hm)

theorem allocateEIDFromFolder_issues
    (h : db.allocateEIDFromFolder fid=.ok (eid,db')) : Issues db db' := by
  obtain ⟨-,hb⟩ := allocateEIDFromFolder_take h
  apply Issues.of_blocks
  · rw [hb]
    exact Blocks.take_advance _ _ _
  · rw [hb]
    exact hd.take _ _
  · exact (allocateEIDFromFolder_messages h).1
  · exact mem_allocateEIDFromFolder h

theorem createMessage_issues {msg : MessageHead}
    (h : db.createMessage fid msg=.ok (eid,db')) : Issues db db' := by
  obtain ⟨db₁,t,he,rfl,-,ht⟩ := createMessage_ok h
  have hi := allocateEIDFromFolder_issues hd he
  obtain ⟨heid,hb⟩ := allocateEIDFromFolder_take he
  have hsafe : db₁.blocks.Avoids FolderOwned eid := by
    rw [hb,heid]
    exact Blocks.take_avoids (by decide) hd _ _
  refine hi.trans ⟨.refl _,hi.disjoint,?_,fun r hr => .inl ⟨r,hr,rfl⟩⟩
  intro m hm
  rcases (ht m).mp hm with hm | rfl
  · exact .inl ⟨m,hm,rfl⟩
  · exact .inr hsafe

theorem createFolder_issues {parent : Option Nat} {name : GoString}
    (h : db.createFolder parent name now=.ok (fid,db')) :
    Issues db db' := by
  have hi := allocateEID_issues hd
  obtain ⟨heid,hb⟩ := allocateEID_take db
  have hsafe : db.allocateEID.2.blocks.Avoids StoreOwned db.allocateEID.1 := by
    rw [hb,heid]
    exact Blocks.take_avoids (by decide) hd _ _
  obtain ⟨d,hins,he⟩ := map_eq_ok h
  obtain ⟨rfl,rfl⟩ := Prod.mk.inj he
  obtain ⟨hbl,hm,hf⟩ := insertFolder_carves hins (allocateRange_blocks db.allocateEID.2) rfl rfl
    rfl (allocateRange_last _)
  have hadv := Blocks.carve_advance db.allocateEID.2.blocks allocatedEIDRange
    (some db.allocateEID.1)
  exact hi.trans (.of_new_folder (hbl ▸ hadv) (hbl ▸ hi.disjoint.carve _ _) hm hf
    (hbl ▸ hsafe.advance hadv))

theorem advanceFolderEID_skips (hc : db.ClearFor fid x) :
    Skips db.blocks (db.advanceFolderEID fid x).blocks FolderOwned x := by
  unfold ObjDB.advanceFolderEID
  cases hg : db.folders.get fid with
  | none =>
    rw [blocks_updateFolder_of_none hg]
    refine ⟨.refl _,hd,hc.1,?_⟩
    intro j hj
    by_cases he : j=some fid
    · simp [he,Blocks.Holds,ObjDB.blocks,hg]
    · exact hc.not_holds hj he
  | some r =>
    have hb : db.blocks.block (some fid)=(r.curEid,r.maxEid) := by simp [ObjDB.blocks,hg]
    rw [blocks_updateFolder hg]
    by_cases hin : r.curEid≤x ∧ x≤ r.maxEid
    · have hn : db.blocks.setBlock (some fid) (x+1) r.maxEid=
          db.blocks.narrow (some fid) (x+1) := by rw [Blocks.narrow,hb]
      have hle : (db.blocks.block (some fid)).1≤x+1 := by
        rw [hb]
        exact Nat.le_succ_of_le hin.1
      simp only [if_pos hin,hn]
      exact ⟨Blocks.narrow_advance hle,hd.narrow hle,
        Blocks.narrow_avoids hc.1 fun j hj he => hc.not_holds hj he⟩
    · have hn : db.blocks.setBlock (some fid) r.curEid r.maxEid=db.blocks := by
        apply blocks_ext
        · rfl
        · intro i
          by_cases hi : i=some fid
          · simp [hi,hb]
          · simp [hi]
      simp only [if_neg hin,hn]
      refine ⟨.refl _,hd,hc.1,?_⟩
      intro j hj
      by_cases he : j=some fid
      · intro hh
        rw [he,Blocks.Holds,hb] at hh
        exact hin ⟨hh.1,Nat.le_of_lt hh.2⟩
      · exact hc.not_holds hj he

theorem advanceStoreEID_skips (hx : x≤db.maxRangeEnd) :
    Skips db.blocks (db.advanceStoreEID x).blocks StoreOwned x := by
  unfold ObjDB.advanceStoreEID
  split_ifs with hin
  · have hn : ({db with currentEID:=x+1} : ObjDB).blocks=db.blocks.narrow none (x+1) := by
      apply blocks_ext
      · rfl
      · intro i
        cases i with
        | none | some k => simp [ObjDB.blocks]
    have hle : (db.blocks.block none).1≤x+1 := Nat.le_succ_of_le hin.1
    rw [hn]
    refine ⟨Blocks.narrow_advance hle,hd.narrow hle,Blocks.narrow_avoids hx ?_⟩
    intro j hj he
    exact absurd hj he
  · exact ⟨.refl _,hd,avoids_store.mpr ⟨hx,fun h => hin h⟩⟩

theorem clearTarget_skips {um : UploadMessage}
    (hnew : um.isNew=true → db.ClearFor um.folderID um.mid)
    (hold : um.isNew=false → db.blocks.Avoids FolderOwned um.mid) :
    Skips db.blocks (db.clearTarget um).blocks FolderOwned um.mid ∧
      ∀ r∈(db.clearTarget um).folders,∃ r₀∈db.folders,r₀.folderId=r.folderId := by
  unfold ObjDB.clearTarget
  split_ifs with hn
  · exact ⟨advanceFolderEID_skips hd (hnew hn),mem_advanceFolderEID⟩
  · exact ⟨⟨.refl _,hd,hold (by simpa using hn)⟩,fun r hr => ⟨r,hr,rfl⟩⟩

theorem commitUpload_issues {um : UploadMessage}
    (hnew : um.isNew=true → db.ClearFor um.folderID um.mid)
    (hold : um.isNew=false → db.blocks.Avoids FolderOwned um.mid)
    (h : db.commitUpload um=.ok db') : Issues db db' := by
  obtain ⟨-,-,t,rfl,ht⟩ := insertMessageRow_ok h
  have hd₁ : db.allocateCN.2.blocks.Disjoint := hd
  obtain ⟨hs,hf⟩ := clearTarget_skips hd₁ hnew hold
  refine .of_new_message hs ?_ hf
  intro m hm
  rcases (ht m).mp hm with hm | rfl
  · exact .inl (mem_clearTarget db.allocateCN.2 um hm)
  · exact .inr rfl

theorem moveMessageImport_issues {src srcMID dest dstMID : Nat}
    (hc : db.ClearFor dest dstMID) (h : db.moveMessageImport src srcMID dest dstMID=.ok db') :
    Issues db db' := by
  unfold ObjDB.moveMessageImport at h
  split at h
  · cases h
  rename_i r hr
  split_ifs at h
  simp only at h
  split at h
  · cases h
  obtain rfl := Except.ok.inj h
  have hs : Skips db.blocks (db.allocateCN.2.renameMovedMessage r dest dstMID
      db.allocateCN.1).blocks FolderOwned dstMID := by
    apply advanceFolderEID_skips
    · exact hd
    · exact hc
  refine .of_new_message hs ?_ mem_advanceFolderEID
  intro m hm
  rcases Table.mem_put.mp hm with rfl | ⟨hm,-⟩
  · exact .inr rfl
  · exact .inl (Table.mem_deleteWhere.mp hm).1

theorem importHierarchyChange_issues {rootFID : Nat} {hichyvals propvals : PropertyValues}
    (hc : ∀ imp,ObjDB.parseHierarchyImport rootFID hichyvals db.replica=.ok imp →
      db.folderExists imp.fid=false → imp.fid≤db.maxRangeEnd)
    (h : db.importHierarchyChange rootFID hichyvals propvals now=.ok (fid,db')) :
    Issues db db' := by
  obtain ⟨imp,himp,-,⟨r,-,hup⟩ | ⟨hnone,hins⟩⟩ := importHierarchyChange_ok h
  · obtain ⟨-,bag,-,rfl⟩ := updateImportedFolder_ok hup
    have hb : (db.allocateCN.2.updateFolder imp.fid (fun r => {r with
        parentId:=some imp.parent,changeNumber:=db.allocateCN.1,props:=bag})
        fun _ => rfl).blocks=db.blocks :=
      blocks_updateFolder_same _ _ (fun _ => rfl) fun _ => rfl
    refine .of_blocks (by rw [hb]; exact .refl _) (by rw [hb]; exact hd) rfl ?_
    intro x hx
    obtain ⟨x₀,hx₀,⟨-,rfl⟩ | ⟨-,rfl⟩⟩ := mem_updateFolder _ _ _ _ hx
    · exact ⟨x₀,hx₀,rfl⟩
    · exact ⟨x,hx₀,rfl⟩
  · obtain ⟨bag,d,-,hd',rfl⟩ := insertImportedFolder_ok hins
    have hle : imp.fid≤db.maxRangeEnd := hc imp himp (by simp [ObjDB.folderExists,hnone])
    obtain ⟨hbl,hm,hf⟩ := insertFolder_carves hd' (allocateRange_blocks db.allocateCN.2) rfl rfl
      rfl (allocateRange_last _)
    have hadv := Blocks.carve_advance db.blocks allocatedEIDRange (some imp.fid)
    have hdis : d.blocks.Disjoint := hbl ▸ hd.carve allocatedEIDRange (some imp.fid)
    have hle' : imp.fid≤d.maxRangeEnd := by
      have hceil : d.maxRangeEnd=db.maxRangeEnd+allocatedEIDRange := congrArg Blocks.ceil hbl
      omega
    have hs := advanceStoreEID_skips hdis hle'
    have hd₂ : Blocks.Advance db.blocks d.blocks := hbl ▸ hadv
    have hsame : (d.advanceStoreEID imp.fid).folders=d.folders ∧
        (d.advanceStoreEID imp.fid).messages=d.messages := by
      unfold ObjDB.advanceStoreEID
      split_ifs <;> exact ⟨rfl,rfl⟩
    rw [← hsame.1] at hf
    exact .of_new_folder (hd₂.trans hs.advance) hs.disjoint (hsame.2.trans hm) hf hs.safe

end Disjoint

end Issues

structure IdWorld where
  db : ObjDB
  pending : List UploadMessage

inductive IdStep where
  | allocateEID
  | allocateLocalIDs (count : Nat)
  | allocateEIDFromFolder (fid : Nat)
  | createFolder (parent : Option Nat) (displayName : GoString) (ntNow : UInt64)
  | createMessage (fid : Nat) (msg : MessageHead)
  | importMessageChange (folderID mid : Nat) (associated : Bool) (msg : MessageHead)
  | commitUpload (k : Nat)
  | moveMessageImport (srcFolderID srcMID destFolderID dstMID : Nat)
  | importHierarchyChange (rootFID : Nat) (hichyvals propvals : PropertyValues) (ntNow : UInt64)

def ObjDB.orElse {α : Type} (db : ObjDB) (res : Except StoreErr (α×ObjDB)) : ObjDB :=
  match res with
  | .ok (_,db') => db'
  | .error _ => db

namespace IdWorld

def step (w : IdWorld) : IdStep → IdWorld
  | .allocateEID => {w with db:=w.db.allocateEID.2}
  | .allocateLocalIDs count => {w with db:=w.db.orElse (w.db.allocateLocalIDs count)}
  | .allocateEIDFromFolder fid => {w with db:=w.db.orElse (w.db.allocateEIDFromFolder fid)}
  | .createFolder parent displayName ntNow =>
    {w with db:=w.db.orElse (w.db.createFolder parent displayName ntNow)}
  | .createMessage fid msg => {w with db:=w.db.orElse (w.db.createMessage fid msg)}
  | .importMessageChange folderID mid associated msg =>
    {w with pending:=w.pending++[w.db.importMessageChange folderID mid associated msg]}
  | .commitUpload k =>
    match w.pending[k]? with
    | none => w
    | some um => ⟨w.db.orElse ((w.db.commitUpload um).map fun db => ((),db)),w.pending.eraseIdx k⟩
  | .moveMessageImport src srcMID dest dstMID =>
    {w with db:=w.db.orElse ((w.db.moveMessageImport src srcMID dest dstMID).map fun db => ((),db))}
  | .importHierarchyChange rootFID hichyvals propvals ntNow =>
    {w with db:=w.db.orElse (w.db.importHierarchyChange rootFID hichyvals propvals ntNow)}

/-- An imported id is carved, and no other folder's to give. -/
def ImportsClear (w : IdWorld) : IdStep → Prop
  | .commitUpload k => ∀ um∈w.pending[k]?,um.isNew=true → w.db.ClearFor um.folderID um.mid
  | .moveMessageImport _ _ dest dstMID => w.db.ClearFor dest dstMID
  | .importHierarchyChange rootFID hichyvals _ _ =>
    ∀ imp∈(ObjDB.parseHierarchyImport rootFID hichyvals w.db.replica).toOption,
      w.db.folderExists imp.fid=false → imp.fid≤w.db.maxRangeEnd
  | _ => True

end IdWorld

/-- No id in use is still to be given out. -/
structure IdInv (w : IdWorld) : Prop where
  disjoint : w.db.blocks.Disjoint
  messages : ∀ m∈w.db.messages,w.db.blocks.Avoids FolderOwned m.messageId
  folders : ∀ r∈w.db.folders,w.db.blocks.Avoids StoreOwned r.folderId
  pending : ∀ um∈w.pending,um.isNew=false → w.db.blocks.Avoids FolderOwned um.mid

theorem IdInv.issues {w : IdWorld} (h : IdInv w) {pending' : List UploadMessage}
    (hi : Issues w.db db') (hp : ∀ um∈pending',um∈w.pending) : IdInv ⟨db',pending'⟩ := by
  refine ⟨hi.disjoint,?_,?_,?_⟩
  · intro m hm
    rcases hi.messages m hm with ⟨m₀,hm₀,he⟩ | hm
    · exact he ▸ (h.messages m₀ hm₀).advance hi.advance
    · exact hm
  · intro r hr
    rcases hi.folders r hr with ⟨r₀,hr₀,he⟩ | hr
    · exact he ▸ (h.folders r₀ hr₀).advance hi.advance
    · exact hr
  · intro um hum hold
    exact (h.pending um (hp um hum) hold).advance hi.advance

theorem issues_orElse {α : Type} {res : Except StoreErr (α×ObjDB)} (hd : db.blocks.Disjoint)
    (h : ∀ x db',res=.ok (x,db') → Issues db db') :
    Issues db (db.orElse res) := by
  cases res with
  | error e => exact .refl hd
  | ok p => exact h p.1 p.2 rfl

theorem idInv_step (w : IdWorld) (a : IdStep) (h : IdInv w) (hc : w.ImportsClear a) :
    IdInv (w.step a) := by
  have hd := h.disjoint
  have hsame : ∀ um∈w.pending,um∈w.pending := fun _ hu => hu
  cases a with
  | allocateEID => exact h.issues (allocateEID_issues hd) hsame
  | allocateLocalIDs count =>
    exact h.issues (issues_orElse hd fun _ _ he => allocateLocalIDs_issues hd he) hsame
  | allocateEIDFromFolder fid =>
    exact h.issues (issues_orElse hd fun _ _ he => allocateEIDFromFolder_issues hd he) hsame
  | createFolder parent displayName ntNow =>
    exact h.issues (issues_orElse hd fun _ _ he => createFolder_issues hd he) hsame
  | createMessage fid msg =>
    exact h.issues (issues_orElse hd fun _ _ he => createMessage_issues hd he) hsame
  | importMessageChange folderID mid associated msg =>
    refine ⟨hd,h.messages,h.folders,?_⟩
    intro um hum hold
    rcases List.mem_append.mp hum with hum | hum
    · exact h.pending um hum hold
    · obtain rfl := List.mem_singleton.mp hum
      -- an upload that replaces names a message that was there when it was opened
      simp only [ObjDB.importMessageChange,Option.isNone_eq_false_iff] at hold ⊢
      obtain ⟨m,hm⟩ := Option.isSome_iff_exists.mp hold
      obtain ⟨hmem,hid⟩ := Table.get_eq_some.mp hm
      exact hid ▸ h.messages m hmem
  | commitUpload k =>
    simp only [IdWorld.step]
    split
    · exact h
    rename_i um hk
    refine h.issues (issues_orElse hd ?_) fun u hu => List.mem_of_mem_eraseIdx hu
    intro _ db' he
    obtain ⟨d,hcommit,hp⟩ := map_eq_ok he
    obtain ⟨-,rfl⟩ := Prod.mk.inj hp
    exact commitUpload_issues hd (hc um hk) (h.pending um (List.mem_of_getElem? hk)) hcommit
  | moveMessageImport src srcMID dest dstMID =>
    refine h.issues (issues_orElse hd ?_) hsame
    intro _ db' he
    obtain ⟨d,hmove,hp⟩ := map_eq_ok he
    obtain ⟨-,rfl⟩ := Prod.mk.inj hp
    exact moveMessageImport_issues hd hc hmove
  | importHierarchyChange rootFID hichyvals propvals ntNow =>
    refine h.issues (issues_orElse hd ?_) hsame
    intro _ db' he
    apply importHierarchyChange_issues hd _ he
    intro imp himp
    exact hc imp (by rw [himp]; rfl)

theorem unseeded_idInv (kind : StoreKind) (replica : GUID) :
    IdInv ⟨ObjDB.unseeded kind replica,[]⟩ := by
  refine ⟨⟨?_,?_⟩,?_,?_,?_⟩
  · intro i x hx
    cases i with
    | none => exact Nat.le_of_lt hx.2
    | some fid => exact absurd hx.2 (Nat.not_lt_zero x)
  · intro i j x hi hj
    cases i with
    | none =>
      cases j with
      | none => rfl
      | some fid => exact absurd hj.2 (Nat.not_lt_zero x)
    | some fid => exact absurd hi.2 (Nat.not_lt_zero x)
  · intro m hm
    exact absurd hm (Table.not_mem_empty m)
  · intro r hr
    exact absurd hr (Table.not_mem_empty r)
  · intro um hum
    cases hum

theorem seedFolders_issues {fs : List BuiltinFolder} (hd : db.blocks.Disjoint)
    (hfs : ∀ f∈fs,db.blocks.Avoids StoreOwned f.fid) (h : ObjDB.seedFolders now fs db=.ok db') :
    Issues db db' := by
  induction fs generalizing db with
  | nil =>
    obtain rfl := Except.ok.inj h
    exact .refl hd
  | cons f fs ih =>
    rw [ObjDB.seedFolders] at h
    split at h
    · cases h
    rename_i db₁ h₁
    obtain ⟨hbl,hm,hf⟩ := insertFolder_carves h₁ (allocateRange_blocks db) rfl rfl rfl
      (allocateRange_last _)
    have hadv := Blocks.carve_advance db.blocks allocatedEIDRange (some f.fid)
    have hi : Issues db db₁ := .of_new_folder (hbl ▸ hadv) (hbl ▸ hd.carve _ _) hm hf
      (hbl ▸ (hfs f List.mem_cons_self).advance hadv)
    refine hi.trans (ih hi.disjoint ?_ h)
    intro g hg
    exact (hfs g (List.mem_cons_of_mem f hg)).advance hi.advance

theorem createSearchFolder_issues {parent : Nat} {name : GoString} (hd : db.blocks.Disjoint)
    (hs : db.blocks.Avoids StoreOwned fid) (h : db.createSearchFolder now fid parent name=.ok db') :
    Issues db db' := by
  have hb : db'.blocks=db.blocks.setBlock (some fid) 0 0 := insertFolder_blocks h
  have hadv : Blocks.Advance db.blocks (db.blocks.setBlock (some fid) 0 0) :=
    Blocks.setBlock_advance (.refl _) _ _ _ fun x _ hx => absurd hx (Nat.not_lt_zero x)
  have hdis : (db.blocks.setBlock (some fid) 0 0).Disjoint :=
    hd.setBlock _ _ _ (fun x _ hx => absurd hx (Nat.not_lt_zero x))
      fun x _ hx => absurd hx (Nat.not_lt_zero x)
  obtain ⟨-,-,t,rfl,ht⟩ := insertFolder_ok h
  exact .of_new_folder (hb ▸ hadv) (hb ▸ hdis) rfl (fun r hr => (ht r).mp hr) (hb ▸ hs.advance hadv)

theorem unseeded_avoids {kind : StoreKind} {replica : GUID} (h : fid< customEIDBegin) :
    (ObjDB.unseeded kind replica).blocks.Avoids StoreOwned fid := by
  have h : fid<0x100 := h
  rw [avoids_store]
  simp only [ObjDB.unseeded,ObjDB.maxRangeEnd,List.map_cons,List.foldr_cons]
  omega

theorem Seeded.idInv (h : db.Seeded) : IdInv ⟨db,[]⟩ := by
  obtain ⟨replica,now,h | h⟩ := h
  · have h₀ := unseeded_idInv .storePrivate replica
    have hfs : ∀ f∈builtinFolders,f.fid< customEIDBegin := by decide
    unfold ObjDB.seedMailbox at h
    split at h
    · cases h
    rename_i db₁ h₁
    have hi := seedFolders_issues h₀.disjoint (fun f hf => unseeded_avoids (hfs f hf)) h₁
    have hq : db₁.blocks.Avoids StoreOwned privateFIDSpoolerQueue :=
      (unseeded_avoids (by decide)).advance hi.advance
    exact h₀.issues (hi.trans (createSearchFolder_issues hi.disjoint hq h)) fun _ hu => hu
  · have h₀ := unseeded_idInv .storePublic replica
    have hfs : ∀ f∈builtinPublicFolders,f.fid< customEIDBegin := by decide
    exact h₀.issues
      (seedFolders_issues h₀.disjoint (fun f hf => unseeded_avoids (hfs f hf)) h) fun _ hu => hu

/-- While imported ids are carved and no other folder's, no id is given twice. -/
theorem ids_never_reused (db : ObjDB) (steps : List IdStep) (hseed : db.Seeded)
    (h : Meets IdWorld.step IdWorld.ImportsClear ⟨db,[]⟩ steps) :
    let db' := (runSteps IdWorld.step ⟨db,[]⟩ steps).db
    (∀ fid eid db'',db'.allocateEIDFromFolder fid=.ok (eid,db'') →
      ∀ m∈db'.messages,m.messageId≠eid) ∧ ∀ r∈db'.folders,r.folderId≠db'.allocateEID.1 := by
  intro db'
  have hi : IdInv (runSteps IdWorld.step ⟨db,[]⟩ steps) :=
    h.invariant idInv_step (Seeded.idInv hseed)
  constructor
  · intro fid eid db'' he m hm
    rw [(allocateEIDFromFolder_take he).1]
    exact Blocks.take_ne (Option.some_ne_none fid) (hi.messages m hm)
  · intro r hr
    rw [(allocateEID_take db').1]
    exact Blocks.take_ne (S := StoreOwned) rfl (hi.folders r hr)

theorem ids_never_reused_own_block :
    let db := (runSteps IdWorld.step ⟨seededPublic,[]⟩
      [.importMessageChange 2 0x20005 false ⟨false,false,10⟩,.commitUpload 0]).db
    (∀ fid eid db',db.allocateEIDFromFolder fid=.ok (eid,db') →
      ∀ m∈db.messages,m.messageId≠eid) ∧ ∀ r∈db.folders,r.folderId≠db.allocateEID.1 := by
  apply ids_never_reused seededPublic _ seededPublic_seeded
  refine ⟨trivial,?_,trivial⟩
  intro um hum _
  cases hum
  decide

/-- An upload takes the id folder 3 is about to give: it gives it all the same. -/
theorem ids_reused_after_import :
    let db := (runSteps IdWorld.step ⟨seededPublic,[]⟩
      [.importMessageChange 2 0x30000 false ⟨false,false,10⟩,.commitUpload 0]).db
    (∃ m∈db.messages.rows,m.messageId=0x30000) ∧
      (db.allocateEIDFromFolder 3).toOption.map Prod.fst=some 0x30000 := by
  decide

end HermEX.Objectstore
