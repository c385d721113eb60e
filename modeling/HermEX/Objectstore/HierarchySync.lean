import HermEX.Objectstore.FolderTree
import HermEX.Objectstore.IcsSync

namespace HermEX.Objectstore

open Framework Mapi Ics

structure HierarchySyncRequest where
  folderID : Nat
  given : Option IDSet
  seen : Option IDSet

structure HierarchySyncResult where
  changedFIDs : List Nat
  givenFIDs : List Nat
  deletedFIDs : List Nat
  lastCN : Nat

def folderUpToDate (req : HierarchySyncRequest) (fid cn : Nat) : Bool :=
  (req.given.any fun s => s.contains (makeEIDEx homeReplID fid)) &&
    req.seen.any fun s => s.contains (makeEIDEx homeReplID cn)

def appendDeletedFolders (given : Option IDSet) (existence : List Nat) : List Nat :=
  match given with
  | none => []
  | some s => s.forEachRange.flatMap fun rg =>
    if rg.1≠homeReplID ∧ rg.1≤homeReplID then []
    else (rangeValues rg.2.1 rg.2.2).filter fun v => v∉existence

def ObjDB.subtreeRows (db : ObjDB) (fid : Nat) : Option (List FolderRow) :=
  (db.descendantIDs fid).map fun ids => ids.filterMap db.folders.get

def ObjDB.getHierarchySync (db : ObjDB) (req : HierarchySyncRequest) :
    Option HierarchySyncResult :=
  (db.subtreeRows req.folderID).map fun rows =>
    let existence := (rows.map FolderRow.folderId).dedup
    let changed := rows.filter fun r => !folderUpToDate req r.folderId r.changeNumber
    { changedFIDs:=sortIDs (changed.map FolderRow.folderId)
      givenFIDs:=sortIDs existence
      deletedFIDs:=sortIDs (appendDeletedFolders req.given existence)
      lastCN:=(rows.map FolderRow.changeNumber).foldl max 0 }

/-- The sync root is an empty parent key. -/
structure FolderChange where
  fid : Nat
  parent : Option Nat
  props : PropertyValues

def sentFolderProp (tag : PropTag) : Bool :=
  tag∉ObjDB.folderChangeOmit && !decide (0x8000≤tag.id.toNat) && tag∉[prSourceKey,prParentSourceKey]

def ObjDB.writeFolderChange (db : ObjDB) (rootFID fid : Nat) : Except StoreErr FolderChange :=
  match db.folders.get fid with
  | none => .error .notFound
  | some r => .ok ⟨fid,r.parentId.filter (·≠rootFID),r.props.filter fun p => sentFolderProp p.1⟩

def writeHierarchyState (givenKeep : List Nat) (lastCN : Nat) : SyncState :=
  {newState with
    given:=givenKeep.foldl appendID newState.given
    seen:=appendSeenRange newState.seen lastCN}

structure HierarchyDownload where
  changes : List FolderChange
  deletions : List Nat
  state : SyncState

def ObjDB.newHierarchyDownload (db : ObjDB) (folderID : Nat) (state : SyncState) :
    Option (Except StoreErr HierarchyDownload) :=
  (db.getHierarchySync ⟨folderID,some state.given,some state.seen⟩).map fun res =>
    (res.changedFIDs.mapM (db.writeFolderChange folderID)).map fun changes =>
      ⟨changes,res.deletedFIDs,writeHierarchyState res.givenFIDs res.lastCN⟩

structure FolderView where
  displayName : GoString
  parent : Option Nat
deriving DecidableEq

def FolderRow.view (r : FolderRow) : FolderView := ⟨r.displayName,r.parentId⟩

def FolderChange.view (rootFID : Nat) (c : FolderChange) : FolderView :=
  ⟨(c.props.stringProp prDisplayName).getD [],some (c.parent.getD rootFID)⟩

structure HierarchyClient where
  state : SyncState
  folders : Nat → Option FolderView

def HierarchyClient.fresh : HierarchyClient := ⟨newState,fun _ => none⟩

def FolderChange.apply (rootFID : Nat) (folders : Nat → Option FolderView) (c : FolderChange) :
    Nat → Option FolderView :=
  fun x => if x=c.fid then some (c.view rootFID) else folders x

def HierarchyClient.consume (rootFID : Nat) (d : HierarchyDownload) (c : HierarchyClient) :
    HierarchyClient :=
  let changed := d.changes.foldl (FolderChange.apply rootFID) c.folders
  ⟨d.state,fun x => if x∈d.deletions then none else changed x⟩

def HierarchyClient.given (c : HierarchyClient) (fid : Nat) : Bool :=
  c.state.given.contains (makeEIDEx homeReplID fid)

def ObjDB.InSubtree (db : ObjDB) (rootFID fid : Nat) : Prop :=
  ∃ c,(c,some rootFID)∈db.links ∧ db.links.Below c fid

variable {db : ObjDB} {rootFID : Nat} {name : GoString} {G : Nat → Prop} {r : FolderRow}
  {changes : List FolderChange} {res : Except StoreErr Unit}

theorem mem_subtreeRows {rows : List FolderRow} (h : db.subtreeRows rootFID=some rows)
    (r : FolderRow) :
    r∈rows ↔ r∈db.folders ∧ db.InSubtree rootFID r.folderId := by
  obtain ⟨ids,hids,rfl⟩ := Option.map_eq_some_iff.mp h
  have hin : ∀ x,x∈ids ↔ db.InSubtree rootFID x := by
    intro x
    rw [Links.mem_descend hids]
    simp [ObjDB.InSubtree,ObjDB.childFolderIDs,Links.mem_children]
  rw [List.mem_filterMap]
  constructor
  · intro ⟨x,hx,hg⟩
    obtain ⟨hr,rfl⟩ := Table.get_eq_some.mp hg
    exact ⟨hr,(hin _).mp hx⟩
  · intro ⟨hr,hx⟩
    exact ⟨r.folderId,(hin _).mpr hx,Table.get_key hr⟩

theorem InSubtree.parent (hr : r∈db.folders) (h : db.InSubtree rootFID r.folderId) :
    ∃ p,r.parentId=some p := by
  have hmem : (r.folderId,r.parentId)∈db.links := mem_links.mpr ⟨r,hr,rfl,rfl⟩
  obtain ⟨c,hc,hb⟩ := h
  rcases Relation.ReflTransGen.cases_tail hb with he | ⟨p,-,hp⟩
  · subst he
    exact ⟨rootFID,(links_functional db).parent_eq hmem hc⟩
  · exact ⟨p,(links_functional db).parent_eq hmem hp⟩

theorem foldl_max_le {xs : List Nat} {a b : Nat} : xs.foldl max a≤b ↔ a≤b ∧ ∀ x∈xs,x≤b := by
  induction xs generalizing a with
  | nil => simp
  | cons x xs ih =>
    rw [List.foldl_cons,ih]
    simp [and_assoc]

theorem mem_appendDeletedFolders {s : IDSet} (hs : s.Single homeReplID G) (existence : List Nat)
    (v : Nat) :
    v∈appendDeletedFolders (some s) existence ↔ G v ∧ v∉existence := by
  simp only [appendDeletedFolders,List.mem_flatMap]
  rw [← hs.mem_forEachRange v]
  constructor
  · intro ⟨rg,hrg,hv⟩
    have hhome := hs.replid_forEachRange hrg
    rw [if_neg (by simp [hhome]),List.mem_filter] at hv
    exact ⟨⟨rg,hrg,hv.1⟩,by simpa using hv.2⟩
  · intro ⟨⟨rg,hrg,hv⟩,hn⟩
    have hhome := hs.replid_forEachRange hrg
    refine ⟨rg,hrg,?_⟩
    rw [if_neg (by simp [hhome]),List.mem_filter]
    exact ⟨hv,by simpa using hn⟩

/-- The given folders and the change numbers up to a mark. -/
structure SyncState.HoldsFolders (st : SyncState) (G : Nat → Prop) (a : Nat) : Prop where
  given : st.given.Single homeReplID G
  seen : st.seen.Single homeReplID fun v => 1≤v ∧ v≤a

theorem newState_holdsFolders : newState.HoldsFolders (fun _ => False) 0 :=
  ⟨IDSet.single_new _,single_appendSeenRange 0⟩

theorem writeHierarchyState_holds (keep : List Nat) (cn : Nat) :
    (writeHierarchyState keep cn).HoldsFolders (· ∈ keep) cn := by
  refine ⟨?_,single_appendSeenRange cn⟩
  have h := single_foldl_appendID newState_holds.given keep
  simpa [writeHierarchyState] using h

structure HierarchyDelta (db : ObjDB) (rootFID : Nat) (G : Nat → Prop) (a : Nat)
    (res : HierarchySyncResult) : Prop where
  changed : ∀ x,x∈res.changedFIDs ↔ ∃ r∈db.folders,db.InSubtree rootFID r.folderId ∧
    r.folderId=x ∧ ¬(G x ∧ 1≤ r.changeNumber ∧ r.changeNumber≤a)
  given : ∀ x,x∈res.givenFIDs ↔ ∃ r∈db.folders,db.InSubtree rootFID r.folderId ∧ r.folderId=x
  deleted : ∀ x,x∈res.deletedFIDs ↔ G x ∧ x∉res.givenFIDs
  lastCN : ∀ b,res.lastCN≤b ↔ ∀ r∈db.folders,db.InSubtree rootFID r.folderId → r.changeNumber≤b

theorem hierarchyDelta {st : SyncState} {a : Nat} (hst : st.HoldsFolders G a)
    {res : HierarchySyncResult}
    (h : db.getHierarchySync ⟨rootFID,some st.given,some st.seen⟩=some res) :
    HierarchyDelta db rootFID G a res := by
  obtain ⟨rows,hrows,rfl⟩ := Option.map_eq_some_iff.mp h
  have hmem := mem_subtreeRows hrows
  have hup : ∀ fid cn,folderUpToDate ⟨rootFID,some st.given,some st.seen⟩ fid cn=true ↔
      G fid ∧ 1≤ cn ∧ cn≤a := by
    intro fid cn
    simp only [folderUpToDate,Option.any_some,Bool.and_eq_true]
    rw [hst.given.contains_iff,hst.seen.contains_iff]
  have hgiven : ∀ x,x∈sortIDs (rows.map FolderRow.folderId).dedup ↔
      ∃ r∈db.folders,db.InSubtree rootFID r.folderId ∧ r.folderId=x := by
    intro x
    rw [mem_sortIDs,List.mem_dedup]
    simp [hmem,and_assoc]
  refine ⟨?_,hgiven,?_,?_⟩
  · intro x
    rw [mem_sortIDs,List.mem_map]
    constructor
    · intro ⟨r,hr,hx⟩
      obtain ⟨hr,hn⟩ := List.mem_filter.mp hr
      obtain ⟨hr,hin⟩ := (hmem r).mp hr
      refine ⟨r,hr,hin,hx,?_⟩
      rw [← hx,← hup]
      simpa using hn
    · intro ⟨r,hr,hin,hx,hn⟩
      rw [← hx,← hup] at hn
      exact ⟨r,List.mem_filter.mpr ⟨(hmem r).mpr ⟨hr,hin⟩,by simpa using hn⟩,hx⟩
  · intro x
    rw [mem_sortIDs,mem_appendDeletedFolders hst.given,mem_sortIDs]
  · intro b
    rw [foldl_max_le]
    simp only [Nat.zero_le,true_and,List.forall_mem_map,hmem,and_imp]

theorem stringProp_filter (pv : PropertyValues) (p : PropTag → Bool) (tag : PropTag)
    (h : p tag=true) :
    PropertyValues.stringProp (pv.filter fun x => p x.1) tag=pv.stringProp tag := by
  have hget : PropertyValues.get (pv.filter fun x => p x.1) tag=pv.get tag := by
    induction pv with
    | nil => rfl
    | cons x xs ih =>
      obtain ⟨t,v⟩ := x
      simp only [PropertyValues.get] at ih ⊢
      by_cases ht : tag=t
      · subst ht
        simp [h]
      · by_cases hp : p t=true
        · simp [hp,PropertyValues.lookup_cons,ih]
        · simp [hp,PropertyValues.lookup_cons,ht,ih]
  simp [PropertyValues.stringProp,hget]

theorem writeFolderChange_view (hr : r∈db.folders) (hin : db.InSubtree rootFID r.folderId) :
    ∃ ch,db.writeFolderChange rootFID r.folderId=.ok ch ∧ ch.fid=r.folderId ∧
      ch.view rootFID=r.view := by
  obtain ⟨p,hp⟩ := InSubtree.parent hr hin
  unfold ObjDB.writeFolderChange
  rw [Table.get_key hr]
  refine ⟨_,rfl,rfl,?_⟩
  have hname := stringProp_filter r.props sentFolderProp prDisplayName (by decide)
  simp only [FolderChange.view,FolderRow.view,FolderRow.displayName,hname,hp]
  by_cases he : p=rootFID <;> simp [he,Option.filter]

theorem mapM_ok {α β : Type} {f : α → Except StoreErr β} {xs : List α}
    (h : ∀ x∈xs,∃ y,f x=.ok y) :
    ∃ ys,xs.mapM f=.ok ys ∧ ∀ y,y∈ys ↔ ∃ x∈xs,f x=.ok y := by
  induction xs with
  | nil => exact ⟨[],rfl,by simp⟩
  | cons x xs ih =>
    obtain ⟨y,hy⟩ := h x List.mem_cons_self
    obtain ⟨ys,hys,hmem⟩ := ih fun z hz => h z (List.mem_cons_of_mem x hz)
    refine ⟨y::ys,?_,?_⟩
    · rw [List.mapM_cons,hy,hys]
      rfl
    · intro z
      rw [List.mem_cons,hmem,List.exists_mem_cons_iff,hy,Except.ok.injEq,eq_comm]

theorem foldl_apply_of_not_mem {x : Nat} (h : ∀ ch∈changes,ch.fid≠x) (f : Nat → Option FolderView) :
    changes.foldl (FolderChange.apply rootFID) f x=f x := by
  induction changes generalizing f with
  | nil => rfl
  | cons ch changes ih =>
    rw [List.foldl_cons,ih fun c hc => h c (List.mem_cons_of_mem ch hc)]
    have hne := h ch List.mem_cons_self
    rw [FolderChange.apply,if_neg fun he => hne he.symm]

theorem foldl_apply_of_view {x : Nat} {v : FolderView}
    (h : ∀ ch∈changes,ch.fid=x → ch.view rootFID=v) (f : Nat → Option FolderView)
    (hx : f x=some v ∨ ∃ ch∈changes,ch.fid=x) :
    changes.foldl (FolderChange.apply rootFID) f x=some v := by
  induction changes generalizing f with
  | nil => exact hx.resolve_right fun ⟨_,hc,_⟩ => absurd hc List.not_mem_nil
  | cons ch changes ih =>
    apply ih fun c hc => h c (List.mem_cons_of_mem ch hc)
    by_cases he : x=ch.fid
    · left
      rw [FolderChange.apply,if_pos he,h ch List.mem_cons_self he.symm]
    · rw [FolderChange.apply,if_neg he]
      apply hx.imp_right
      intro ⟨c,hc,hcx⟩
      rcases List.mem_cons.mp hc with rfl | hc
      · exact absurd hcx.symm he
      · exact ⟨c,hc,hcx⟩

structure HierarchyWorld where
  store : Store
  client : HierarchyClient

def HierarchyWorld.download (rootFID : Nat) (w : HierarchyWorld) : Option HierarchyWorld :=
  match w.store.objdb.newHierarchyDownload rootFID w.client.state with
  | some (.ok d) => some {w with client:=w.client.consume rootFID d}
  | _ => none

def HierarchyWorld.Matches (rootFID : Nat) (w : HierarchyWorld) : Prop :=
  ∀ x v,w.client.folders x=some v ↔ ∃ r∈w.store.objdb.folders,
    w.store.objdb.InSubtree rootFID r.folderId ∧ r.folderId=x ∧ r.view=v

/-- A given folder of an acknowledged change number is known. -/
structure HierarchyInv (w : HierarchyWorld) (G : Nat → Prop) (a : Nat) : Prop where
  state : w.client.state.HoldsFolders G a
  known : ∀ x v,w.client.folders x=some v → G x
  synced : ∀ r∈w.store.objdb.folders,G r.folderId → r.changeNumber≤a →
    w.client.folders r.folderId=some r.view
  pos : ∀ r∈w.store.objdb.folders,1≤ r.changeNumber
  bound : ∀ r∈w.store.objdb.folders,r.changeNumber≤w.store.objdb.lastChangeNumber
  mark : a≤w.store.objdb.lastChangeNumber

section Download

variable {rootFID : Nat} {w : HierarchyWorld} {G : Nat → Prop} {a : Nat} {res : HierarchySyncResult}

theorem changes_ok (hd : HierarchyDelta w.store.objdb rootFID G a res) :
    ∃ changes,res.changedFIDs.mapM (w.store.objdb.writeFolderChange rootFID)=.ok changes ∧
      (∀ r∈w.store.objdb.folders,w.store.objdb.InSubtree rootFID r.folderId →
        ∀ ch∈changes,ch.fid=r.folderId → ch.view rootFID=r.view) ∧
      ∀ x,(∃ ch∈changes,ch.fid=x) ↔ x∈res.changedFIDs := by
  have hok : ∀ x∈res.changedFIDs,∃ ch,w.store.objdb.writeFolderChange rootFID x=.ok ch ∧
      ch.fid=x ∧ ∀ r∈w.store.objdb.folders,r.folderId=x → ch.view rootFID=r.view := by
    intro x hx
    obtain ⟨r,hr,hin,rfl,-⟩ := (hd.changed x).mp hx
    obtain ⟨ch,hch,hid,hview⟩ := writeFolderChange_view hr hin
    refine ⟨ch,hch,hid,?_⟩
    intro r' hr' he
    rw [Table.eq_of_key hr' hr he,hview]
  obtain ⟨changes,hch,hmem⟩ := mapM_ok fun x hx => (hok x hx).imp fun _ h => h.1
  have hfid : ∀ ch∈changes,ch.fid∈res.changedFIDs ∧
      ∀ r∈w.store.objdb.folders,r.folderId=ch.fid → ch.view rootFID=r.view := by
    intro ch hc
    obtain ⟨x,hx,hw⟩ := (hmem ch).mp hc
    obtain ⟨ch',hch',hid,hview⟩ := hok x hx
    rw [hw] at hch'
    obtain rfl := Except.ok.inj hch'
    rw [hid]
    exact ⟨hx,hview⟩
  refine ⟨changes,hch,fun r hr _ ch hc he => (hfid ch hc).2 r hr he.symm,?_⟩
  intro x
  constructor
  · intro ⟨ch,hc,he⟩
    exact he ▸ (hfid ch hc).1
  · intro hx
    obtain ⟨ch,hw,hid,-⟩ := hok x hx
    exact ⟨ch,(hmem ch).mpr ⟨x,hx,hw⟩,hid⟩

theorem HierarchyInv.download (h : HierarchyInv w G a)
    (hq : w.store.objdb.getHierarchySync ⟨rootFID,some w.client.state.given,
      some w.client.state.seen⟩=some res) :
    ∃ w',w.download rootFID=some w' ∧ w'.store=w.store ∧ w'.Matches rootFID ∧
      HierarchyInv w' (· ∈ res.givenFIDs) res.lastCN := by
  have hd := hierarchyDelta h.state hq
  obtain ⟨changes,hch,hview,hfid⟩ := changes_ok hd
  let d : HierarchyDownload :=
    ⟨changes,res.deletedFIDs,writeHierarchyState res.givenFIDs res.lastCN⟩
  have hdl : w.store.objdb.newHierarchyDownload rootFID w.client.state=some (.ok d) := by
    unfold ObjDB.newHierarchyDownload
    rw [hq,Option.map_some,hch]
    rfl
  let w' : HierarchyWorld := ⟨w.store,w.client.consume rootFID d⟩
  have hlive : ∀ r∈w.store.objdb.folders,w.store.objdb.InSubtree rootFID r.folderId →
      w'.client.folders r.folderId=some r.view := by
    intro r hr hin
    have hgiven := (hd.given r.folderId).mpr ⟨r,hr,hin,rfl⟩
    have hndel : r.folderId∉res.deletedFIDs := fun hx => ((hd.deleted _).mp hx).2 hgiven
    simp only [w',d,HierarchyClient.consume,if_neg hndel]
    apply foldl_apply_of_view (hview r hr hin)
    by_cases hup : G r.folderId ∧ 1≤ r.changeNumber ∧ r.changeNumber≤a
    · exact .inl (h.synced r hr hup.1 hup.2.2)
    · exact .inr ((hfid _).mpr ((hd.changed _).mpr ⟨r,hr,hin,rfl,hup⟩))
  have hgone : ∀ x,x∉res.givenFIDs → w'.client.folders x=none := by
    intro x hx
    simp only [w',HierarchyClient.consume]
    split_ifs with hdel
    · rfl
    have hnc : ∀ ch∈changes,ch.fid≠x := by
      intro ch hc he
      obtain ⟨r,hr,hin,hrx,-⟩ := (hd.changed x).mp ((hfid x).mp ⟨ch,hc,he⟩)
      exact hx ((hd.given x).mpr ⟨r,hr,hin,hrx⟩)
    rw [foldl_apply_of_not_mem hnc]
    by_contra hne
    obtain ⟨v,hv⟩ := Option.ne_none_iff_exists'.mp hne
    exact hdel ((hd.deleted x).mpr ⟨h.known x v hv,hx⟩)
  have hknown : ∀ x v,w'.client.folders x=some v → x∈res.givenFIDs := by
    intro x v hv
    by_contra hx
    rw [hgone x hx] at hv
    cases hv
  refine ⟨w',by rw [HierarchyWorld.download,hdl],rfl,?_,?_⟩
  · intro x v
    constructor
    · intro hv
      obtain ⟨r,hr,hin,rfl⟩ := (hd.given x).mp (hknown x v hv)
      rw [hlive r hr hin] at hv
      exact ⟨r,hr,hin,rfl,Option.some.inj hv⟩
    · intro ⟨r,hr,hin,hrx,hv⟩
      rw [← hrx,hlive r hr hin,hv]
  · refine ⟨writeHierarchyState_holds _ _,hknown,?_,h.pos,h.bound,?_⟩
    · intro r hr hg _
      obtain ⟨r',hr',hin,he⟩ := (hd.given _).mp hg
      exact hlive r hr (he ▸ hin)
    · exact (hd.lastCN _).mpr fun r hr _ => h.bound r hr

theorem HierarchyInv.download_isSome (h : HierarchyInv w G a)
    (hf : w.store.objdb.links.Forest) : (w.download rootFID).isSome := by
  have hs := descendantIDs_isSome hf rootFID
  obtain ⟨ids,hids⟩ := Option.isSome_iff_exists.mp hs
  have hq : ∃ res,w.store.objdb.getHierarchySync ⟨rootFID,some w.client.state.given,
      some w.client.state.seen⟩=some res := by
    simp only [ObjDB.getHierarchySync,ObjDB.subtreeRows,hids]
    exact ⟨_,rfl⟩
  obtain ⟨res,hres⟩ := hq
  obtain ⟨w',hw',-⟩ := h.download hres
  rw [hw']
  rfl

end Download

/-- There under the same number, looking the same if in `G`, or newly numbered. -/
inductive FolderStamp (G : Nat → Prop) (db db' : ObjDB) (r' : FolderRow) : Prop
  | kept (r : FolderRow) (mem : r∈db.folders) (id : r'.folderId=r.folderId)
      (cn : r'.changeNumber=r.changeNumber) (view : G r.folderId → r'.view=r.view)
  | fresh (lo : db.lastChangeNumber< r'.changeNumber) (hi : r'.changeNumber≤db'.lastChangeNumber)

structure FolderStamped (G : Nat → Prop) (db db' : ObjDB) : Prop where
  le : db.lastChangeNumber≤db'.lastChangeNumber
  rows : ∀ r'∈db'.folders,FolderStamp G db db' r'

section Stamps

variable {G : Nat → Prop}

variable {db db' : ObjDB} {now : UInt64} {fid : Nat} {props : PropertyValues}

theorem SameFolders.stamped (h : SameFolders db db') : FolderStamped G db db' := by
  refine ⟨h.le,?_⟩
  rw [h.folders]
  intro r hr
  exact .kept r hr rfl rfl fun _ => rfl

theorem FolderStamped.refl (db : ObjDB) : FolderStamped G db db := (SameFolders.refl db).stamped

theorem FolderStamped.trans {a b c : ObjDB} (h : FolderStamped G a b) (k : FolderStamped G b c) :
    FolderStamped G a c := by
  refine ⟨h.le.trans k.le,?_⟩
  intro r hr
  cases k.rows r hr with
  | kept r₁ mem id cn view =>
    cases h.rows r₁ mem with
    | kept r₀ mem₀ id₀ cn₀ view₀ =>
      refine .kept r₀ mem₀ (id.trans id₀) (cn.trans cn₀) ?_
      intro hg
      exact (view (id₀ ▸ hg)).trans (view₀ hg)
    | fresh lo hi => exact .fresh (cn ▸ lo) (cn ▸ hi.trans k.le)
  | fresh lo hi => exact .fresh (Nat.lt_of_le_of_lt h.le lo) hi

theorem insertFolder_stamped {db₀ : ObjDB} {row : FolderRow} (h : db.insertFolder row=.ok db')
    (hf : db.folders=db₀.folders) (hle : db₀.lastChangeNumber≤db.lastChangeNumber)
    (hlo : db₀.lastChangeNumber< row.changeNumber) (hhi : row.changeNumber≤db.lastChangeNumber) :
    FolderStamped G db₀ db' := by
  obtain ⟨-,-,t,rfl,ht⟩ := insertFolder_ok h
  refine ⟨hle,?_⟩
  intro r hr
  rcases (ht r).mp hr with hr | rfl
  · exact .kept r (hf ▸ hr) rfl rfl fun _ => rfl
  · exact .fresh hlo hhi

theorem updateFolder_stamped (db : ObjDB) (fid : Nat) (f : FolderRow → FolderRow)
    (hf : ∀ r,(f r).folderId=r.folderId) (hcn : ∀ r,(f r).changeNumber=r.changeNumber)
    (hview : ∀ r∈db.folders,r.folderId=fid → G fid → (f r).view=r.view) :
    FolderStamped G db (db.updateFolder fid f hf) := by
  refine ⟨Nat.le_refl _,?_⟩
  intro r' hr'
  obtain ⟨r,hr,⟨hfid,rfl⟩ | ⟨-,rfl⟩⟩ := mem_updateFolder db fid f hf hr'
  · exact .kept r hr (hf r) (hcn r) fun hg => hview r hr hfid (hfid ▸ hg)
  · exact .kept r' hr rfl rfl fun _ => rfl

theorem createFolder_stamped {parent : Option Nat}
    (h : db.createFolder parent name now=.ok (fid,db')) : FolderStamped G db db' := by
  obtain ⟨-,db₁,row,hf,hlast,hi,-,-,hcn⟩ := createFolder_ok h
  exact insertFolder_stamped hi hf (by omega) (by omega) (by omega)

theorem displayName_setAll (h : ∀ p∈props,p.1=prDisplayName → p.2=.string r.displayName) :
    {r with props:=r.props.setAll props}.displayName=r.displayName := by
  simp only [FolderRow.displayName,PropertyValues.stringProp,PropertyValues.get_setAll]
  cases hl : props.reverse.lookup prDisplayName with
  | none => rfl
  | some v =>
    obtain ⟨l₁,l₂,hp⟩ := List.lookup_eq_some_iff.mp hl
    have hmem : (prDisplayName,v)∈props := by
      rw [← List.mem_reverse,hp.1]
      simp
    have hv := h _ hmem rfl
    subst hv
    rfl

theorem setFolderProperties_stamped (h : db.setFolderProperties fid props now=.ok db')
    (hc : ∀ r∈db.folders,r.folderId=fid → G fid →
      ∀ p∈props,p.1=prDisplayName → p.2=.string r.displayName) : FolderStamped G db db' := by
  obtain ⟨r,ps,hr,hps,rfl⟩ := setFolderProperties_ok h
  refine updateFolder_stamped db fid _ _ (fun _ => rfl) ?_
  intro x hx hid hg
  have hxr : x=r := Option.some.inj ((hid ▸ Table.get_key hx).symm.trans hr)
  subst hxr
  have hname := displayName_setAll fun p hp he => hc x hx hid hg p (hps p hp he) he
  simp [FolderRow.view,hname]

theorem renameCommit_stamped {p : Nat}
    (hc : ∀ r∈db.folders,r.folderId=fid → G fid → r.parentId=some p ∧ r.displayName=name) :
    FolderStamped G db (db.renameCommit fid p name now).2 := by
  unfold ObjDB.renameCommit
  split
  · exact .refl db
  rename_i db₁ h₁
  obtain ⟨-,-,rfl⟩ := reparentFolder_ok h₁
  have hs : FolderStamped G db (db.updateFolder fid (fun r => {r with parentId:=some p})
      fun _ => rfl) := by
    refine updateFolder_stamped db fid _ _ (fun _ => rfl) ?_
    intro r hr hid hg
    rw [FolderRow.view,FolderRow.view,(hc r hr hid hg).1]
    rfl
  split
  · exact hs
  rename_i db₂ h₂
  refine hs.trans (setFolderProperties_stamped h₂ ?_)
  intro r' hr' hid hg q hq _
  obtain rfl := List.mem_singleton.mp hq
  obtain ⟨r,hr,⟨hfid,rfl⟩ | ⟨hne,rfl⟩⟩ := mem_updateFolder db fid _ _ hr'
  · exact congrArg Value.string (hc r hr hfid hg).2.symm
  · exact absurd hid hne

theorem importHierarchyChange_stamped {hichyvals propvals : PropertyValues}
    (h : db.importHierarchyChange rootFID hichyvals propvals now=.ok (fid,db')) :
    FolderStamped G db db' := by
  obtain ⟨imp,-,-,⟨r,-,hup⟩ | ⟨-,hins⟩⟩ := importHierarchyChange_ok h
  · obtain ⟨-,bag,-,rfl⟩ := updateImportedFolder_ok hup
    refine ⟨Nat.le_succ _,?_⟩
    intro r' hr'
    obtain ⟨x,hx,⟨-,rfl⟩ | ⟨-,rfl⟩⟩ := mem_updateFolder db.allocateCN.2 imp.fid _ _ hr'
    · exact .fresh (Nat.lt_succ_self _) (Nat.le_refl _)
    · exact .kept r' hx rfl rfl fun _ => rfl
  · obtain ⟨bag,d,-,hd,rfl⟩ := insertImportedFolder_ok hins
    have hs : FolderStamped G db d := insertFolder_stamped hd rfl (Nat.le_succ _)
      (Nat.lt_succ_self _) (Nat.le_refl _)
    have hadv : SameFolders d (d.advanceStoreEID imp.fid) := by
      unfold ObjDB.advanceStoreEID
      split_ifs
      · exact ⟨rfl,Nat.le_refl _⟩
      · exact .refl d
    exact hs.trans hadv.stamped

theorem deleteFolder_stamped {s s' : Store} (h : s.deleteFolder fid=some (res,s')) :
    FolderStamped G s.objdb s'.objdb := by
  obtain ⟨obj,hs,he | ⟨ids,-,he⟩⟩ := deleteFolder_ok h
  · rw [he]
    exact hs.stamped
  · rw [he]
    refine hs.stamped.trans ⟨Nat.le_refl _,?_⟩
    intro r hr
    exact .kept r (Table.mem_deleteWhere.mp hr).1 rfl rfl fun _ => rfl

theorem seedFolders_stamped {fs : List BuiltinFolder} (h : ObjDB.seedFolders now fs db=.ok db') :
    FolderStamped G db db' := by
  induction fs generalizing db with
  | nil =>
    obtain rfl := Except.ok.inj h
    exact .refl _
  | cons f fs ih =>
    rw [ObjDB.seedFolders] at h
    split at h
    · cases h
    · rename_i db₁ h₁
      have hs : FolderStamped G db db₁ := insertFolder_stamped h₁ rfl (Nat.le_succ _)
        (Nat.lt_succ_self _) (Nat.le_refl _)
      exact hs.trans (ih h)

end Stamps

inductive HierarchyStep where
  | createFolder (parent : Option Nat) (displayName : GoString) (ntNow : UInt64)
  | renameFolder (fid : Nat) (newParent : Option Nat) (newName : GoString) (ntNow : UInt64)
  | setFolderName (fid : Nat) (newName : GoString) (ntNow : UInt64)
  | setFolderProperties (fid : Nat) (props : PropertyValues) (ntNow : UInt64)
  | deleteFolder (fid : Nat)
  | importHierarchyChange (rootFID : Nat) (hichyvals propvals : PropertyValues) (ntNow : UInt64)
  | download

def Store.folderWrite (s : Store) : HierarchyStep → Store
  | .createFolder parent displayName ntNow =>
    match s.objdb.createFolder parent displayName ntNow with
    | .error _ => s
    | .ok (_,obj) => {s with objdb:=obj}
  | .renameFolder fid newParent newName ntNow =>
    match s.objdb.renameFolder fid newParent newName ntNow with
    | none => s
    | some (_,obj) => {s with objdb:=obj}
  | .setFolderName fid newName ntNow =>
    match s.objdb.setFolderName fid newName ntNow with
    | .error _ => s
    | .ok obj => {s with objdb:=obj}
  | .setFolderProperties fid props ntNow =>
    match s.objdb.setFolderProperties fid props ntNow with
    | .error _ => s
    | .ok obj => {s with objdb:=obj}
  | .deleteFolder fid =>
    match s.deleteFolder fid with
    | none => s
    | some (_,s) => s
  | .importHierarchyChange rootFID hichyvals propvals ntNow =>
    match s.objdb.importHierarchyChange rootFID hichyvals propvals ntNow with
    | .error _ => s
    | .ok (_,obj) => {s with objdb:=obj}
  | .download => s

def HierarchyWorld.step (rootFID : Nat) (w : HierarchyWorld) : HierarchyStep → HierarchyWorld
  | .download => (w.download rootFID).getD w
  | a => {w with store:=w.store.folderWrite a}

/-- Given folders change name or parent under a fresh number only. -/
def HierarchyWorld.Stamps (w : HierarchyWorld) : HierarchyStep → Prop
  | .renameFolder fid newParent newName _ => ∀ r∈w.store.objdb.folders.get fid,
      w.client.given fid=true → w.store.objdb.isBuiltinFolder fid=false →
        r.parentId=some (newParent.getD w.store.objdb.ipmSubtree) ∧ r.displayName=newName
  | .setFolderName fid newName _ => ∀ r∈w.store.objdb.folders.get fid,
      w.client.given fid=true → r.displayName=newName
  | .setFolderProperties fid props _ => ∀ r∈w.store.objdb.folders.get fid,
      w.client.given fid=true → ∀ p∈props,p.1=prDisplayName → p.2=.string r.displayName
  | _ => True

theorem renameFolder_ok {db' : ObjDB} {fid : Nat} {newParent : Option Nat} {now : UInt64}
    (h : db.renameFolder fid newParent name now=some (res,db')) :
    db'=db ∨ (db.isBuiltinFolder fid=false ∧
      db'=(db.renameCommit fid (newParent.getD db.ipmSubtree) name now).2) := by
  obtain ⟨t,ht,he⟩ := Option.map_eq_some_iff.mp h
  cases t with
  | error e => exact .inl (Prod.mk.inj he).2.symm
  | ok p =>
    right
    unfold ObjDB.renameTarget at ht
    split_ifs at ht with hb
    · cases ht
    refine ⟨by simpa using hb,?_⟩
    cases newParent with
    | none =>
      obtain rfl := Except.ok.inj (Option.some.inj ht)
      exact (congrArg Prod.snd he).symm
    | some q =>
      obtain ⟨ids,-,hq⟩ := Option.map_eq_some_iff.mp ht
      split_ifs at hq
      obtain rfl := Except.ok.inj hq
      exact (congrArg Prod.snd he).symm

theorem folderWrite_stamped (w : HierarchyWorld) (a : HierarchyStep) (hc : w.Stamps a) :
    FolderStamped (fun x => w.client.given x=true) w.store.objdb (w.store.folderWrite a).objdb := by
  have hget : ∀ {r : FolderRow} {fid : Nat},r∈w.store.objdb.folders → r.folderId=fid →
      r∈w.store.objdb.folders.get fid := fun hr hid => Table.get_eq_some.mpr ⟨hr,hid⟩
  cases a with
  | createFolder parent displayName ntNow =>
    simp only [Store.folderWrite]
    split
    · exact .refl _
    · exact createFolder_stamped (by assumption)
  | renameFolder fid newParent newName ntNow =>
    simp only [Store.folderWrite]
    split
    · exact .refl _
    rename_i res obj hren
    rcases renameFolder_ok hren with rfl | ⟨hb,rfl⟩
    · exact .refl _
    · apply renameCommit_stamped
      intro r hr hid hg
      exact hc r (hget hr hid) hg hb
  | setFolderName fid newName ntNow =>
    have hname : ∀ obj,w.store.objdb.setFolderProperties fid [(prDisplayName,.string newName)]
        ntNow=.ok obj → FolderStamped (fun x => w.client.given x=true) w.store.objdb obj := by
      intro obj hset
      apply setFolderProperties_stamped hset
      intro r hr hid hg p hp _
      obtain rfl := List.mem_singleton.mp hp
      exact congrArg Value.string (hc r (hget hr hid) hg).symm
    simp only [Store.folderWrite]
    split
    · exact .refl _
    rename_i obj hset
    unfold ObjDB.setFolderName at hset
    split at hset
    · cases hset
    split at hset
    · cases hset
    split at hset
    · split_ifs at hset
      exact hname obj hset
    · exact hname obj hset
  | setFolderProperties fid props ntNow =>
    simp only [Store.folderWrite]
    split
    · exact .refl _
    · rename_i obj hset
      apply setFolderProperties_stamped hset
      intro r hr hid hg
      exact hc r (hget hr hid) hg
  | deleteFolder fid =>
    simp only [Store.folderWrite]
    split
    · exact .refl _
    · exact deleteFolder_stamped (by assumption)
  | importHierarchyChange rootFID hichyvals propvals ntNow =>
    simp only [Store.folderWrite]
    split
    · exact .refl _
    · exact importHierarchyChange_stamped (by assumption)
  | download => exact .refl _

theorem HierarchyInv.write {w : HierarchyWorld} {a : Nat} (h : HierarchyInv w G a) {s : Store}
    (hs : FolderStamped G w.store.objdb s.objdb) :
    HierarchyInv {w with store:=s} G a := by
  refine ⟨h.state,h.known,?_,?_,?_,h.mark.trans hs.le⟩
  · intro r' hr' hg hle
    cases hs.rows r' hr' with
    | kept r mem id cn view =>
      rw [id] at hg ⊢
      rw [view hg]
      exact h.synced r mem hg (cn ▸ hle)
    | fresh lo hi =>
      have := h.mark
      omega
  · intro r' hr'
    cases hs.rows r' hr' with
    | kept r mem id cn view => exact cn ▸ h.pos r mem
    | fresh lo hi => omega
  · intro r' hr'
    cases hs.rows r' hr' with
    | kept r mem id cn view => exact cn ▸ (h.bound r mem).trans hs.le
    | fresh lo hi => exact hi

theorem hierarchyInv_step (rootFID : Nat) (w : HierarchyWorld) (a : HierarchyStep)
    (h : ∃ G n,HierarchyInv w G n) (hc : w.Stamps a) :
    ∃ G n,HierarchyInv (w.step rootFID a) G n := by
  obtain ⟨G,n,hi⟩ := h
  have hG : (fun x => w.client.given x=true)=G := by
    funext x
    exact propext (hi.state.given.contains_iff x)
  have hwrite := folderWrite_stamped w a hc
  rw [hG] at hwrite
  cases a with
  | download =>
    cases hq : w.store.objdb.getHierarchySync ⟨rootFID,some w.client.state.given,
        some w.client.state.seen⟩ with
    | none =>
      have hn : w.step rootFID .download=w := by
        simp [HierarchyWorld.step,HierarchyWorld.download,ObjDB.newHierarchyDownload,hq]
      rw [hn]
      exact ⟨G,n,hi⟩
    | some res =>
      obtain ⟨w',hw',-,-,hinv⟩ := hi.download hq
      rw [HierarchyWorld.step,hw']
      exact ⟨_,_,hinv⟩
  | _ => exact ⟨G,n,hi.write hwrite⟩

theorem Seeded.hierarchyInv (h : db.Seeded) (idx : IndexDB) :
    HierarchyInv ⟨⟨db,idx⟩,.fresh⟩ (fun _ => False) 0 := by
  have hs : ∃ kind replica,FolderStamped (fun _ => False) (ObjDB.unseeded kind replica) db := by
    obtain ⟨replica,now,h | h⟩ := h
    · unfold ObjDB.seedMailbox at h
      split at h
      · cases h
      · rename_i db₁ h₁
        have hlast : FolderStamped (fun _ => False) db₁ db := insertFolder_stamped h rfl
          (Nat.le_succ _) (Nat.lt_succ_self _) (Nat.le_refl _)
        exact ⟨_,_,(seedFolders_stamped h₁).trans hlast⟩
    · exact ⟨_,_,seedFolders_stamped h⟩
  obtain ⟨kind,replica,hs⟩ := hs
  have h₀ : HierarchyInv ⟨⟨ObjDB.unseeded kind replica,idx⟩,.fresh⟩ (fun _ => False) 0 := by
    refine ⟨newState_holdsFolders,?_,?_,?_,?_,Nat.zero_le _⟩
    · intro x v hv
      cases hv
    all_goals
      intro r hr
      exact absurd hr (Table.not_mem_empty r)
  exact h₀.write hs

/-- While changes of given folders are stamped, a download that ends leaves the live subtree. -/
theorem hierarchySync_complete (rootFID : Nat) (db : ObjDB) (idx : IndexDB)
    (steps : List HierarchyStep) (hseed : db.Seeded)
    (h : Meets (HierarchyWorld.step rootFID) HierarchyWorld.Stamps ⟨⟨db,idx⟩,.fresh⟩ steps) :
    let w := runSteps (HierarchyWorld.step rootFID) ⟨⟨db,idx⟩,.fresh⟩ steps
    (∀ w',w.download rootFID=some w' → w'.store=w.store ∧ w'.Matches rootFID) ∧
      (w.store.objdb.links.Forest → (w.download rootFID).isSome) := by
  intro w
  obtain ⟨G,a,hi⟩ : ∃ G a,HierarchyInv w G a :=
    h.invariant (hierarchyInv_step rootFID) ⟨_,_,Seeded.hierarchyInv hseed idx⟩
  refine ⟨?_,hi.download_isSome⟩
  intro w' hw'
  cases hq : w.store.objdb.getHierarchySync ⟨rootFID,some w.client.state.given,
      some w.client.state.seen⟩ with
  | none => simp [HierarchyWorld.download,ObjDB.newHierarchyDownload,hq] at hw'
  | some res =>
    obtain ⟨w'',hw'',hstore,hm,-⟩ := hi.download hq
    rw [hw'] at hw''
    cases hw''
    exact ⟨hstore,hm⟩

theorem hierarchySync_complete_before_given :
    let w := runSteps (HierarchyWorld.step publicFIDIPMSubtree) ⟨⟨seededPublic,.empty⟩,.fresh⟩
      [.download,.createFolder none (goString "A") 1,.renameFolder 0x100 none (goString "B") 2]
    (∀ w',w.download publicFIDIPMSubtree=some w' →
      w'.store=w.store ∧ w'.Matches publicFIDIPMSubtree) ∧
      (w.store.objdb.links.Forest → (w.download publicFIDIPMSubtree).isSome) := by
  apply hierarchySync_complete publicFIDIPMSubtree seededPublic .empty _ seededPublic_seeded
  refine ⟨trivial,trivial,?_,trivial⟩
  intro r _ hg
  cases hg

/-- A folder renamed later keeps its old name at the client. -/
theorem hierarchySync_rename_unsent :
    let w := runSteps (HierarchyWorld.step publicFIDIPMSubtree) ⟨⟨seededPublic,.empty⟩,.fresh⟩
      [.createFolder none (goString "A") 1,.download,.renameFolder 0x100 none (goString "B") 2]
    ∃ w',w.download publicFIDIPMSubtree=some w' ∧
      w'.client.folders 0x100=some ⟨goString "A",some publicFIDIPMSubtree⟩ ∧
      (w'.store.objdb.folders.get 0x100).map FolderRow.view=
        some ⟨goString "B",some publicFIDIPMSubtree⟩ :=
  ⟨_,rfl,by decide,by decide⟩

end HermEX.Objectstore
