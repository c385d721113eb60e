import HermEX.Objectstore.Folder

namespace HermEX.Objectstore

open Framework Mapi

variable {db db' a b c : ObjDB} {x fid p : Nat} {now : UInt64} (s : Store)
  (wire : Nat → Except StoreErr MessageHead) {hichyvals props propvals : PropertyValues} (mid : Nat)
  {res : Except StoreErr Unit} {imp : ObjDB.HierarchyImport} {parent : Option Nat}

theorem mem_links {p : Option Nat} :
    (x,p)∈db.links ↔ ∃ r∈db.folders,r.folderId=x ∧ r.parentId=p := by
  simp [ObjDB.links,Table.mem_rows]

theorem links_functional (db : ObjDB) : db.links.Functional := by
  have h := db.folders.unique
  unfold Links.Functional ObjDB.links
  rw [List.map_map]
  exact h

theorem mem_linkKeys : x∈db.links.map Prod.fst ↔ db.folderExists x=true := by
  unfold ObjDB.folderExists
  rw [Option.isSome_iff_exists]
  constructor
  · intro hx
    obtain ⟨⟨y,p⟩,hy,rfl⟩ := List.mem_map.mp hx
    obtain ⟨r,hr,hid,-⟩ := mem_links.mp hy
    exact ⟨r,Table.get_eq_some.mpr ⟨hr,hid⟩⟩
  · intro ⟨r,hr⟩
    obtain ⟨hr,hid⟩ := Table.get_eq_some.mp hr
    exact List.mem_map.mpr ⟨(x,r.parentId),mem_links.mpr ⟨r,hr,hid,rfl⟩,rfl⟩

theorem links_updateFolder (db : ObjDB) (fid : Nat) (f : FolderRow → FolderRow)
    (hf : ∀ r,(f r).folderId=r.folderId) (hp : ∀ r,(f r).parentId=r.parentId) :
    (db.updateFolder fid f hf).links=db.links := by
  simp only [ObjDB.links,ObjDB.updateFolder,Table.updateWhere,List.map_map]
  apply List.map_congr_left
  intro r _
  simp only [Function.comp_apply]
  split_ifs <;> simp [hf,hp]

theorem links_of_folders_eq (h : db'.folders=db.folders) : db'.links=db.links := by
  rw [ObjDB.links,h,ObjDB.links]

theorem exists_of_links_eq (h : db'.links=db.links) (x : Nat) :
    db'.folderExists x=db.folderExists x := by
  rw [Bool.eq_iff_iff,← mem_linkKeys,← mem_linkKeys,h]

theorem mem_folderSubtreeIDs {ids : List Nat} (h : db.folderSubtreeIDs fid=some ids) (y : Nat) :
    y∈ids ↔ db.folderExists fid=true ∧ db.links.Below fid y := by
  rw [Links.mem_descend h,← mem_linkKeys]
  constructor
  · intro ⟨x,hx,hb⟩
    obtain ⟨⟨z,p⟩,hz,rfl⟩ := List.mem_map.mp hx
    obtain ⟨hmem,hid⟩ := List.mem_filter.mp hz
    obtain rfl : z=fid := by simpa using hid
    exact ⟨List.mem_map.mpr ⟨_,hmem,rfl⟩,hb⟩
  · intro ⟨hx,hb⟩
    obtain ⟨⟨z,p⟩,hz,rfl⟩ := List.mem_map.mp hx
    exact ⟨z,List.mem_map.mpr ⟨(z,p),List.mem_filter.mpr ⟨hz,by simp⟩,rfl⟩,hb⟩

theorem folderSubtreeIDs_isSome (h : db.links.Forest) (fid : Nat) :
    (db.folderSubtreeIDs fid).isSome := by
  apply h.descend_isSome (links_functional db)
  intro x hx
  obtain ⟨y,hy,rfl⟩ := List.mem_map.mp hx
  exact List.mem_map_of_mem (List.mem_filter.mp hy).1

theorem descendantIDs_isSome (h : db.links.Forest) (fid : Nat) : (db.descendantIDs fid).isSome := by
  apply h.descend_isSome (links_functional db)
  intro x hx
  exact List.mem_map_of_mem (Links.mem_children.mp hx)

theorem climbTo_isSome (ancestor : Nat) {d n : Nat} (hd : db.links.Depth x d) (hn : d<n) :
    (db.climbTo ancestor n x).isSome := by
  induction hd generalizing n with
  | @root x mem =>
    obtain ⟨r,hr,hid,hp⟩ := mem_links.mp mem
    have hg : db.folders.get x=some r := Table.get_eq_some.mpr ⟨hr,hid⟩
    cases n with
    | zero => omega
    | succ n =>
      simp only [ObjDB.climbTo,hg,hp]
      split_ifs <;> rfl
  | @child x p d mem _ ih =>
    obtain ⟨r,hr,hid,hp⟩ := mem_links.mp mem
    have hg : db.folders.get x=some r := Table.get_eq_some.mpr ⟨hr,hid⟩
    cases n with
    | zero => omega
    | succ n =>
      have hrest := ih (by omega : d<n)
      simp only [ObjDB.climbTo,hg,hp]
      split_ifs
      · rfl
      · rfl
      · rfl
      · exact hrest

theorem folderIsUnder_isSome (h : db.links.Forest) (fid ancestor : Nat) :
    (db.folderIsUnder fid ancestor).isSome := by
  unfold ObjDB.folderIsUnder
  cases hg : db.folders.get fid with
  | none =>
    simp only [ObjDB.climbTo,hg]
    split_ifs <;> rfl
  | some r =>
    obtain ⟨hr,hid⟩ := Table.get_eq_some.mp hg
    obtain ⟨d,hd⟩ := (h fid r.parentId (mem_links.mpr ⟨r,hr,hid,rfl⟩)).depth
    have hlt := hd.lt_length (links_functional db)
    exact climbTo_isSome ancestor hd (by omega)

theorem climbTo_endless {ancestor : Nat} {S : Nat → Prop}
    (hS : ∀ x,S x → x≠0 ∧ x≠ancestor ∧ ∃ p,p≠x ∧ S p ∧ (x,some p)∈db.links) (n : Nat) (h : S x) :
    db.climbTo ancestor n x=none := by
  induction n generalizing x with
  | zero => rfl
  | succ n ih =>
    obtain ⟨h0,hne,p,hpx,hp,hmem⟩ := hS x h
    obtain ⟨r,hr,hid,hpar⟩ := mem_links.mp hmem
    have hg : db.folders.get x=some r := Table.get_eq_some.mpr ⟨hr,hid⟩
    simp only [ObjDB.climbTo,h0,hne,hg,hpar,hpx]
    exact ih hp

/-- Every climb ends at the root folder. -/
structure ObjDB.IsTree (db : ObjDB) : Prop where
  forest : db.links.Forest
  root : ∀ x,(x,none)∈db.links → x=privateFIDRoot

theorem ObjDB.IsTree.below_root (h : db.IsTree) (hx : db.folderExists x=true) :
    db.links.Below privateFIDRoot x := by
  rw [← mem_linkKeys] at hx
  obtain ⟨⟨y,p⟩,hy,rfl⟩ := List.mem_map.mp hx
  exact (h.forest y p hy).below_root h.root

structure Grows (db db' : ObjDB) : Prop where
  tree : db.IsTree → db'.IsTree
  exist : ∀ x,db.folderExists x=true → db'.folderExists x=true

theorem ObjDB.IsTree.of_links_eq (h : db.IsTree) (heq : db'.links=db.links) : db'.IsTree := by
  constructor
  · rw [heq]
    exact h.forest
  · rw [heq]
    exact h.root

theorem Grows.of_links_eq (h : db'.links=db.links) : Grows db db' :=
  ⟨fun ht => ht.of_links_eq h,fun x hx => by rw [exists_of_links_eq h]; exact hx⟩

theorem Grows.refl (db : ObjDB) : Grows db db := .of_links_eq rfl

theorem Grows.trans (h : Grows a b) (k : Grows b c) : Grows a c :=
  ⟨fun hf => k.tree (h.tree hf),fun x hx => k.exist x (h.exist x hx)⟩

theorem Grows.after (k : Grows b c) (h : b.links=a.links) : Grows a c :=
  (Grows.of_links_eq h).trans k

theorem insertFolder_ok {row : FolderRow} (h : db.insertFolder row=.ok db') :
    db.parentOK row.folderId row.parentId=true ∧
      (∀ r∈db.folders,r.folderId≠row.folderId) ∧
      ∃ t,db'={db with folders:=t} ∧ ∀ r,r∈t ↔ r∈db.folders ∨ r=row := by
  unfold ObjDB.insertFolder at h
  split_ifs at h with hp
  split at h
  · cases h
  · rename_i t ht
    have hi := Table.insert_eq_some ht
    exact ⟨hp,hi.1,t,(Except.ok.inj h).symm,hi.2⟩

theorem insertFolder_grows {row : FolderRow} (h : db.insertFolder row=.ok db')
    (hroot : row.parentId=none → row.folderId=privateFIDRoot)
    (hself : row.parentId=some row.folderId → db.folderExists row.folderId=true) :
    Grows db db' := by
  obtain ⟨hp,hnew,t,rfl,ht⟩ := insertFolder_ok h
  have hmem : ∀ y,y∈ObjDB.links {db with folders:=t} ↔
      y∈db.links ∨ y=(row.folderId,row.parentId) := by
    intro ⟨x,p⟩
    rw [mem_links,mem_links]
    constructor
    · intro ⟨r,hr,hx⟩
      rcases (ht r).mp hr with hr | rfl
      · exact .inl ⟨r,hr,hx⟩
      · exact .inr (by rw [← hx.1,← hx.2])
    · intro hx
      rcases hx with ⟨r,hr,hx⟩ | hx
      · exact ⟨r,(ht r).mpr (.inl hr),hx⟩
      · obtain ⟨rfl,rfl⟩ := Prod.mk.inj hx
        exact ⟨row,(ht row).mpr (.inr rfl),rfl,rfl⟩
  have hparent : ∀ q,row.parentId=some q → q∈db.links.map Prod.fst := by
    intro q hq
    rw [mem_linkKeys]
    rw [hq] at hp
    simp only [ObjDB.parentOK,Bool.or_eq_true,decide_eq_true_eq] at hp
    rcases hp with rfl | hp
    · exact hself hq
    · exact hp
  refine ⟨fun ht => ⟨ht.forest.insert hparent hmem,?_⟩,?_⟩
  · intro x hx
    rcases (hmem _).mp hx with hx | hx
    · exact ht.root x hx
    · obtain ⟨rfl,hn⟩ := Prod.mk.inj hx
      exact hroot hn.symm
  · intro x hx
    rw [← mem_linkKeys] at hx ⊢
    obtain ⟨y,hy,rfl⟩ := List.mem_map.mp hx
    exact List.mem_map_of_mem ((hmem y).mpr (.inl hy))

theorem allocateEID_folders (db : ObjDB) :
    db.allocateEID.2.folders=db.folders ∧
      db.allocateEID.2.lastChangeNumber=db.lastChangeNumber := by
  unfold ObjDB.allocateEID
  split_ifs <;> exact ⟨rfl,rfl⟩

def ObjDB.CanCreate (db : ObjDB) (p : Nat) : Prop := p=db.allocateEID.1 → db.folderExists p=true

instance (db : ObjDB) (p : Nat) : Decidable (db.CanCreate p) := inferInstanceAs (Decidable (_ → _))

theorem ObjDB.CanCreate.of_exists (h : db.folderExists p=true) : db.CanCreate p := fun _ => h

theorem createFolder_ok {name : GoString} (h : db.createFolder parent name now=.ok (fid,db')) :
    fid=db.allocateEID.1 ∧ ∃ (db₁ : ObjDB) (row : FolderRow),db₁.folders=db.folders ∧
      db₁.lastChangeNumber=db.lastChangeNumber+1 ∧ db₁.insertFolder row=.ok db' ∧
      row.folderId=fid ∧ row.parentId=some (parent.getD db.ipmSubtree) ∧
      row.changeNumber=db.lastChangeNumber+1 := by
  obtain ⟨d,hd,he⟩ := map_eq_ok h
  obtain ⟨rfl,rfl⟩ := Prod.mk.inj he
  have hf := allocateEID_folders db
  refine ⟨rfl,_,_,?_,?_,hd,rfl,rfl,?_⟩
  · exact hf.1
  · exact congrArg (·+1) hf.2
  · exact congrArg (·+1) hf.2

theorem createFolder_grows {name : GoString} (h : db.createFolder parent name now=.ok (fid,db'))
    (hc : db.CanCreate (parent.getD db.ipmSubtree)) : Grows db db' ∧ db'.folderExists fid=true := by
  obtain ⟨hfid,db₁,row,hrows,-,hi,rfl,hp,-⟩ := createFolder_ok h
  have hl : db₁.links=db.links := links_of_folders_eq hrows
  have hg : Grows db₁ db' := by
    apply insertFolder_grows hi
    · intro hn
      rw [hp] at hn
      cases hn
    intro hself
    rw [hp,Option.some.injEq] at hself
    rw [exists_of_links_eq hl,← hself]
    exact hc (hself.trans hfid)
  refine ⟨hg.after hl,?_⟩
  obtain ⟨-,-,t,rfl,ht⟩ := insertFolder_ok hi
  rw [← mem_linkKeys]
  exact List.mem_map.mpr ⟨(row.folderId,row.parentId),
    mem_links.mpr ⟨row,(ht row).mpr (.inr rfl),rfl,rfl⟩,rfl⟩

theorem allocateEIDFromFolder_links {eid : Nat} (h : db.allocateEIDFromFolder fid=.ok (eid,db')) :
    db'.links=db.links := by
  unfold ObjDB.allocateEIDFromFolder at h
  split at h
  · cases h
  · split_ifs at h <;> cases h <;> exact links_updateFolder _ _ _ _ fun _ => rfl

theorem createMessage_links {eid : Nat} {msg : MessageHead}
    (h : db.createMessage fid msg=.ok (eid,db')) : db'.links=db.links := by
  obtain ⟨db₁,t,he,rfl,-,-⟩ := createMessage_ok h
  have hl := allocateEIDFromFolder_links he
  exact hl

theorem appendMessage_links (fid : Nat) (msg : MessageHead) (flags : Flags) :
    (s.appendMessage fid msg flags).2.objdb.links=s.objdb.links := by
  unfold Store.appendMessage
  simp only
  split
  · rfl
  · rename_i eid obj h
    have hl := createMessage_links h
    split <;> exact hl

theorem forEach_keeps {α : Type} {P : Store → Prop} {f : α → Store → Except StoreErr Unit×Store}
    {xs : List α} (hf : ∀ x∈xs,∀ s,P s → P (f x s).2) {s : Store} (hs : P s) :
    P (Store.forEach f xs s).2 := by
  induction xs generalizing s with
  | nil => exact hs
  | cons x xs ih =>
    have hx := hf x List.mem_cons_self s hs
    have hxs := fun y hy => hf y (List.mem_cons_of_mem x hy)
    rw [Store.forEach]
    split
    · rename_i e s' he
      rw [he] at hx
      exact hx
    · rename_i s' he
      rw [he] at hx
      exact ih hxs hx

theorem copyMessageTo_links (dst : Nat) (m : IndexMessageRow) (s : Store) :
    (Store.copyMessageTo wire dst m s).2.objdb.links=s.objdb.links := by
  unfold Store.copyMessageTo
  split
  · rfl
  rename_i msg _
  have hl := appendMessage_links s dst msg m.flags
  split
  all_goals
    rename_i he
    rw [he] at hl
    exact hl

theorem copyFolderInto_relates {R : Store → Store → Prop} (ready made : Nat → Store → Prop)
    {wire : Nat → Except StoreErr MessageHead} (refl : ∀ s,R s s)
    (trans : ∀ {a b c},R a b → R b c → R a c)
    (hcreate : ∀ {s : Store} {p newID : Nat} {name : GoString} {obj : ObjDB},ready p s →
      s.objdb.createFolder (some p) name now=.ok (newID,obj) →
        R s {s with objdb:=obj} ∧ made newID {s with objdb:=obj})
    (hcopy : ∀ dst m s,R s (Store.copyMessageTo wire dst m s).2)
    (hmade : ∀ {dst s s'},R s s' → made dst s → made dst s')
    (hready : ∀ {dst s},made dst s → ready dst s) (recursive : Bool) (n src newParent : Nat)
    (name : GoString) (s : Store) (hp : ready newParent s) :
    R s (Store.copyFolderInto wire now recursive n src newParent name s).2 := by
  induction n generalizing recursive src newParent name s with
  | zero => exact refl s
  | succ n ih =>
    -- the subfolders hang under a folder that exists by then
    have hsub : ∀ dst xs s,made dst s → R s (Store.copyFolderInto.copySubfolders
        (Store.copyFolderInto wire now true n) dst xs s).2 := by
      intro dst xs
      induction xs with
      | nil => exact fun s _ => refl s
      | cons x xs ihx =>
        intro s hd
        rw [Store.copyFolderInto.copySubfolders]
        split
        · exact refl s
        · rename_i r _
          have hx := ih true x dst r.displayName s (hready hd)
          split
          · rename_i s' he
            rw [he] at hx
            exact hx
          · rename_i e s' he
            rw [he] at hx
            exact hx
          · rename_i u s' he
            rw [he] at hx
            exact trans hx (ihx s' (hmade hx hd))
    rw [Store.copyFolderInto]
    split
    · exact refl s
    · rename_i newID obj hok
      obtain ⟨hnew,hd⟩ := hcreate hp hok
      simp only
      have hmsgs : R {s with objdb:=obj} (Store.forEach (Store.copyMessageTo wire newID)
          (Store.listMessages {s with objdb:=obj} src) {s with objdb:=obj}).2 :=
        forEach_keeps (fun m _ s' hs' => trans hs' (hcopy newID m s')) (refl _)
      split
      · rename_i e s' he
        rw [he] at hmsgs
        exact trans hnew hmsgs
      · rename_i s' he
        rw [he] at hmsgs
        have hall := trans hnew hmsgs
        split_ifs
        · exact trans hall (hsub newID _ s' (hmade hmsgs hd))
        · exact hall

theorem copyFolderInto_grows (now : UInt64) (recursive : Bool) (n src newParent : Nat)
    (name : GoString) (s : Store) (hc : s.objdb.CanCreate newParent) :
    Grows s.objdb (Store.copyFolderInto wire now recursive n src newParent name s).2.objdb := by
  refine copyFolderInto_relates (R := fun a b : Store => Grows a.objdb b.objdb)
    (fun p s => s.objdb.CanCreate p) (fun p s => s.objdb.folderExists p=true)
    (fun _ => .refl _) Grows.trans ?_ ?_ (fun h => h.exist _) .of_exists
    recursive n src newParent name s hc
  · intro s p newID name obj hp h
    exact createFolder_grows h hp
  · intro dst m s
    exact .of_links_eq (copyMessageTo_links wire dst m s)

theorem copyFolder_grows (now : UInt64) (levels : Nat) (s : Store) (src newParent : Nat)
    (name : GoString) (recursive : Bool) (hc : s.objdb.CanCreate newParent) :
    Grows s.objdb (s.copyFolder wire now levels src newParent name recursive).2.objdb := by
  unfold Store.copyFolder
  split_ifs
  · split
    · exact .refl _
    · split_ifs
      · exact .refl _
      · exact copyFolderInto_grows wire now recursive levels src newParent name s hc
  · exact .refl _

def ObjDB.CanHang (db : ObjDB) (fid p : Nat) : Prop := p≠fid ∧ p∉(db.folderSubtreeIDs fid).getD []

instance (db : ObjDB) (fid p : Nat) : Decidable (db.CanHang fid p) :=
  inferInstanceAs (Decidable (_ ∧ _))

theorem ObjDB.CanHang.not_below (h : db.CanHang fid p) (ht : db.IsTree)
    (hx : db.folderExists fid=true) : ¬db.links.Below fid p := by
  intro hb
  obtain ⟨ids,hids⟩ := Option.isSome_iff_exists.mp (folderSubtreeIDs_isSome ht.forest fid)
  have hp := h.2
  rw [hids] at hp
  exact hp ((mem_folderSubtreeIDs hids p).mpr ⟨hx,hb⟩)

theorem mem_links_reparent (db : ObjDB) (fid p : Nat) (f : FolderRow → FolderRow)
    (hf : ∀ r,(f r).folderId=r.folderId) (hp : ∀ r,(f r).parentId=some p) (y : Nat×Option Nat) :
    y∈(db.updateFolder fid f hf).links ↔
      (y∈db.links ∧ y.1≠fid) ∨ (y=(fid,some p) ∧ fid∈db.links.map Prod.fst) := by
  obtain ⟨x,q⟩ := y
  simp only [mem_links,ObjDB.updateFolder,Table.mem_updateWhere]
  constructor
  · rintro ⟨r',⟨r,hr,he⟩,hx,hq⟩
    subst he
    by_cases hfid : r.folderId=fid
    · simp only [hfid,decide_true,if_true,hf,hp] at hx hq
      subst hx hq
      exact .inr ⟨rfl,List.mem_map.mpr ⟨(r.folderId,r.parentId),mem_links.mpr ⟨r,hr,rfl,rfl⟩,hfid⟩⟩
    · simp only [hfid] at hx hq
      exact .inl ⟨⟨r,hr,hx,hq⟩,hx ▸ hfid⟩
  · intro h
    rcases h with ⟨⟨r,hr,hx,hq⟩,hne⟩ | ⟨he,hmem⟩
    · refine ⟨r,⟨r,hr,?_⟩,hx,hq⟩
      rw [if_neg (by simpa [hx] using hne)]
    · obtain ⟨⟨z,w⟩,hz,hfid⟩ := List.mem_map.mp hmem
      obtain ⟨r,hr,hid,-⟩ := mem_links.mp hz
      obtain ⟨rfl,rfl⟩ := Prod.mk.inj he
      have hrx : r.folderId=x := hid.trans hfid
      refine ⟨f r,⟨r,hr,?_⟩,(hf r).trans hrx,hp r⟩
      rw [if_pos (by simpa using hrx)]

theorem reparent_tree (h : db.IsTree) (f : FolderRow → FolderRow)
    (hf : ∀ r,(f r).folderId=r.folderId) (hp : ∀ r,(f r).parentId=some p)
    (hok : db.parentOK fid (some p)=true) (hx : db.folderExists fid=true) (hc : db.CanHang fid p) :
    (db.updateFolder fid f hf).IsTree := by
  have hmem := mem_links_reparent db fid p f hf hp
  have hpe : p∈db.links.map Prod.fst := by
    rw [mem_linkKeys]
    simp only [ObjDB.parentOK,Bool.or_eq_true,decide_eq_true_eq] at hok
    exact hok.resolve_left hc.1
  refine ⟨h.forest.reparent hpe (hc.not_below h hx) hmem,?_⟩
  intro x hn
  rcases (hmem _).mp hn with ⟨hn,-⟩ | ⟨he,-⟩
  · exact h.root x hn
  · cases (Prod.mk.inj he).2

theorem upsertProps_ok {bag bag' : PropertyValues} (h : upsertProps bag props=.ok bag') :
    bag'=bag.setAll props := by
  unfold upsertProps at h
  split_ifs at h
  exact (Except.ok.inj h).symm

theorem setFolderProperties_ok (h : db.setFolderProperties fid props now=.ok db') :
    ∃ r ps,db.folders.get fid=some r ∧ (∀ p∈ps,p.1=prDisplayName → p∈props) ∧
      db'=db.updateFolder fid (fun x => {x with props:=r.props.setAll ps}) fun _ => rfl := by
  unfold ObjDB.setFolderProperties at h
  simp only at h
  split at h
  · cases h
  rename_i r hr
  obtain ⟨bag,hbag,rfl⟩ := map_eq_ok h
  obtain rfl := upsertProps_ok hbag
  refine ⟨r,_,hr,?_,rfl⟩
  intro p hp hname
  split_ifs at hp
  · exact hp
  · rcases List.mem_append.mp hp with hp | hp
    · exact hp
    · have hne : prLastModificationTime≠prDisplayName := by decide
      rw [List.mem_singleton.mp hp] at hname
      exact absurd hname hne

theorem reparentFolder_ok (h : db.reparentFolder fid p=.ok db') :
    db.parentOK fid (some p)=true ∧ db.folderExists fid=true ∧
      db'=db.updateFolder fid (fun r => {r with parentId:=some p}) fun _ => rfl := by
  unfold ObjDB.reparentFolder at h
  split at h
  · cases h
  · rename_i r hr
    split_ifs at h with hok
    exact ⟨hok,by simp [ObjDB.folderExists,hr],(Except.ok.inj h).symm⟩

theorem setFolderProperties_links (h : db.setFolderProperties fid props now=.ok db') :
    db'.links=db.links := by
  obtain ⟨r,ps,-,-,rfl⟩ := setFolderProperties_ok h
  exact links_updateFolder _ _ _ _ fun _ => rfl

theorem renameCommit_tree (ht : db.IsTree) (name : GoString) (now : UInt64) (hc : db.CanHang fid p) :
    (db.renameCommit fid p name now).2.IsTree := by
  unfold ObjDB.renameCommit
  split
  · exact ht
  · rename_i db₁ h₁
    obtain ⟨hok,hx,rfl⟩ := reparentFolder_ok h₁
    have ht₁ := reparent_tree ht (fun r => {r with parentId:=some p}) (fun _ => rfl)
      (fun _ => rfl) hok hx hc
    split
    · exact ht₁
    · rename_i db₂ h₂
      exact ht₁.of_links_eq (setFolderProperties_links h₂)

theorem importHierarchyChange_ok {rootFID : Nat}
    (h : db.importHierarchyChange rootFID hichyvals propvals now=.ok (fid,db')) :
    ∃ imp,ObjDB.parseHierarchyImport rootFID hichyvals db.replica=.ok imp ∧ fid=imp.fid ∧
      ((∃ r,db.folders.get imp.fid=some r ∧
          db.allocateCN.2.updateImportedFolder imp r db.allocateCN.1 now propvals=.ok db') ∨
        (db.folders.get imp.fid=none ∧
          db.allocateCN.2.insertImportedFolder imp db.allocateCN.1 now propvals=.ok db')) := by
  unfold ObjDB.importHierarchyChange at h
  split at h
  · cases h
  rename_i imp himp
  obtain ⟨d,hd,he⟩ := map_eq_ok h
  obtain ⟨rfl,rfl⟩ := Prod.mk.inj he
  refine ⟨imp,himp,rfl,?_⟩
  split at hd
  · rename_i r hr
    exact .inl ⟨r,hr,hd⟩
  · rename_i hr
    exact .inr ⟨hr,hd⟩

theorem updateImportedFolder_ok {r : FolderRow} {cn : Nat}
    (h : db.updateImportedFolder imp r cn now propvals=.ok db') :
    db.parentOK imp.fid (some imp.parent)=true ∧
      ∃ bag,upsertProps r.props
          (ObjDB.updatedFolderBag db.replica cn now imp.dispName propvals)=.ok bag ∧
        db'=db.updateFolder imp.fid (fun r => {r with
          parentId:=some imp.parent,changeNumber:=cn,props:=bag}) fun _ => rfl := by
  unfold ObjDB.updateImportedFolder at h
  split_ifs at h with hok
  obtain ⟨bag,hbag,rfl⟩ := map_eq_ok h
  exact ⟨hok,bag,hbag,rfl⟩

theorem insertImportedFolder_ok {cn : Nat}
    (h : db.insertImportedFolder imp cn now propvals=.ok db') :
    ∃ bag d,upsertProps [] (ObjDB.newFolderBag db.allocateRange.2 cn now (imp.dispName.getD [])
          propvals).1=.ok bag ∧
      db.allocateRange.2.allocateArticle.2.insertFolder ⟨imp.fid,some imp.parent,cn,false,
        db.allocateRange.1.1,db.allocateRange.1.2,bag⟩=.ok d ∧
      db'=d.advanceStoreEID imp.fid := by
  unfold ObjDB.insertImportedFolder at h
  simp only at h
  split at h
  · cases h
  · rename_i bag hbag
    obtain ⟨d,hd,rfl⟩ := map_eq_ok h
    exact ⟨bag,d,hbag,hd,rfl⟩

theorem advanceStoreEID_links (db : ObjDB) (fid : Nat) :
    (db.advanceStoreEID fid).links=db.links := by
  unfold ObjDB.advanceStoreEID
  split_ifs <;> rfl

theorem importHierarchyChange_tree (ht : db.IsTree) {rootFID : Nat}
    (h : db.importHierarchyChange rootFID hichyvals propvals now=.ok (fid,db'))
    (hc : ∀ imp,ObjDB.parseHierarchyImport rootFID hichyvals db.replica=.ok imp →
      db.CanHang imp.fid imp.parent) : db'.IsTree := by
  obtain ⟨imp,himp,-,hcase⟩ := importHierarchyChange_ok h
  have hhang := hc imp himp
  have ht₁ : db.allocateCN.2.IsTree := ht.of_links_eq rfl
  rcases hcase with ⟨r,hr,hup⟩ | ⟨-,hins⟩
  · obtain ⟨hok,bag,-,rfl⟩ := updateImportedFolder_ok hup
    have hx : db.folderExists imp.fid=true := by simp [ObjDB.folderExists,hr]
    exact reparent_tree ht₁ _ _ (fun _ => rfl) hok hx hhang
  · obtain ⟨bag,d,-,hd,rfl⟩ := insertImportedFolder_ok hins
    have hg := insertFolder_grows hd (fun hn => by cases hn)
      (fun hself => absurd (Option.some.inj hself) hhang.1)
    exact (hg.tree (ht₁.of_links_eq rfl)).of_links_eq (advanceStoreEID_links d imp.fid)

structure SameFolders (db db' : ObjDB) : Prop where
  folders : db'.folders=db.folders
  le : db.lastChangeNumber≤db'.lastChangeNumber

theorem SameFolders.refl (db : ObjDB) : SameFolders db db := ⟨rfl,Nat.le_refl _⟩

theorem SameFolders.trans (h : SameFolders a b) (k : SameFolders b c) : SameFolders a c :=
  ⟨k.folders.trans h.folders,h.le.trans k.le⟩

theorem softDeleteRow_sameFolders (db : ObjDB) (mid : Nat) :
    SameFolders db (db.softDeleteRow mid).2 := by
  unfold ObjDB.softDeleteRow
  simp only
  have hmark : SameFolders db (db.markDeleted mid) := ⟨rfl,Nat.le_succ _⟩
  split
  · exact hmark
  · rename_i db' h
    unfold ObjDB.modifyMessageProperties at h
    split at h
    · cases h
    · obtain rfl := Except.ok.inj h
      exact hmark.trans ⟨rfl,Nat.le_succ _⟩

theorem softDeleteObject_sameFolders : SameFolders s.objdb (s.softDeleteObject mid).2.objdb := by
  unfold Store.softDeleteObject
  split
  · exact .refl _
  split_ifs
  · exact .refl _
  have hs := softDeleteRow_sameFolders s.objdb mid
  unfold Store.softDeleteRow
  split
  · rename_i e obj he
    rw [he] at hs
    exact hs
  · rename_i obj he
    rw [he] at hs
    split <;> exact hs

theorem dumpMessage_sameFolders (s : Store) :
    SameFolders s.objdb (Store.dumpMessage mid s).2.objdb := by
  have hs := softDeleteObject_sameFolders s mid
  unfold Store.dumpMessage
  simp only
  split_ifs
  · exact hs
  · exact hs.trans ⟨rfl,Nat.le_refl _⟩
  · exact hs

theorem dumpsterSubtree_sameFolders (subtree : List Nat) :
    SameFolders s.objdb (s.dumpsterSubtree subtree).2.objdb := by
  unfold Store.dumpsterSubtree
  split
  · exact .refl _
  refine forEach_keeps (P := fun s' : Store => SameFolders s.objdb s'.objdb) ?_ (.refl _)
  intro fid _ s₁ hs₁
  unfold Store.dumpsterFolder
  split_ifs
  · exact hs₁
  · exact forEach_keeps (P := fun s' : Store => SameFolders s.objdb s'.objdb)
      (fun mid _ s₂ hs₂ => hs₂.trans (dumpMessage_sameFolders mid s₂)) hs₁

theorem deleteFolder_cases {s s' : Store} (h : s.deleteFolder fid=some (res,s')) :
    s'.objdb=s.objdb ∨ (s.objdb.isBuiltinFolder fid=false ∧
      ∃ ids,s.objdb.folderSubtreeIDs fid=some ids ∧
        (s'.objdb=(s.dumpsterSubtree ids).2.objdb ∨
          s'.objdb=(s.dumpsterSubtree ids).2.objdb.deleteFolderRows ids)) := by
  unfold Store.deleteFolder at h
  split_ifs at h with hb
  · obtain ⟨-,rfl⟩ := Prod.mk.inj (Option.some.inj h)
    exact .inl rfl
  obtain ⟨ids,hids,h⟩ := Option.map_eq_some_iff.mp h
  split_ifs at h with hnil
  · obtain ⟨-,rfl⟩ := Prod.mk.inj h
    exact .inl rfl
  refine .inr ⟨by simpa using hb,ids,hids,?_⟩
  split at h
  · rename_i e s₁ he
    obtain ⟨-,rfl⟩ := Prod.mk.inj h
    rw [he]
    exact .inl rfl
  · rename_i s₁ he
    obtain ⟨-,rfl⟩ := Prod.mk.inj h
    rw [he]
    exact .inr rfl

theorem deleteFolder_ok {s s' : Store} (h : s.deleteFolder fid=some (res,s')) :
    ∃ obj,SameFolders s.objdb obj ∧ (s'.objdb=obj ∨ ∃ ids,s.objdb.folderSubtreeIDs fid=some ids ∧
      s'.objdb=obj.deleteFolderRows ids) := by
  rcases deleteFolder_cases h with he | ⟨-,ids,hids,he | he⟩
  · exact ⟨_,.refl _,.inl he⟩
  · exact ⟨_,dumpsterSubtree_sameFolders s ids,.inl he⟩
  · exact ⟨_,dumpsterSubtree_sameFolders s ids,.inr ⟨ids,hids,he⟩⟩

theorem mem_links_deleteFolderRows (db : ObjDB) (ids : List Nat) (y : Nat×Option Nat) :
    y∈(db.deleteFolderRows ids).links ↔ y∈db.links ∧ ¬y.1∈ids := by
  obtain ⟨x,p⟩ := y
  simp only [mem_links,ObjDB.deleteFolderRows,Table.mem_deleteWhere,decide_eq_false_iff_not]
  constructor
  · rintro ⟨r,⟨hr,hn⟩,hx,hp⟩
    exact ⟨⟨r,hr,hx,hp⟩,hx ▸ hn⟩
  · rintro ⟨⟨r,hr,hx,hp⟩,hn⟩
    exact ⟨r,⟨hr,hx ▸ hn⟩,hx,hp⟩

theorem deleteFolder_tree {s s' : Store} (ht : s.objdb.IsTree)
    (h : s.deleteFolder fid=some (res,s')) : s'.objdb.IsTree := by
  obtain ⟨obj,hs,hcase⟩ := deleteFolder_ok h
  have hl := links_of_folders_eq hs.folders
  have ht₁ := ht.of_links_eq hl
  rcases hcase with he | ⟨ids,hids,he⟩
  · rw [he]
    exact ht₁
  · rw [he]
    have hmem := mem_links_deleteFolderRows obj ids
    refine ⟨ht₁.forest.remove ?_ hmem,fun x hx => ht₁.root x ((hmem _).mp hx).1⟩
    -- the subtree is closed downwards
    intro x p hx hp
    rw [hl] at hx
    obtain ⟨hex,hb⟩ := (mem_folderSubtreeIDs hids p).mp hp
    exact (mem_folderSubtreeIDs hids x).mpr ⟨hex,hb.tail hx⟩

theorem createGenericFolder_grows {f : BuiltinFolder} (h : db.createGenericFolder now f=.ok db')
    (hroot : f.parent=0 → f.fid=privateFIDRoot) (hself : f.parent≠f.fid) : Grows db db' := by
  unfold ObjDB.createGenericFolder at h
  simp only at h
  have hg := insertFolder_grows h ?_ ?_
  · exact hg.after rfl
  · intro hn
    apply hroot
    by_contra hp
    rw [if_pos hp] at hn
    cases hn
  · intro hs
    split_ifs at hs
    exact absurd (Option.some.inj hs) hself

theorem seedFolders_grows {fs : List BuiltinFolder}
    (hfs : ∀ f∈fs,(f.parent=0 → f.fid=privateFIDRoot) ∧ f.parent≠f.fid)
    (h : ObjDB.seedFolders now fs db=.ok db') : Grows db db' := by
  induction fs generalizing db with
  | nil =>
    obtain rfl := Except.ok.inj h
    exact .refl _
  | cons f fs ih =>
    rw [ObjDB.seedFolders] at h
    split at h
    · cases h
    · rename_i db₁ h₁
      obtain ⟨hroot,hself⟩ := hfs f List.mem_cons_self
      have hg := createGenericFolder_grows h₁ hroot hself
      exact hg.trans (ih (fun g hmem => hfs g (List.mem_cons_of_mem f hmem)) h)

theorem unseeded_tree (kind : StoreKind) (replica : GUID) :
    (ObjDB.unseeded kind replica).IsTree :=
  ⟨fun _ _ h => absurd h List.not_mem_nil,fun _ h => absurd h List.not_mem_nil⟩

def ObjDB.Seeded (db : ObjDB) : Prop :=
  ∃ replica now,ObjDB.seedMailbox replica now=.ok db ∨ ObjDB.seedPublicStore replica now=.ok db

theorem ObjDB.Seeded.isTree (h : db.Seeded) : db.IsTree := by
  obtain ⟨replica,now,h | h⟩ := h
  · unfold ObjDB.seedMailbox at h
    split at h
    · cases h
    rename_i db₁ h₁
    have hg := seedFolders_grows (by decide) h₁
    have hs : Grows db₁ db := by
      refine (insertFolder_grows h ?_ ?_).after rfl
      · intro hn
        cases hn
      · intro hself
        have hne : privateFIDRoot≠privateFIDSpoolerQueue := by decide
        exact absurd (Option.some.inj hself) hne
    exact (hg.trans hs).tree (unseeded_tree _ _)
  · exact (seedFolders_grows (by decide) h).tree (unseeded_tree _ _)

/-- Past its checks, with two transactions to come. -/
structure RenameCall where
  fid : Nat
  parentFID : Nat
  newName : GoString
  ntNow : UInt64

structure TreeWorld where
  store : Store
  pending : List RenameCall

/-- A rename is two steps: others can come between. -/
inductive TreeStep where
  | createFolder (parent : Option Nat) (displayName : GoString) (ntNow : UInt64)
  | renameCheck (fid : Nat) (newParent : Option Nat) (newName : GoString) (ntNow : UInt64)
  | renameCommit (k : Nat)
  | copyFolder (wire : Nat → Except StoreErr MessageHead) (ntNow : UInt64) (levels : Nat)
      (src newParent : Nat) (newName : GoString) (recursive : Bool)
  | deleteFolder (fid : Nat)
  | importHierarchyChange (rootFID : Nat) (hichyvals propvals : PropertyValues) (ntNow : UInt64)

namespace TreeWorld

def step (w : TreeWorld) : TreeStep → TreeWorld
  | .createFolder parent displayName ntNow =>
    match w.store.objdb.createFolder parent displayName ntNow with
    | .error _ => w
    | .ok (_,obj) => {w with store:={w.store with objdb:=obj}}
  | .renameCheck fid newParent newName ntNow =>
    match w.store.objdb.renameTarget fid newParent with
    | some (.ok p) => {w with pending:=w.pending++[⟨fid,p,newName,ntNow⟩]}
    | _ => w
  | .renameCommit k =>
    match w.pending[k]? with
    | none => w
    | some c =>
      let (_,obj) := w.store.objdb.renameCommit c.fid c.parentFID c.newName c.ntNow
      ⟨{w.store with objdb:=obj},w.pending.eraseIdx k⟩
  | .copyFolder wire ntNow levels src newParent newName recursive =>
    {w with store:=(w.store.copyFolder wire ntNow levels src newParent newName recursive).2}
  | .deleteFolder fid =>
    match w.store.deleteFolder fid with
    | none => w
    | some (_,s) => {w with store:=s}
  | .importHierarchyChange rootFID hichyvals propvals ntNow =>
    match w.store.objdb.importHierarchyChange rootFID hichyvals propvals ntNow with
    | .error _ => w
    | .ok (_,obj) => {w with store:={w.store with objdb:=obj}}

/-- No folder is hung under itself or one of its own. -/
def HangsClear (w : TreeWorld) : TreeStep → Prop
  | .createFolder parent _ _ => w.store.objdb.CanCreate (parent.getD w.store.objdb.ipmSubtree)
  | .renameCheck _ _ _ _ => True
  | .renameCommit k => ∀ c∈w.pending[k]?,w.store.objdb.CanHang c.fid c.parentFID
  | .copyFolder _ _ _ _ newParent _ _ => w.store.objdb.CanCreate newParent
  | .deleteFolder _ => True
  | .importHierarchyChange rootFID hichyvals _ _ =>
    ∀ imp∈(ObjDB.parseHierarchyImport rootFID hichyvals w.store.objdb.replica).toOption,
      w.store.objdb.CanHang imp.fid imp.parent

instance (w : TreeWorld) : DecidablePred w.HangsClear
  | .createFolder .. | .copyFolder .. => inferInstanceAs (Decidable (ObjDB.CanCreate _ _))
  | .renameCommit k => inferInstanceAs (Decidable (∀ c∈w.pending[k]?,_))
  | .importHierarchyChange rootFID hichyvals _ _ => inferInstanceAs (Decidable
      (∀ imp∈(ObjDB.parseHierarchyImport rootFID hichyvals w.store.objdb.replica).toOption,_))
  | .renameCheck .. | .deleteFolder _ => isTrue trivial

theorem step_tree (w : TreeWorld) (a : TreeStep) (h : w.store.objdb.IsTree)
    (hc : w.HangsClear a) : (w.step a).store.objdb.IsTree := by
  cases a with
  | createFolder parent displayName ntNow =>
    simp only [step]
    split
    · exact h
    · rename_i fid obj hcreate
      exact (createFolder_grows hcreate hc).1.tree h
  | renameCheck fid newParent newName ntNow =>
    simp only [step]
    split <;> exact h
  | renameCommit k =>
    simp only [step]
    split
    · exact h
    · rename_i c hk
      exact renameCommit_tree h c.newName c.ntNow (hc c hk)
  | copyFolder wire ntNow levels src newParent newName recursive =>
    exact (copyFolder_grows wire ntNow levels w.store src newParent newName recursive hc).tree h
  | deleteFolder fid =>
    simp only [step]
    split
    · exact h
    · rename_i res s hdel
      exact deleteFolder_tree h hdel
  | importHierarchyChange rootFID hichyvals propvals ntNow =>
    simp only [step]
    split
    · exact h
    · rename_i fid obj himp
      apply importHierarchyChange_tree h himp
      intro imp hparse
      exact hc imp (by rw [hparse]; rfl)

end TreeWorld

/-- While folders are hung clear of their subtrees, climbs end at the root and queries return. -/
theorem folder_tree_stays_rooted (db : ObjDB) (idx : IndexDB) (steps : List TreeStep)
    (hseed : db.Seeded) (h : Meets TreeWorld.step TreeWorld.HangsClear ⟨⟨db,idx⟩,[]⟩ steps) :
    let db' := (runSteps TreeWorld.step ⟨⟨db,idx⟩,[]⟩ steps).store.objdb
    db'.links.Forest ∧ (∀ x,db'.folderExists x=true → db'.links.Below privateFIDRoot x) ∧
      (∀ fid ancestor,(db'.folderIsUnder fid ancestor).isSome) ∧
      ∀ fid,(db'.folderSubtreeIDs fid).isSome ∧ (db'.descendantIDs fid).isSome := by
  intro db'
  have ht : db'.IsTree := h.invariant TreeWorld.step_tree hseed.isTree
  refine ⟨ht.forest,fun x hx => ht.below_root hx,folderIsUnder_isSome ht.forest,?_⟩
  intro fid
  exact ⟨folderSubtreeIDs_isSome ht.forest fid,descendantIDs_isSome ht.forest fid⟩

def seededPublic : ObjDB :=
  match ObjDB.seedPublicStore .zero 0 with
  | .ok db => db
  | .error _ => .unseeded .storePublic .zero

theorem seededPublic_seeded : seededPublic.Seeded := ⟨.zero,0,.inr rfl⟩

def twoFolders : List TreeStep :=
  [.createFolder none (goString "A") 1,.createFolder none (goString "B") 2]

def crossedRenames : List TreeStep :=
  twoFolders++[.renameCheck 0x100 (some 0x101) (goString "A") 3,
    .renameCheck 0x101 (some 0x100) (goString "B") 4,.renameCommit 0,.renameCommit 0]

theorem folder_tree_stays_rooted_rename :
    let db := (runSteps TreeWorld.step ⟨⟨seededPublic,.empty⟩,[]⟩
      (twoFolders++[.renameCheck 0x100 (some 0x101) (goString "A") 3,.renameCommit 0])).store.objdb
    db.links.Forest ∧ (∀ x,db.folderExists x=true → db.links.Below privateFIDRoot x) ∧
      (∀ fid ancestor,(db.folderIsUnder fid ancestor).isSome) ∧
      ∀ fid,(db.folderSubtreeIDs fid).isSome ∧ (db.descendantIDs fid).isSome := by
  apply folder_tree_stays_rooted seededPublic .empty _ seededPublic_seeded
  decide

/-- Each folder ends up below the other: no climb ends. -/
theorem folder_tree_crossed_renames :
    let db := (runSteps TreeWorld.step ⟨⟨seededPublic,.empty⟩,[]⟩ crossedRenames).store.objdb
    db.folderExists 0x100=true ∧ ¬db.links.Forest ∧
      (∀ n,db.climbTo publicFIDRoot n 0x100=none) ∧ ∀ n,db.links.descend n [0x100]=none := by
  intro db
  have hab : (0x100,some 0x101)∈db.links := by decide
  have hba : (0x101,some 0x100)∈db.links := by decide
  have hclimb : ∀ n,db.climbTo publicFIDRoot n 0x100=none := by
    intro n
    apply climbTo_endless (S := fun x => x=0x100 ∨ x=0x101) _ n (.inl rfl)
    intro x hx
    rcases hx with rfl | rfl
    · exact ⟨by decide,by decide,0x101,by decide,.inr rfl,hab⟩
    · exact ⟨by decide,by decide,0x100,by decide,.inl rfl,hba⟩
  refine ⟨by decide,?_,hclimb,?_⟩
  · intro hf
    have hsome := folderIsUnder_isSome hf 0x100 publicFIDRoot
    cases hsome
  · intro n
    apply Links.descend_endless (S := fun x => x=0x100 ∨ x=0x101) _ n List.mem_cons_self (.inl rfl)
    intro x hx
    rcases hx with rfl | rfl
    · exact ⟨0x101,.inr rfl,hba⟩
    · exact ⟨0x100,.inl rfl,hab⟩

end HermEX.Objectstore
