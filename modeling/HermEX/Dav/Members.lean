import HermEX.Dav.Objects
import HermEX.Framework.Versions
import HermEX.Objectstore.ContentSync
import HermEX.Objectstore.Identity

namespace HermEX.Dav

open Framework Objectstore

def memberOf (name : Bytes) (r : MessageRow) : Option (Member Nat Bytes) :=
  if r.isAssociated then none else some ⟨r.parentFid,name,r.changeNumber,r.isDeleted⟩

def Site.member (P : Protocol) (s : Site) (id : Nat) : Option (Member Nat Bytes) :=
  (s.db.messages.get id).bind (memberOf (s.objectName P.ext id))

def Site.DistinctNames (P : Protocol) (s : Site) (fid : Nat) : Prop :=
  ∀ o∈s.db.listFolderObjects fid,∀ o'∈s.db.listFolderObjects fid,
    s.objectName P.ext o.id=s.objectName P.ext o'.id → o=o'

instance (P : Protocol) (s : Site) (fid : Nat) : Decidable (s.DistinctNames P fid) :=
  inferInstanceAs (Decidable (∀ o∈s.db.listFolderObjects fid,∀ o'∈s.db.listFolderObjects fid,_))

variable {name : Bytes} {s' : Site}

section View

variable {P : Protocol} {s : Site}

variable {id fid : Nat} {m : Member Nat Bytes} {o : FolderObject}

theorem member_eq_some :
    s.member P id=some m ↔ ∃ r∈s.db.messages,r.messageId=id ∧ r.isAssociated=false ∧
      m=⟨r.parentFid,s.objectName P.ext id,r.changeNumber,r.isDeleted⟩ := by
  simp only [Site.member,Option.bind_eq_some_iff,Table.get_eq_some,memberOf]
  constructor
  · rintro ⟨r,⟨hr,hid⟩,hm⟩
    split_ifs at hm with ha
    exact ⟨r,hr,hid,by simpa using ha,(Option.some.inj hm).symm⟩
  · rintro ⟨r,hr,hid,ha,rfl⟩
    exact ⟨r,⟨hr,hid⟩,by simp [ha]⟩

theorem member_congr (hdb : s'.db=s.db) (hnames : s'.resourceName=s.resourceName) :
    s'.member P=s.member P := by
  unfold Site.member Site.objectName
  rw [hdb,hnames]

theorem member_name (h : s.member P id=some m) : m.name=s.objectName P.ext id := by
  obtain ⟨r,-,-,-,rfl⟩ := member_eq_some.mp h
  rfl

theorem member_version (hs : StampsBounded s.db) (h : s.member P id=some m) :
    1 ≤ m.version ∧ m.version ≤ s.db.lastChangeNumber := by
  obtain ⟨r,hr,-,-,rfl⟩ := member_eq_some.mp h
  exact hs.cn r hr

theorem mem_folderRows {db : ObjDB} {r : MessageRow} :
    r∈db.folderRows fid ↔ r∈db.messages ∧ r.parentFid=fid ∧ r.isAssociated=false := by
  simp [ObjDB.folderRows,← Table.mem_rows]

theorem mem_listFolderObjects :
    o∈s.db.listFolderObjects fid ↔
      LiveAt (s.member P) fid o.id ⟨fid,s.objectName P.ext o.id,o.changeNumber,false⟩ := by
  simp only [ObjDB.listFolderObjects,List.mem_map,List.mem_filter,mem_folderRows]
  constructor
  · rintro ⟨r,⟨⟨hr,hp,ha⟩,hd⟩,rfl⟩
    refine ⟨member_eq_some.mpr ⟨r,hr,rfl,ha,?_⟩,rfl,rfl⟩
    simp only [Bool.not_eq_true'] at hd
    rw [hp,hd]
  · intro h
    obtain ⟨r,hr,hid,ha,hm⟩ := member_eq_some.mp h.item
    injection hm with hp _ hc hd
    exact ⟨r,⟨⟨hr,hp.symm,ha⟩,by simp [← hd]⟩,by rw [hid,← hc]⟩

theorem mem_deletedObjectsSince {τ : Nat} :
    o∈s.db.deletedObjectsSince fid τ ↔
      s.member P o.id=some ⟨fid,s.objectName P.ext o.id,o.changeNumber,true⟩ ∧
        τ<o.changeNumber := by
  simp only [ObjDB.deletedObjectsSince,List.mem_map,List.mem_filter,mem_folderRows,
    Bool.and_eq_true,decide_eq_true_eq]
  constructor
  · rintro ⟨r,⟨⟨hr,hp,ha⟩,hd,hlt⟩,rfl⟩
    refine ⟨member_eq_some.mpr ⟨r,hr,rfl,ha,?_⟩,hlt⟩
    rw [hp,hd]
  · rintro ⟨h,hlt⟩
    obtain ⟨r,hr,hid,ha,hm⟩ := member_eq_some.mp h
    injection hm with hp _ hc hd
    exact ⟨r,⟨⟨hr,hp.symm,ha⟩,hd.symm,hc ▸ hlt⟩,by rw [hid,← hc]⟩

theorem LiveAt.listed (h : LiveAt (s.member P) fid id m) :
    (⟨id,m.version⟩ : FolderObject)∈s.db.listFolderObjects fid ∧ m.name=s.objectName P.ext id := by
  have hn := member_name h.item
  obtain ⟨coll,name,version,deleted⟩ := m
  obtain rfl : coll=fid := h.coll
  obtain rfl : deleted=false := h.live
  obtain rfl : name=s.objectName P.ext id := hn
  exact ⟨mem_listFolderObjects.mpr h,rfl⟩

theorem member_buried {τ : Nat} (h : s.member P id=some m) (hc : m.coll=fid)
    (hd : m.deleted=true) (hv : τ < m.version) :
    (⟨id,m.version⟩ : FolderObject)∈s.db.deletedObjectsSince fid τ ∧
      m.name=s.objectName P.ext id := by
  have hn := member_name h
  obtain ⟨coll,name,version,deleted⟩ := m
  obtain rfl : coll=fid := hc
  obtain rfl : deleted=true := hd
  obtain rfl : name=s.objectName P.ext id := hn
  exact ⟨mem_deletedObjectsSince.mpr ⟨h,hv⟩,rfl⟩

theorem findObjectByName_eq_some (h : s.findObjectByName P fid name=some o) :
    LiveAt (s.member P) fid o.id ⟨fid,name,o.changeNumber,false⟩ := by
  have hn : s.objectName P.ext o.id=name := by simpa using List.find?_some h
  rw [← hn]
  exact mem_listFolderObjects.mp (List.mem_of_find?_eq_some h)

theorem findObjectByName_eq_none (h : s.findObjectByName P fid name=none) :
    ¬Named (s.member P) fid name := by
  rintro ⟨id,m,hm,rfl⟩
  obtain ⟨ho,hn⟩ := LiveAt.listed hm
  have hne := List.find?_eq_none.mp h _ ho
  exact hne (by simpa using hn.symm)

theorem distinctNames_iff : s.DistinctNames P fid ↔ DistinctIn (s.member P) fid := by
  constructor
  · intro h i j m m' hm hm' hn
    obtain ⟨ho,hname⟩ := LiveAt.listed hm
    obtain ⟨ho',hname'⟩ := LiveAt.listed hm'
    have heq := h _ ho _ ho' (hname.symm.trans (hn.trans hname'))
    exact congrArg FolderObject.id heq
  · intro h o ho o' ho' hn
    have hm := (mem_listFolderObjects (P := P)).mp ho
    have hm' := (mem_listFolderObjects (P := P)).mp ho'
    have hid : o.id=o'.id := h o.id o'.id _ _ hm hm' hn
    have hitem := hm.item
    rw [hid,hm'.item] at hitem
    injection Option.some.inj hitem with _ _ hcn _
    exact FolderObject.ext hid hcn.symm

end View

/-- The objects and the resource names a transaction leaves. -/
inductive Writes (P : Protocol) (s : Site) :
    Edit Nat Nat Bytes → ObjDB → (Nat → Bytes) → Prop
  | create {fid size id : Nat} {name : Bytes} {db : ObjDB}
      (h : s.db.createMessage fid ⟨false,false,size⟩=.ok (id,db)) :
      Writes P s (.create id fid (named P.ext id name)) db (Function.update s.resourceName id name)
  | touch {id : Nat} {db : ObjDB} (h : s.db.modifyMessageProperties id=.ok db) :
      Writes P s (.touch id) db s.resourceName
  | rename {id : Nat} {name : Bytes} {db : ObjDB} (h : s.db.modifyMessageProperties id=.ok db) :
      Writes P s (.rename id (named P.ext id name)) db (Function.update s.resourceName id name)
  | flag (id : Nat) : Writes P s (.flag id) (s.db.markDeleted id) s.resourceName
  | restore {id destFID : Nat} {db : ObjDB} (h : s.db.restoreMessageRow id destFID=.ok db) :
      Writes P s (.restore id destFID) db s.resourceName
  | remove (id : Nat) : Writes P s (.remove id) (s.db.deleteMessageRow id) s.resourceName

section Effect

variable {P : Protocol} {s s' : Site}

variable {e : Edit Nat Nat Bytes} {db : ObjDB} {names : Nat → Bytes}

theorem member_of_update {id : Nat} {f : MessageRow → MessageRow}
    {g : Member Nat Bytes → Member Nat Bytes}
    (hget : ∀ k,s'.db.messages.get k =
      (s.db.messages.get k).map fun r => if r.messageId=id then f r else r)
    (hnames : ∀ k,k≠id → s'.resourceName k=s.resourceName k)
    (hfg : ∀ r,memberOf (s'.objectName P.ext id) (f r) =
      (memberOf (s.objectName P.ext id) r).map g) :
    s'.member P=Function.update (s.member P) id ((s.member P id).map g) := by
  funext k
  by_cases hk : k=id
  · subst hk
    rw [Function.update_self]
    unfold Site.member
    rw [hget]
    cases hr : s.db.messages.get k with
    | none => rfl
    | some r =>
      have hid : r.messageId=k := (Table.get_eq_some.mp hr).2
      simp only [Option.map_some,hid]
      exact hfg r
  · rw [Function.update_of_ne hk]
    unfold Site.member
    rw [hget,show s'.objectName P.ext k=s.objectName P.ext k by
      unfold Site.objectName; rw [hnames k hk]]
    cases hr : s.db.messages.get k with
    | none => rfl
    | some r =>
      have hid : r.messageId≠id := by
        rw [(Table.get_eq_some.mp hr).2]
        exact hk
      simp [hid]

theorem Writes.member (h : Writes P s e s'.db s'.resourceName) :
    s'.member P=e.apply (s.db.lastChangeNumber+1) (s.member P) := by
  generalize hdb : s'.db=db at h
  generalize hnames : s'.resourceName=names at h
  cases h with
  | @create fid size id name db h =>
    obtain ⟨-,hget⟩ := get_createMessage h
    funext k
    by_cases hk : k=id
    · subst hk
      refine Eq.trans ?_ (Edit.apply_target _ (.create k fid (named P.ext k name)) _).symm
      simp [Site.member,Site.objectName,hdb,hget,hnames,memberOf,Edit.write]
    · rw [Edit.apply_of_ne (by exact hk)]
      simp [Site.member,Site.objectName,hdb,hget,hnames,hk]
  | touch h =>
    have hget := get_modifyMessageProperties h
    rw [← hdb] at hget
    refine member_of_update hget (fun k _ => by rw [hnames]) fun r => ?_
    simp only [Site.objectName,hnames,memberOf]
    split_ifs <;> rfl
  | rename h =>
    have hget := get_modifyMessageProperties h
    rw [← hdb] at hget
    refine member_of_update hget (fun k hk => ?_) fun r => ?_
    · rw [hnames]
      exact Function.update_of_ne hk _ _
    · simp only [Site.objectName,hnames,memberOf,Edit.target,Function.update_self]
      split_ifs <;> rfl
  | flag id =>
    have hget := get_markDeleted s.db id
    rw [← hdb] at hget
    refine member_of_update hget (fun k _ => by rw [hnames]) fun r => ?_
    simp only [Site.objectName,hnames,memberOf]
    split_ifs <;> rfl
  | restore h =>
    have hget := get_restoreMessageRow h
    rw [← hdb] at hget
    refine member_of_update hget (fun k _ => by rw [hnames]) fun r => ?_
    simp only [Site.objectName,hnames,memberOf]
    split_ifs <;> rfl
  | remove id =>
    funext k
    by_cases hk : k=id
    · subst hk
      refine Eq.trans ?_ (Edit.apply_target _ (.remove k) _).symm
      simp [Site.member,hdb,get_deleteMessageRow,Edit.write]
    · rw [Edit.apply_of_ne (by exact hk)]
      simp [Site.member,Site.objectName,hdb,get_deleteMessageRow,hnames,hk]

theorem Writes.fresh {id c : Nat} {n : Bytes} (h : Writes P s (.create id c n) db names) :
    s.member P id=none := by
  cases h with
  | create h =>
    rw [Site.member,(get_createMessage h).1]
    rfl

theorem Writes.stamped (h : Writes P s e db names) : Stamped s.db db := by
  cases h with
  | create h => exact createMessage_stamped h
  | touch h | rename h => exact modifyMessageProperties_stamped h
  | flag id => exact markDeleted_stamped s.db id
  | restore h => exact restoreMessageRow_stamped h
  | remove id => exact deleteMessageRow_stamped s.db id

theorem updateMessage_issues (hd : db.blocks.Disjoint) (mid : Nat) (f : MessageRow → MessageRow)
    (hf : ∀ r,(f r).messageId=r.messageId) :
    Issues db ((db.allocateCN.2).updateMessage mid f hf) := by
  refine ⟨.refl _,hd,fun m hm => .inl ?_,fun r hr => .inl ⟨r,hr,rfl⟩⟩
  obtain ⟨r,hr,rfl⟩ := ObjDB.mem_updateMessage.mp hm
  refine ⟨r,hr,?_⟩
  split_ifs
  · exact (hf r).symm
  · rfl

theorem Writes.issues (h : Writes P s e db names) (hd : s.db.blocks.Disjoint) : Issues s.db db := by
  have hmodify : ∀ id db,s.db.modifyMessageProperties id=.ok db → Issues s.db db := by
    intro id db h
    unfold ObjDB.modifyMessageProperties at h
    split at h
    · cases h
    · obtain rfl := Except.ok.inj h
      exact updateMessage_issues hd id _ _
  cases h with
  | create h => exact createMessage_issues hd h
  | touch h | rename h => exact hmodify _ db h
  | flag id => exact updateMessage_issues hd id _ _
  | restore h =>
    unfold ObjDB.restoreMessageRow at h
    simp only at h
    split at h
    · cases h
    · obtain rfl := Except.ok.inj h
      exact updateMessage_issues hd _ _ _
  | remove id =>
    refine ⟨.refl _,hd,fun m hm => .inl ⟨m,?_,rfl⟩,fun r hr => .inl ⟨r,hr,rfl⟩⟩
    exact (Table.mem_deleteWhere.mp hm).1

end Effect

inductive Dumps : DumpsterTask → Edit Nat Nat Bytes → Prop
  | flag (id : Nat) : Dumps (.flagRow id) (.flag id)
  | touch (id : Nat) : Dumps (.stampRow id) (.touch id)
  | restore (id destFID : Nat) (read : Bool) :
      Dumps (.restoreRow id destFID read) (.restore id destFID)
  | remove (id : Nat) (sw : Option Sweep) : Dumps (.deleteRow id sw) (.remove id)

def Task.dumps : Task → Option DumpsterTask
  | .softDelete _ _ t => some t
  | .removeDst _ _ _ t => some t
  | .dumpster t => some t
  | _ => none

inductive Does (P : Protocol) : Task → Edit Nat Nat Bytes → Prop
  | dump {task : Task} {t : DumpsterTask} {e : Edit Nat Nat Bytes} (h : task.dumps=some t)
      (ht : Dumps t e) : Does P task e
  | writeNew (r : PutRequest) (id : Nat) :
      Does P (.write r none) (.create id r.fid (named P.ext id r.name))
  | writeOld (r : PutRequest) (o : FolderObject) :
      Does P (.write r (some o)) (.rename o.id (named P.ext o.id r.name))
  | recipients (id : Nat) : Does P (.replaceRecipients id) (.touch id)
  | copy (r : CopyRequest) (src : FolderObject) (replacing : Bool) (id : Nat) :
      Does P (.create r src replacing) (.create id r.dstFID (named P.ext id r.dstName))

section Exec

variable (P : Protocol) (s : Site)

theorem runDumpster_writes (t : DumpsterTask) :
    (s.runDumpster t).2.db=s.db ∨
      ∃ e,Dumps t e ∧ Writes P s e (s.runDumpster t).2.db s.resourceName := by
  cases t with
  | flagRow id => exact .inr ⟨_,.flag id,.flag id⟩
  | stampRow id =>
    simp only [Site.runDumpster,DumpsterTask.exec,Dumpster.stampRow]
    cases h : s.dump.store.objdb.modifyMessageProperties id with
    | error e => exact .inl rfl
    | ok db => exact .inr ⟨_,.touch id,.touch h⟩
  | restoreRow id destFID read =>
    simp only [Site.runDumpster,DumpsterTask.exec]
    cases h : s.dump.store.objdb.restoreMessageRow id destFID with
    | error e => exact .inl rfl
    | ok db => exact .inr ⟨_,.restore id destFID read,.restore h⟩
  | deleteRow id sw => exact .inr ⟨_,.remove id sw,.remove id⟩
  | vanishRow id | reindexRow id destFID read =>
    left
    simp only [Site.runDumpster,DumpsterTask.exec]
    split <;> rfl
  | _ => exact .inl rfl

variable {s}

theorem createObject_writes {fid size : Nat} (h : s.createObject fid size name=some s') :
    ∃ id,Writes P s (.create id fid (named P.ext id name)) s'.db s'.resourceName := by
  unfold Site.createObject at h
  split at h
  · cases h
  · rename_i id db hc
    cases h
    exact ⟨id,.create hc⟩

theorem createObject_history {fid size : Nat} (h : s.createObject fid size name=some s') :
    s'.succeeded=s.succeeded ∧ s'.replaced=s.replaced := by
  unfold Site.createObject at h
  split at h
  · cases h
  · cases h
    exact ⟨rfl,rfl⟩

theorem modifyObject_writes {id : Nat} (h : s.modifyObject id=some s') :
    ∃ db,s.db.modifyMessageProperties id=.ok db ∧ s'=s.setObj db := by
  unfold Site.modifyObject at h
  split at h
  · cases h
  · rename_i db hm
    exact ⟨db,hm,(Option.some.inj h).symm⟩

theorem exec_writes (t : Task) (s : Site) :
    ((t.exec P s).2.db=s.db ∧ (t.exec P s).2.resourceName=s.resourceName) ∨
      ∃ e,Does P t e ∧ Writes P s e (t.exec P s).2.db (t.exec P s).2.resourceName := by
  have hdump : ∀ u,t.dumps=some u → (t.exec P s).2.db=(s.runDumpster u).2.db →
      (t.exec P s).2.resourceName=s.resourceName →
      ((t.exec P s).2.db=s.db ∧ (t.exec P s).2.resourceName=s.resourceName) ∨
        ∃ e,Does P t e ∧ Writes P s e (t.exec P s).2.db (t.exec P s).2.resourceName := by
    intro u hu hdb hnames
    rw [hdb,hnames]
    rcases runDumpster_writes P s u with h | ⟨e,he,hw⟩
    · exact .inl ⟨h,rfl⟩
    · exact .inr ⟨e,.dump hu he,hw⟩
  cases t with
  | put r | copyMove r =>
    left
    simp only [Task.exec]
    split <;> exact ⟨rfl,rfl⟩
  | write r existing =>
    cases existing with
    | none =>
      simp only [Task.exec,Site.replaceObject]
      cases h : s.createObject r.fid r.size r.name with
      | none => exact .inl ⟨rfl,rfl⟩
      | some s' =>
        obtain ⟨id,hw⟩ := createObject_writes P h
        exact .inr ⟨_,.writeNew r id,hw⟩
    | some o =>
      simp only [Task.exec,Site.replaceObject]
      cases h : s.modifyObject o.id with
      | none => exact .inl ⟨rfl,rfl⟩
      | some s' =>
        obtain ⟨db,hm,rfl⟩ := modifyObject_writes h
        exact .inr ⟨_,.writeOld r o,.rename hm⟩
  | replaceRecipients id =>
    simp only [Task.exec]
    cases h : s.modifyObject id with
    | none => exact .inl ⟨rfl,rfl⟩
    | some s' =>
      obtain ⟨db,hm,rfl⟩ := modifyObject_writes h
      exact .inr ⟨_,.recipients id,.touch hm⟩
  | delete r | reserialize r src dst =>
    left
    simp only [Task.exec]
    split
    · exact ⟨rfl,rfl⟩
    · split <;> exact ⟨rfl,rfl⟩
  | softDelete r o u =>
    apply hdump u rfl
    all_goals
      simp only [Task.exec]
      split <;> rfl
  | removeDst r src dst u | dumpster u => exact hdump u rfl rfl rfl
  | create r src replacing =>
    simp only [Task.exec]
    cases h : s.createObject r.dstFID r.size r.dstName with
    | none => exact .inl ⟨rfl,rfl⟩
    | some s' =>
      obtain ⟨id,hw⟩ := createObject_writes P h
      right
      refine ⟨_,.copy r src replacing id,?_⟩
      simp only
      split <;> exact hw
  | readBody r existing | findDst r src => exact .inl ⟨rfl,rfl⟩

end Exec
end HermEX.Dav
