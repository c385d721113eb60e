import HermEX.Dav.Members

namespace HermEX.Dav

open Framework Objectstore

def syncToken (max : Nat) : Bytes := lit "hermex:sync:"++formatNat max

def parseSyncToken (token : Bytes) : Nat :=
  if token.take 12≠lit "hermex:sync:" then 0
  else match parseDigits (token.drop 12) with
    | none => 0
    | some n => if n<2^64 then n else 0

theorem parseSyncToken_le (n : Nat) : parseSyncToken (syncToken n)≤n := by
  have htake : (syncToken n).take 12=lit "hermex:sync:" := List.take_left' rfl
  have hdrop : (syncToken n).drop 12=formatNat n := List.drop_left' rfl
  simp only [parseSyncToken,hdrop,parseDigits_formatNat,ne_eq]
  split_ifs
  · exact Nat.le_refl n
  · exact Nat.zero_le n

abbrev Multistatus := List (Bytes×Option Bytes)

section Report

variable (P : Protocol) (fid : Nat) (s : Site) (since : Nat)

def reportSync : Multistatus :=
  ((s.db.listFolderObjects fid).filter fun o => !decide (o.changeNumber ≤ since)).map
    fun o => (s.objectName P.ext o.id,some (etag o.changeNumber))

def syncTail : Multistatus :=
  (s.db.deletedObjectsSince fid since).map fun o => (s.objectName P.ext o.id,none)

theorem sync_reports :
    Reports etag (s.member P) fid since (reportSync P fid s since++syncTail P fid s since) := by
  intro p
  simp only [List.mem_append,reportSync,syncTail,List.mem_map,List.mem_filter,Bool.not_eq_true',
    decide_eq_false_iff_not,Nat.not_le]
  constructor
  · rintro (⟨o,⟨ho,hlt⟩,rfl⟩ | ⟨o,ho,rfl⟩)
    · exact .inl ⟨o.id,_,mem_listFolderObjects.mp ho,hlt,rfl⟩
    · obtain ⟨hm,hlt⟩ := (mem_deletedObjectsSince).mp ho
      exact .inr ⟨⟨o.id,_,hm,rfl,rfl,rfl,hlt⟩,rfl⟩
  · rintro (⟨id,m,hm,hlt,rfl⟩ | ⟨⟨id,m,hm,hc,hd,hn,hlt⟩,hnone⟩)
    · obtain ⟨ho,hname⟩ := LiveAt.listed hm
      exact .inl ⟨_,⟨ho,hlt⟩,by rw [hname]⟩
    · obtain ⟨ho,hname⟩ := member_buried hm hc hd hlt
      exact .inr ⟨_,ho,by rw [← hname,hn,← hnone]⟩

end Report

/-- What of a response is read: the listing, then the tombstones. -/
inductive Phase where
  | idle
  | listed (resp : Multistatus)
  | tombed (resp : Multistatus)
deriving DecidableEq

structure Client where
  map : Bytes → Option Bytes
  token : Bytes
  phase : Phase

def Client.fresh : Client := ⟨fun _ => none,[],.idle⟩

def Client.since (c : Client) : Nat := parseSyncToken c.token

def Client.read (P : Protocol) (fid : Nat) (s : Site) (c : Client) : Client :=
  match c.phase with
  | .idle => {c with phase:=.listed (reportSync P fid s c.since)}
  | .listed resp => {c with phase:=.tombed (resp++syncTail P fid s c.since)}
  | .tombed resp => ⟨patch c.map resp,syncToken (s.db.folderObjectsSyncMax fid),.idle⟩

structure World where
  site : Site
  client : Client

/-- The client's request goes on or is lost, or time passes. -/
inductive SyncEvent where
  | read
  | lost
  | tick (d : Nat)

namespace World

def exec (P : Protocol) (t : Task) (w : World) : Option Task×World :=
  ((t.exec P w.site).1,{w with site:=(t.exec P w.site).2})

def outside (P : Protocol) (fid : Nat) (e : SyncEvent) (w : World) : World :=
  match e with
  | .read => {w with client:=w.client.read P fid w.site}
  | .lost => {w with client:={w.client with phase:=.idle}}
  | .tick d => {w with site:=w.site.tick d}

/-- The client holds the live members with their ETags. -/
def Converged (P : Protocol) (fid : Nat) (w : World) : Prop :=
  ∀ name tag,w.client.map name=some tag ↔
    ∃ o∈w.site.db.listFolderObjects fid,w.site.objectName P.ext o.id=name ∧ etag o.changeNumber=tag

end World

abbrev WorldPool := Pool World Task

def WorldPool.step (P : Protocol) (fid : Nat) : WorldPool → Move Request SyncEvent → WorldPool :=
  Pool.step Task.enter (World.exec P) (World.outside P fid)

def WorldPool.initial (s : Site) : WorldPool := ⟨⟨s,.fresh⟩,[]⟩

def Site.collection (P : Protocol) (s : Site) (fid : Nat) :
    List (MessageRow×Bytes)×List (Nat×Bytes) :=
  ((s.db.folderRows fid).map fun r => (r,s.objectName P.ext r.messageId),
    s.replaced.filter fun x => x.1=fid)

def dropsRow (fid : Nat) : DumpsterTask → Option Nat
  | .deleteRow id _ => some id
  | .restoreRow id destFID _ => if destFID=fid then none else some id
  | _ => none

def Task.drops (fid : Nat) : Task → Option Nat
  | .removeDst _ _ _ (.deleteRow _ _) => none
  | t => t.dumps.bind (dropsRow fid)

/-- The row is a tombstone no newer than the token. -/
def Site.Expendable (s : Site) (fid since id : Nat) : Prop :=
  ∀ r∈s.dump.get id,r.parentFid=fid → r.isAssociated=false →
    r.isDeleted=true ∧ r.changeNumber ≤ since

/-- Live names are distinct, none has a newer tombstone, and what was removed is back. -/
structure Site.Settled (P : Protocol) (fid since : Nat) (s : Site) : Prop where
  distinct : s.DistinctNames P fid
  unburied : ∀ o∈s.db.listFolderObjects fid,∀ d∈s.db.deletedObjectsSince fid since,
    s.objectName P.ext o.id≠s.objectName P.ext d.id
  back : ∀ x∈s.replaced,x.1=fid → ∃ o∈s.db.listFolderObjects fid,s.objectName P.ext o.id=x.2

/-- No write to a collection being read; responses begin settled, unseen tombstones stay. -/
def WorldPool.Orderly (P : Protocol) (fid : Nat) (p : WorldPool) : Move Request SyncEvent → Prop
  | .run i => ∀ t∈p.tasks[i]?,(p.shared.client.phase=.idle ∨
      (t.exec P p.shared.site).2.collection P fid=p.shared.site.collection P fid) ∧
      ∀ id∈t.drops fid,p.shared.site.Expendable fid p.shared.client.since id
  | .outside .read => p.shared.client.phase=.idle →
      p.shared.site.Settled P fid p.shared.client.since
  | _ => True

instance (P : Protocol) (fid since : Nat) (s : Site) : Decidable (s.Settled P fid since) :=
  decidable_of_iff (s.DistinctNames P fid ∧
    (∀ o∈s.db.listFolderObjects fid,∀ d∈s.db.deletedObjectsSince fid since,
      s.objectName P.ext o.id≠s.objectName P.ext d.id) ∧
    ∀ x∈s.replaced,x.1=fid → ∃ o∈s.db.listFolderObjects fid,s.objectName P.ext o.id=x.2)
    ⟨fun h => ⟨h.1,h.2.1,h.2.2⟩,fun h => ⟨h.distinct,h.unburied,h.back⟩⟩

instance (s : Site) (fid since id : Nat) : Decidable (s.Expendable fid since id) :=
  inferInstanceAs (Decidable (∀ r∈s.dump.get id,_))

instance (P : Protocol) (fid : Nat) (p : WorldPool) : ∀ m,Decidable (p.Orderly P fid m)
  | .run i => inferInstanceAs (Decidable (∀ t∈p.tasks[i]?,_))
  | .outside .read => inferInstanceAs (Decidable (_ → _))
  | .outside .lost | .outside (.tick _) | .start _ | .crash => isTrue trivial

section Follow

variable {P : Protocol} {fid : Nat} {s : Site} {t : Task}

variable {since id : Nat} {w : World}

theorem Site.Settled.settled (h : s.Settled P fid since) :
    Framework.Settled (s.member P) fid (fun n => (fid,n)∈s.replaced) since := by
  refine ⟨distinctNames_iff.mp h.distinct,?_,fun n hn => ?_⟩
  · rintro n ⟨i,m,hm,rfl⟩ ⟨j,m',hm',hc,hd,hn,hv⟩
    obtain ⟨ho,hname⟩ := LiveAt.listed hm
    obtain ⟨ho',hname'⟩ := member_buried hm' hc hd hv
    exact h.unburied _ ho _ ho' (hname.symm.trans (hn.symm.trans hname'))
  · obtain ⟨o,ho,hname⟩ := h.back _ hn rfl
    exact ⟨o.id,_,mem_listFolderObjects.mp ho,hname⟩

def Client.Reading (P : Protocol) (fid : Nat) (s : Site) (c : Client) : Prop :=
  match c.phase with
  | .idle => True
  | .listed resp => s.Settled P fid c.since ∧ resp=reportSync P fid s c.since
  | .tombed resp => s.Settled P fid c.since ∧
      resp=reportSync P fid s c.since++syncTail P fid s c.since

theorem Site.collection_eq {s' : Site} (h : s'.collection P fid=s.collection P fid) :
    s'.db.folderRows fid=s.db.folderRows fid ∧
      (∀ r∈s.db.folderRows fid,s'.objectName P.ext r.messageId=s.objectName P.ext r.messageId) ∧
      ∀ x : Nat×Bytes,x.1=fid → x∈s'.replaced → x∈s.replaced := by
  obtain ⟨hmap,hlost⟩ := Prod.mk.inj h
  have hrows : s'.db.folderRows fid=s.db.folderRows fid := by
    simpa [Function.comp_def] using congrArg (List.map Prod.fst) hmap
  refine ⟨hrows,fun r hr => ?_,fun x hx hmem => ?_⟩
  · rw [hrows,List.map_inj_left] at hmap
    exact congrArg Prod.snd (hmap r hr)
  · have hin : x∈s'.replaced.filter fun x => x.1=fid := List.mem_filter.mpr ⟨hmem,by simpa using hx⟩
    rw [hlost] at hin
    exact (List.mem_filter.mp hin).1

theorem Client.Reading.congr {s' : Site} {c : Client}
    (hcoll : s'.collection P fid=s.collection P fid) (h : c.Reading P fid s) :
    c.Reading P fid s' := by
  obtain ⟨hrows,hnames,hlost⟩ := Site.collection_eq hcoll
  have hlive : s'.db.listFolderObjects fid=s.db.listFolderObjects fid := by
    simp only [ObjDB.listFolderObjects,hrows]
  have hgone : s'.db.deletedObjectsSince fid c.since=s.db.deletedObjectsSince fid c.since := by
    simp only [ObjDB.deletedObjectsSince,hrows]
  have hname : ∀ o∈s.db.listFolderObjects fid,
      s'.objectName P.ext o.id=s.objectName P.ext o.id := by
    intro o ho
    obtain ⟨r,hr,rfl⟩ := List.mem_map.mp ho
    exact hnames r (List.mem_filter.mp hr).1
  have hburied : ∀ o∈s.db.deletedObjectsSince fid c.since,
      s'.objectName P.ext o.id=s.objectName P.ext o.id := by
    intro o ho
    obtain ⟨r,hr,rfl⟩ := List.mem_map.mp ho
    exact hnames r (List.mem_filter.mp hr).1
  have hsettled : s.Settled P fid c.since → s'.Settled P fid c.since := by
    intro hs
    constructor
    · intro o ho o' ho' heq
      rw [hlive] at ho ho'
      rw [hname o ho,hname o' ho'] at heq
      exact hs.distinct o ho o' ho' heq
    · intro o ho d hd
      rw [hlive] at ho
      rw [hgone] at hd
      rw [hname o ho,hburied d hd]
      exact hs.unburied o ho d hd
    · intro x hx hfid
      obtain ⟨o,ho,hn⟩ := hs.back x (hlost x hfid hx) hfid
      exact ⟨o,hlive ▸ ho,(hname o ho).trans hn⟩
  have hreport : reportSync P fid s' c.since=reportSync P fid s c.since := by
    simp only [reportSync,hlive]
    apply List.map_congr_left
    intro o ho
    rw [hname o (List.mem_filter.mp ho).1]
  have htail : syncTail P fid s' c.since=syncTail P fid s c.since := by
    simp only [syncTail,hgone]
    apply List.map_congr_left
    intro o ho
    rw [hburied o ho]
  unfold Client.Reading at h ⊢
  split at h
  · trivial
  · exact ⟨hsettled h.1,h.2.trans hreport.symm⟩
  · refine ⟨hsettled h.1,?_⟩
    rw [hreport,htail]
    exact h.2

abbrev Site.lost (s : Site) (fid : Nat) (n : Bytes) : Prop := (fid,n)∈s.replaced

structure World.Inv (P : Protocol) (fid : Nat) (w : World) : Prop where
  stamps : StampsBounded w.site.db
  ids : IdInv ⟨w.site.db,[]⟩
  bound : w.client.since≤w.site.db.lastChangeNumber
  tracks : Tracks etag (w.site.member P) fid (w.site.lost fid) w.client.since w.client.map
  reading : w.client.Reading P fid w.site

def Task.finding : Task → Option (Bytes×FolderObject)
  | .readBody r existing => existing.map fun o => (r.name,o)
  | .write r existing => existing.map fun o => (r.name,o)
  | _ => none

def Task.Found (P : Protocol) (s : Site) (t : Task) : Prop :=
  ∀ x∈t.finding,s.objectName P.ext x.2.id=x.1 ∧ s.db.blocks.Avoids FolderOwned x.2.id

theorem Task.Found.rename_eq {n : Bytes} (h : t.Found P s) (he : Does P t (.rename id n)) :
    s.objectName P.ext id=n := by
  cases he with
  | writeOld r o =>
    have hname := (h (r.name,o) rfl).1
    exact hname.trans (if_neg r.valid).symm
  | dump hd hu => cases hu

theorem exec_objectName (hd : s.db.blocks.Disjoint) (ht : t.Found P s)
    (hid : s.db.blocks.Avoids FolderOwned id) :
    (t.exec P s).2.objectName P.ext id=s.objectName P.ext id ∧
      (t.exec P s).2.db.blocks.Avoids FolderOwned id := by
  rcases exec_writes P t s with ⟨hdb,hnames⟩ | ⟨e,he,hw⟩
  · rw [Site.objectName,hdb,hnames]
    exact ⟨rfl,hid⟩
  · refine ⟨?_,hid.advance (hw.issues hd).advance⟩
    unfold Site.objectName
    generalize (t.exec P s).2.db=db at hw
    generalize (t.exec P s).2.resourceName=names at hw
    cases hw with
    | @create fid size k name _ hc =>
      obtain ⟨db₁,tab,halloc,-⟩ := createMessage_ok hc
      have hne : id≠k := by
        rw [(allocateEIDFromFolder_take halloc).1]
        exact Blocks.take_ne (Option.some_ne_none fid) hid
      rw [Function.update_of_ne hne]
    | @rename k name _ hm =>
      by_cases hk : id=k
      · subst hk
        rw [Function.update_self]
        exact (ht.rename_eq he).symm
      · rw [Function.update_of_ne hk]
    | touch _ => rfl
    | flag _ => rfl
    | restore _ => rfl
    | remove _ => rfl

theorem Task.Found.next {t' : Task} (hids : IdInv ⟨s.db,[]⟩) (ht : t.Found P s)
    (hn : (t.exec P s).1=some t') : t'.Found P (t.exec P s).2 := by
  have hnone : t'.finding=none → t'.Found P (t.exec P s).2 := by
    intro hf x hx
    rw [hf] at hx
    cases hx
  cases t with
  | put r =>
    simp only [Task.exec] at hn ⊢
    split at hn
    · cases hn
    rename_i hpre
    cases hn
    rw [if_neg hpre]
    intro x hx
    obtain ⟨o,ho,rfl⟩ := Option.map_eq_some_iff.mp hx
    have hat := (findObjectByName_eq_some ho).item
    obtain ⟨row,hr,hid,-⟩ := member_eq_some.mp hat
    exact ⟨(member_name hat).symm,hid ▸ hids.messages row hr⟩
  | readBody r existing =>
    simp only [Task.exec] at hn ⊢
    split at hn
    · cases hn
      exact ht
    · cases hn
  | write r existing =>
    apply hnone
    simp only [Task.exec] at hn
    split at hn
    · cases hn
    split at hn
    · obtain ⟨o,-,rfl⟩ := Option.map_eq_some_iff.mp hn
      rfl
    · cases hn
  | replaceRecipients id => cases hn
  | delete r =>
    apply hnone
    simp only [Task.exec] at hn
    split at hn
    · cases hn
    · split at hn
      · cases hn
      · cases hn
        rfl
  | softDelete r o u | dumpster u =>
    obtain ⟨u',-,rfl⟩ := Option.map_eq_some_iff.mp hn
    exact hnone rfl
  | copyMove r =>
    apply hnone
    simp only [Task.exec] at hn
    split at hn
    · cases hn
    · obtain ⟨src,-,rfl⟩ := Option.map_eq_some_iff.mp hn
      rfl
  | findDst r src =>
    apply hnone
    simp only [Task.exec] at hn
    split at hn
    · cases hn
    · cases hn
      rfl
  | reserialize r src dst =>
    apply hnone
    simp only [Task.exec] at hn
    split at hn
    · cases hn
    split at hn
    · cases hn
      rfl
    · cases hn
      rfl
  | removeDst r src dst u =>
    apply hnone
    simp only [Task.exec] at hn
    unfold Site.afterRemoval at hn
    split at hn
    · cases hn
      rfl
    · split at hn
      · cases hn
        rfl
      · cases hn
  | create r src replacing =>
    apply hnone
    simp only [Task.exec] at hn
    split at hn
    · cases hn
    split at hn
    · cases hn
      rfl
    · cases hn

theorem exec_stamped (t : Task) (s : Site) : Stamped s.db (t.exec P s).2.db := by
  rcases exec_writes P t s with ⟨hdb,-⟩ | ⟨e,-,hw⟩
  · rw [hdb]
    exact .refl s.db
  · exact hw.stamped

theorem exec_replaced (t : Task) (s : Site) {x : Nat×Bytes} (hx : x∈s.replaced) :
    x∈(t.exec P s).2.replaced ∨ Named ((t.exec P s).2.member P) x.1 x.2 := by
  cases t with
  | create r src replacing =>
    simp only [Task.exec]
    cases h : s.createObject r.dstFID r.size r.dstName with
    | none => exact .inl hx
    | some s' =>
      have hkeep : x∈s'.replaced := (createObject_history h).2 ▸ hx
      cases replacing with
      | false => exact .inl hkeep
      | true =>
        by_cases he : x=(r.dstFID,r.dstName)
        · obtain ⟨id,hw⟩ := createObject_writes P h
          have hnamed : Named (s'.member P) r.dstFID r.dstName := by
            rw [hw.member]
            exact ⟨id,_,⟨Edit.apply_target _ _ _,rfl,rfl⟩,if_neg r.valid⟩
          rw [he]
          exact .inr hnamed
        · exact .inl ((List.mem_erase_of_ne he).mpr hkeep)
  | removeDst r src dst u => exact .inl (List.mem_append_left _ hx)
  | write r existing =>
    left
    cases existing with
    | none =>
      simp only [Task.exec,Site.replaceObject]
      cases h : s.createObject r.fid r.size r.name with
      | none => exact hx
      | some s' =>
        have hkeep : x∈s'.replaced := (createObject_history h).2 ▸ hx
        exact hkeep
    | some o =>
      simp only [Task.exec,Site.replaceObject]
      cases h : s.modifyObject o.id with
      | none => exact hx
      | some s' =>
        obtain ⟨db,-,rfl⟩ := modifyObject_writes h
        exact hx
  | replaceRecipients id =>
    left
    simp only [Task.exec]
    cases h : s.modifyObject id with
    | none => exact hx
    | some s' =>
      obtain ⟨db,-,rfl⟩ := modifyObject_writes h
      exact hx
  | softDelete r o u =>
    left
    simp only [Task.exec]
    split <;> exact hx
  | dumpster u => exact .inl hx
  | put r | copyMove r =>
    left
    simp only [Task.exec]
    split <;> exact hx
  | readBody r existing | findDst r src => exact .inl hx
  | delete r | reserialize r src dst =>
    left
    simp only [Task.exec]
    split
    · exact hx
    · split <;> exact hx

theorem Site.Expendable.member {m : Member Nat Bytes} (h : s.Expendable fid since id)
    (hm : s.member P id=some m) (hc : m.coll=fid) : m.deleted=true ∧ m.version ≤ since := by
  obtain ⟨r,hr,hid,ha,rfl⟩ := member_eq_some.mp hm
  exact h r (Table.get_eq_some.mpr ⟨hr,hid⟩) hc ha

theorem exec_follows (ht : t.Found P s) (hdrops : ∀ id∈t.drops fid,s.Expendable fid since id)
    {e : Edit Nat Nat Bytes} (he : Does P t e)
    (hw : Writes P s e (t.exec P s).2.db (t.exec P s).2.resourceName) :
    e.Follows (s.member P) fid ((t.exec P s).2.lost fid) since := by
  cases he with
  | writeNew r id | copy r src replacing id => exact hw.fresh
  | writeOld r o =>
    intro m hm
    exact (member_name hm).trans (ht.rename_eq (.writeOld r o))
  | recipients id => trivial
  | @dump _ u _ hd hu =>
    cases hu with
    | flag id | touch id => trivial
    | restore id destFID read =>
      intro m hm hc
      by_cases hdest : destFID=fid
      · exact .inl hdest
      · have hrow : dropsRow fid (.restoreRow id destFID read)=some id := if_neg hdest
        have hdrop : t.drops fid=some id := by
          cases t with
          | softDelete r o u' | removeDst r src dst u' | dumpster u' =>
            cases hd
            exact hrow
          | _ => cases hd
        exact .inr ((hdrops id hdrop).member hm hc)
    | remove id sw =>
      intro m hm hc
      cases t with
      | softDelete r o u' | dumpster u' =>
        cases hd
        exact .inl ((hdrops id rfl).member hm hc)
      | removeDst r src dst u' =>
        cases hd
        right
        obtain ⟨row,hr,hid,-,rfl⟩ := member_eq_some.mp hm
        have hget : s.dump.get id=some row := Table.get_eq_some.mpr ⟨hr,hid⟩
        apply List.mem_append_right
        simp only [Site.removedBy,hget,Option.map_some,Option.toList_some,List.mem_singleton]
        rw [← hc]
      | _ => cases hd

theorem World.Inv.exec (hw : w.Inv P fid) (ht : t.Found P w.site)
    (hquiet : w.client.phase=.idle ∨ (t.exec P w.site).2.collection P fid=w.site.collection P fid)
    (hdrops : ∀ id∈t.drops fid,w.site.Expendable fid w.client.since id) :
    (World.exec P t w).2.Inv P fid := by
  have hlost : ∀ n,w.site.lost fid n →
      (t.exec P w.site).2.lost fid n ∨ Named ((t.exec P w.site).2.member P) fid n :=
    fun n hn => exec_replaced t w.site hn
  have hstamped := exec_stamped (P := P) t w.site
  refine ⟨hw.stamps.stamped hstamped,?_,hw.bound.trans hstamped.mono,?_,?_⟩
  · rcases exec_writes P t w.site with ⟨hdb,-⟩ | ⟨e,-,hwr⟩
    · rw [show (World.exec P t w).2.site.db=w.site.db from hdb]
      exact hw.ids
    · exact hw.ids.issues (hwr.issues hw.ids.disjoint) fun _ hu => hu
  · rcases exec_writes P t w.site with ⟨hdb,hnames⟩ | ⟨e,he,hwr⟩
    · have hview := member_congr (P := P) hdb hnames
      refine ⟨fun i m hm hv => hw.tracks.known i m (hview ▸ hm) hv,fun n hn => ?_⟩
      rcases hw.tracks.reason n hn with h | h | h
      · exact .inl (hview.symm ▸ h)
      · exact .inr (.inl (hview.symm ▸ h))
      · exact (hlost n h).elim (fun h => .inr (.inr h)) .inl
    · have hfollow := exec_follows ht hdrops he hwr
      have htracks := hw.tracks.apply (Nat.lt_succ_of_le hw.bound) hfollow
        (fun n hn => (hlost n hn).imp_right fun h => hwr.member ▸ h)
      rw [← hwr.member] at htracks
      exact htracks
  · rcases hquiet with hidle | hcoll
    · unfold Client.Reading
      rw [show (World.exec P t w).2.client.phase=.idle from hidle]
      trivial
    · exact hw.reading.congr hcoll

theorem folderObjectsSyncMax_le {db : ObjDB} (h : StampsBounded db) (fid : Nat) :
    db.folderObjectsSyncMax fid≤db.lastChangeNumber := by
  have hrows : ∀ r∈db.folderRows fid,r.changeNumber≤db.lastChangeNumber := fun r hr =>
    (h.cn r (mem_folderRows.mp hr).1).2
  unfold ObjDB.folderObjectsSyncMax
  generalize db.folderRows fid=rows at hrows
  induction rows with
  | nil => exact Nat.zero_le _
  | cons r rows ih =>
    have hr := hrows r List.mem_cons_self
    have hrest := ih fun r hr => hrows r (List.mem_cons_of_mem _ hr)
    exact max_le hr hrest

theorem World.Inv.mirrors (hw : w.Inv P fid) {resp : Multistatus}
    (hphase : w.client.phase=.tombed resp) :
    Mirrors etag (w.site.member P) fid (patch w.client.map resp) := by
  have hread := hw.reading
  unfold Client.Reading at hread
  rw [hphase] at hread
  obtain ⟨hsettled,rfl⟩ := hread
  exact hsettled.settled.mirrors hw.tracks (sync_reports P fid w.site w.client.since)

theorem World.Inv.read (hw : w.Inv P fid)
    (hs : w.client.phase=.idle → w.site.Settled P fid w.client.since) :
    (World.outside P fid .read w).Inv P fid := by
  simp only [World.outside,Client.read]
  cases hphase : w.client.phase with
  | idle => exact ⟨hw.stamps,hw.ids,hw.bound,hw.tracks,hs hphase,rfl⟩
  | listed resp =>
    have hread := hw.reading
    unfold Client.Reading at hread
    rw [hphase] at hread
    refine ⟨hw.stamps,hw.ids,hw.bound,hw.tracks,hread.1,?_⟩
    rw [hread.2]
    rfl
  | tombed resp =>
    refine ⟨hw.stamps,hw.ids,?_,(hw.mirrors hphase).tracks _,trivial⟩
    exact (parseSyncToken_le _).trans (folderObjectsSyncMax_le hw.stamps fid)

theorem mirrors_iff_converged :
    Mirrors etag (w.site.member P) fid w.client.map ↔ w.Converged P fid := by
  refine forall_congr' fun n => forall_congr' fun x => iff_congr Iff.rfl ?_
  constructor
  · rintro ⟨i,m,hm,rfl,rfl⟩
    obtain ⟨ho,hname⟩ := LiveAt.listed hm
    exact ⟨_,ho,hname.symm,rfl⟩
  · rintro ⟨o,ho,hname,htag⟩
    exact ⟨o.id,_,mem_listFolderObjects.mp ho,hname,htag⟩

theorem world_preserves : Pool.Preserves Task.enter (World.exec P) (World.outside P fid)
    (WorldPool.Orderly P fid) (World.Inv P fid) fun w t => t.Found P w.site where
  start p op _ _ := by cases op <;> exact fun x hx => by cases hx
  shared p i t hi hp hc :=
    hp.shared.exec (hp.tasks t (List.mem_of_getElem? hi)) (hc t hi).1 (hc t hi).2
  next p i t t' hi hp _ hn := (hp.tasks t (List.mem_of_getElem? hi)).next hp.shared.ids hn
  others p i t u hi hp _ hu := by
    intro x hx
    obtain ⟨hname,hsafe⟩ := hp.tasks u hu x hx
    have hkeep := exec_objectName hp.shared.ids.disjoint (hp.tasks t (List.mem_of_getElem? hi)) hsafe
    exact ⟨hkeep.1.trans hname,hkeep.2⟩
  outside p e hp hc := by
    cases e with
    | read => exact ⟨hp.shared.read hc,hp.tasks⟩
    | lost => exact ⟨⟨hp.shared.stamps,hp.shared.ids,hp.shared.bound,hp.shared.tracks,trivial⟩,hp.tasks⟩
    | tick d =>
      have hread : p.shared.client.Reading P fid (p.shared.site.tick d) :=
        Client.Reading.congr (s := p.shared.site) rfl hp.shared.reading
      exact ⟨⟨hp.shared.stamps,hp.shared.ids,hp.shared.bound,hp.shared.tracks,hread⟩,hp.tasks⟩

end Follow

/-- In orderly runs the client holds the live members after every response. -/
theorem sync_converges (P : Protocol) (fid : Nat) (s : Site) (hstamps : StampsBounded s.db)
    (hids : IdInv ⟨s.db,[]⟩) (moves : List (Move Request SyncEvent))
    (h : Meets (WorldPool.step P fid) (WorldPool.Orderly P fid) (.initial s) moves)
    (resp : Multistatus)
    (hresp : (runSteps (WorldPool.step P fid) (.initial s) moves).shared.client.phase =
      .tombed resp) :
    (runSteps (WorldPool.step P fid) (.initial s) (moves++[.outside .read])).shared.Converged P
      fid := by
  have hstart : Pool.Holds (World.Inv P fid) (fun w t => t.Found P w.site)
      (WorldPool.initial s) := by
    refine ⟨⟨hstamps,hids,Nat.zero_le _,⟨fun i m hm hv => ?_,fun n hn => absurd rfl hn⟩,trivial⟩,?_⟩
    · have hone := (member_version hstamps hm.item).1
      have hzero : (WorldPool.initial s).shared.client.since=0 := rfl
      exact absurd (hone.trans hv) (by simp [hzero])
    · intro t ht
      cases ht
  have hinv : (runSteps (WorldPool.step P fid) (.initial s) moves).shared.Inv P fid :=
    (world_preserves.run hstart h).shared
  have hmirrors := hinv.mirrors hresp
  rw [runSteps_append]
  apply mirrors_iff_converged.mp
  generalize runSteps (WorldPool.step P fid) (.initial s) moves=p at *
  simp only [runSteps_cons,WorldPool.step,Pool.step,World.outside,Client.read,hresp]
  exact hmirrors

def alone (r : Request) (n : Nat) : List (Move Request SyncEvent) :=
  .start r::List.replicate n (.run 0)

def response : List (Move Request SyncEvent) := List.replicate 3 (.outside .read)

theorem cardName_ne_nil : lit "a.vcf" ≠ [] := by decide

def putCard : List (Move Request SyncEvent) :=
  alone (.put ⟨2,lit "a.vcf",cardName_ne_nil,⟨[],[],[]⟩,true,10⟩) 3

def deleteCard : List (Move Request SyncEvent) := alone (.delete ⟨2,lit "a.vcf",⟨[],[],[]⟩⟩) 5

theorem sync_converges_deletion :
    (runSteps (WorldPool.step cardTarget 2) (.initial (.idle seededPublic))
      ((putCard++response++deleteCard++[.outside .read,.outside .read])++
        [.outside .read])).shared.Converged cardTarget 2 := by
  have hstamps : StampsBounded seededPublic := by
    constructor
    all_goals
      intro r hr
      cases hr
  exact sync_converges cardTarget 2 (.idle seededPublic) hstamps
    (Seeded.idInv seededPublic_seeded) _ (by decide +kernel) [(lit "a.vcf",none)]
    (by decide +kernel)

/-- A name is used again, a member written mid-response, a tombstone purged unseen. -/
theorem sync_diverges :
    let run := fun moves => (runSteps (WorldPool.step cardTarget 2)
      (.initial (.idle seededPublic)) (moves++response)).shared
    let held := fun w : World => (w.client.map (lit "a.vcf")).isSome
    let live := fun w : World => (w.site.findObjectByName cardTarget 2 (lit "a.vcf")).isSome
    let reused := run (putCard++response++deleteCard++putCard)
    let late := run ([.outside .read]++putCard++[.outside .read,.outside .read])
    let purged := run (putCard++response++deleteCard++alone (.dumpster (.purgeSoftDeleted 0x20000)) 4)
    (held reused = false ∧ live reused = true) ∧ (held late = false ∧ live late = true) ∧
      held purged = true ∧ live purged = false := by
  decide +kernel

end HermEX.Dav
