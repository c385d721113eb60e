import HermEX.Dav.Members

namespace HermEX.Dav

open Framework Objectstore

def Task.relies : Task → Option (Nat×Bytes×Option FolderObject)
  | .write r existing => some (r.fid,r.name,existing)
  | .softDelete r o (.call _) => some (r.fid,r.name,some o)
  | .softDelete r o (.flagRow _) => some (r.fid,r.name,some o)
  | _ => none

def Task.Current (P : Protocol) (s : Site) (t : Task) : Prop :=
  ∀ x∈t.relies,s.findObjectByName P x.1 x.2.1=x.2.2

instance (P : Protocol) (s : Site) (t : Task) : Decidable (t.Current P s) :=
  inferInstanceAs (Decidable (∀ x∈t.relies,_))

def SitePool.run (P : Protocol) (p : SitePool) (i : Nat) : SitePool := SitePool.step P p (.run i)

def SitePool.Current (P : Protocol) (p : SitePool) (i : Nat) : Prop :=
  ∀ t∈p.tasks[i]?,t.Current P p.shared

instance (P : Protocol) (p : SitePool) (i : Nat) : Decidable (p.Current P i) :=
  inferInstanceAs (Decidable (∀ t∈p.tasks[i]?,_))

def Request.On (fid : Nat) (name : Bytes) : Request → Prop
  | .put r => r.fid=fid ∧ r.name=name
  | .delete r => r.fid=fid ∧ r.name=name
  | _ => False

def Request.Presents (e : Bytes) : Request → Prop
  | .put r => r.headers.ifMatch=e ∧ r.headers.ifScheduleTagMatch=[] ∧ e≠[]
  | .delete r => r.headers.ifMatch=e ∧ r.headers.ifScheduleTagMatch=[] ∧ e≠[]
  | _ => False

def Request.CreateOnly : Request → Prop
  | .put r => r.headers.ifNoneMatch=lit "*"
  | _ => False

/-- Change numbers were given out, and live names are distinct. -/
structure Site.Sound (P : Protocol) (s : Site) : Prop where
  stamps : StampsBounded s.db
  distinct : ∀ fid,DistinctIn (s.member P) fid

inductive SoftDeletes (id : Nat) : DumpsterTask → Prop
  | call : SoftDeletes id (.call (.softDeleteObject id))
  | flag : SoftDeletes id (.flagRow id)
  | stamp : SoftDeletes id (.stampRow id)
  | vanish : SoftDeletes id (.vanishRow id)

theorem SoftDeletes.next {id : Nat} {t t' : DumpsterTask} {d : Dumpster} (h : SoftDeletes id t)
    (hn : (t.exec d).1=some t') : SoftDeletes id t' := by
  cases h with
  | call =>
    obtain ⟨r,-,hr⟩ := Option.bind_eq_some_iff.mp hn
    split_ifs at hr
    cases hr
    exact .flag
  | flag =>
    cases hn
    exact .stamp
  | stamp =>
    simp only [DumpsterTask.exec] at hn
    split at hn
    · cases hn
    · cases hn
      exact .vanish
  | vanish =>
    simp only [DumpsterTask.exec] at hn
    split at hn <;> cases hn

def Task.On (P : Protocol) (fid : Nat) (name : Bytes) (Q : Option FolderObject → Prop) : Task → Prop
  | .put r => (r.fid=fid ∧ r.name=name) ∧ ∀ ex,putPrecondition P r.headers ex=none → Q ex
  | .readBody r ex => (r.fid=fid ∧ r.name=name) ∧ Q ex
  | .write r ex => (r.fid=fid ∧ r.name=name) ∧ Q ex
  | .replaceRecipients _ => True
  | .delete r => (r.fid=fid ∧ r.name=name) ∧ ∀ o,deletePrecondition P r.headers o=none → Q (some o)
  | .softDelete r o t => (r.fid=fid ∧ r.name=name) ∧ Q (some o) ∧ SoftDeletes o.id t
  | _ => False

section Step

variable {P : Protocol} {fid : Nat} {name : Bytes} {Q : Option FolderObject → Prop} {s : Site}
  {t : Task}

theorem Task.On.next {t' : Task} (h : t.On P fid name Q) (hn : (t.exec P s).1=some t') :
    t'.On P fid name Q := by
  cases t with
  | put r =>
    simp only [Task.exec] at hn
    split at hn
    · cases hn
    · rename_i hpre
      cases hn
      exact ⟨h.1,h.2 _ (by simpa using hpre)⟩
  | readBody r ex =>
    simp only [Task.exec] at hn
    split at hn
    · cases hn
      exact h
    · cases hn
  | write r ex =>
    simp only [Task.exec] at hn
    split at hn
    · cases hn
    split at hn
    · obtain ⟨o,-,rfl⟩ := Option.map_eq_some_iff.mp hn
      trivial
    · cases hn
  | replaceRecipients id => cases hn
  | delete r =>
    simp only [Task.exec] at hn
    split at hn
    · cases hn
    split at hn
    · cases hn
    · rename_i o _ hpre
      cases hn
      exact ⟨h.1,h.2 o (by simpa using hpre),.call⟩
  | softDelete r o u =>
    obtain ⟨u',hu,rfl⟩ := Option.map_eq_some_iff.mp hn
    exact ⟨h.1,h.2.1,h.2.2.next hu⟩
  | _ => exact h.elim

theorem Task.On.keeps {e : Edit Nat Nat Bytes} (h : t.On P fid name Q) (hc : t.Current P s)
    (he : Does P t e) : e.Keeps (s.member P) := by
  cases he with
  | writeNew r id =>
    have hfind : s.findObjectByName P r.fid r.name=none := hc _ rfl
    have hfree := findObjectByName_eq_none hfind
    rw [← show named P.ext id r.name=r.name from if_neg r.valid] at hfree
    exact hfree
  | writeOld r o =>
    have hfind : s.findObjectByName P r.fid r.name=some o := hc _ rfl
    intro m hm
    have hat := (findObjectByName_eq_some hfind).item
    obtain rfl := Option.some.inj (hat.symm.trans hm)
    exact (if_neg r.valid).symm
  | recipients id => trivial
  | copy r src replacing id => exact h.elim
  | @dump _ u _ hd hu =>
    cases t with
    | softDelete r o u' =>
      cases hd
      cases h.2.2 with
      | call | vanish => cases hu
      | flag | stamp =>
        cases hu
        trivial
    | removeDst r src dst u' | dumpster u' => exact h.elim
    | _ => cases hd

theorem Task.On.sound (h : t.On P fid name Q) (hc : t.Current P s) (hs : s.Sound P) :
    (t.exec P s).2.Sound P := by
  rcases exec_writes P t s with ⟨hdb,hnames⟩ | ⟨e,he,hw⟩
  · have hview := member_congr (P := P) hdb hnames
    exact ⟨hdb.symm ▸ hs.stamps,fun c => hview.symm ▸ hs.distinct c⟩
  · refine ⟨hs.stamps.stamped hw.stamped,fun c => ?_⟩
    rw [hw.member]
    exact (hs.distinct c).apply (h.keeps hc he)

theorem Task.On.succeeds (h : t.On P fid name Q) (hc : t.Current P s) :
    (t.exec P s).2.succeeded=s.succeeded ∨
      ∃ x e,(t.exec P s).2.succeeded=s.succeeded++[x] ∧
        Q (s.findObjectByName P fid name) ∧
        Writes P s e (t.exec P s).2.db (t.exec P s).2.resourceName ∧
        (s.findObjectByName P fid name=none → ∃ id,e=.create id fid name) ∧
        ∀ o,s.findObjectByName P fid name=some o → e.target=o.id := by
  cases t with
  | put r =>
    left
    simp only [Task.exec]
    split <;> rfl
  | readBody r ex => exact .inl rfl
  | write r ex =>
    obtain ⟨⟨rfl,rfl⟩,hq⟩ := h
    have hfind : s.findObjectByName P r.fid r.name=ex := hc _ rfl
    cases ex with
    | none =>
      simp only [Task.exec,Site.replaceObject]
      cases hn : s.createObject r.fid r.size r.name with
      | none => exact .inl rfl
      | some s' =>
        obtain ⟨id,hw⟩ := createObject_writes P hn
        rw [show named P.ext id r.name=r.name from if_neg r.valid] at hw
        have hlog := (createObject_history hn).1
        rw [hfind]
        exact .inr ⟨_,_,congrArg (·++[_]) hlog,hq,hw,fun _ => ⟨id,rfl⟩,by simp⟩
    | some o =>
      simp only [Task.exec,Site.replaceObject]
      cases hn : s.modifyObject o.id with
      | none => exact .inl rfl
      | some s' =>
        obtain ⟨db,hm,rfl⟩ := modifyObject_writes hn
        rw [hfind]
        exact .inr ⟨_,_,rfl,hq,.rename hm,by simp,by simp [Edit.target]⟩
  | replaceRecipients id =>
    left
    simp only [Task.exec]
    cases hn : s.modifyObject id with
    | none => rfl
    | some s' =>
      obtain ⟨db,-,rfl⟩ := modifyObject_writes hn
      rfl
  | delete r =>
    left
    simp only [Task.exec]
    split
    · rfl
    · split <;> rfl
  | softDelete r o u =>
    obtain ⟨⟨rfl,rfl⟩,hq,hu⟩ := h
    cases hu with
    | call =>
      left
      have hfind : s.findObjectByName P r.fid r.name=some o := hc _ rfl
      obtain ⟨row,hr,hid,-,hm⟩ := member_eq_some.mp (findObjectByName_eq_some hfind).item
      injection hm with _ _ _ hlive
      have hget : s.dump.get o.id=some row := Table.get_eq_some.mpr ⟨hr,hid⟩
      have hnot : Site.deletes s.dump (.call (.softDeleteObject o.id))=false := by
        simp [Site.deletes,hget,← hlive]
      simp only [Task.exec,hnot]
      rfl
    | flag =>
      have hfind : s.findObjectByName P r.fid r.name=some o := hc _ rfl
      rw [hfind]
      exact .inr ⟨_,_,rfl,hq,.flag o.id,by simp,by simp [Edit.target]⟩
    | stamp | vanish => exact .inl rfl
  | _ => exact h.elim

end Step

section Exclusion

variable (P : Protocol) (fid : Nat) (name : Bytes)

/-- From `U` no request that demands `Q` succeeds, and one that does leads there. -/
structure Excludes (Q : Option FolderObject → Prop) (U : Site → Prop) : Prop where
  blocks : ∀ s,U s → ¬Q (s.findObjectByName P fid name)
  commits : ∀ s s' e,s.Sound P → Q (s.findObjectByName P fid name) →
    Writes P s e s'.db s'.resourceName →
    (s.findObjectByName P fid name=none → ∃ id,e=.create id fid name) →
    (∀ o,s.findObjectByName P fid name=some o → e.target=o.id) → U s'
  keeps : ∀ s s' t e,t.On P fid name Q → t.Current P s → Does P t e →
    Writes P s e s'.db s'.resourceName → U s → U s'
  congr : ∀ s s',s'.db=s.db → s'.resourceName=s.resourceName → U s → U s'

/-- No request has succeeded, or one has and no other can. -/
structure Site.Once (U : Site → Prop) (s : Site) : Prop where
  sound : s.Sound P
  once : s.succeeded=[] ∨ (s.succeeded.length=1 ∧ U s)

variable {P fid name} {Q : Option FolderObject → Prop} {U : Site → Prop} {s : Site}

theorem Excludes.exec (hx : Excludes P fid name Q U) {t : Task} (hs : s.Once P U)
    (ht : t.On P fid name Q) (hc : t.Current P s) : (t.exec P s).2.Once P U := by
  refine ⟨ht.sound hc hs.sound,?_⟩
  rcases ht.succeeds hc with hlog | ⟨x,e,hlog,hq,hw,hnew,hold⟩
  · rw [hlog]
    rcases hs.once with hnil | ⟨hone,hu⟩
    · exact .inl hnil
    · refine .inr ⟨hone,?_⟩
      rcases exec_writes P t s with ⟨hdb,hnames⟩ | ⟨e,he,hw⟩
      · exact hx.congr s _ hdb hnames hu
      · exact hx.keeps s _ t e ht hc he hw hu
  · right
    rcases hs.once with hnil | ⟨-,hu⟩
    · refine ⟨?_,hx.commits s _ e hs.sound hq hw hnew hold⟩
      rw [hlog,hnil]
      rfl
    · exact absurd hq (hx.blocks s hu)

theorem on_run {I : Site → Prop}
    (hI : ∀ (s : Site) (t : Task),I s → t.On P fid name Q → t.Current P s → I (t.exec P s).2)
    {r₁ r₂ : Request} (hs : I s) (h₁ : (Task.enter r₁).On P fid name Q)
    (h₂ : (Task.enter r₂).On P fid name Q) {sched : List Nat}
    (h : Meets (SitePool.run P) (SitePool.Current P) ⟨s,[.enter r₁,.enter r₂]⟩ sched) :
    I (runSteps (SitePool.run P) ⟨s,[.enter r₁,.enter r₂]⟩ sched).shared := by
  have hpreserves : Pool.Preserves Task.enter (Task.exec P) Site.tick
      (fun p m => ∃ i,m=.run i ∧ SitePool.Current P p i) I fun _ t => t.On P fid name Q := by
    refine ⟨fun p op _ hc => ?_,fun p i t hi hp hc => ?_,fun p i t t' hi hp _ hn => ?_,
      fun p i t u _ hp _ hu => hp.tasks u hu,fun p d _ hc => ?_⟩
    · obtain ⟨i,he,-⟩ := hc
      cases he
    · obtain ⟨j,he,hc⟩ := hc
      obtain rfl := Move.run.inj he
      exact hI p.shared t hp.shared (hp.tasks t (List.mem_of_getElem? hi)) (hc t hi)
    · exact (hp.tasks t (List.mem_of_getElem? hi)).next hn
    · obtain ⟨i,he,-⟩ := hc
      cases he
  have hstart : Pool.Holds I (fun _ t => t.On P fid name Q)
      (⟨s,[.enter r₁,.enter r₂]⟩ : SitePool) := by
    refine ⟨hs,fun t ht => ?_⟩
    rcases List.mem_pair.mp ht with rfl | rfl
    · exact h₁
    · exact h₂
  have hinv := h.invariant (fun p i hp hc => hpreserves.step p (.run i) hp ⟨i,rfl,hc⟩) hstart
  exact hinv.shared

theorem Site.Once.length_le (h : s.Once P U) : s.succeeded.length≤1 := by
  rcases h.once with hnil | ⟨hone,-⟩
  · rw [hnil]
    exact Nat.zero_le 1
  · exact hone.le

end Exclusion

section Demands

variable {P : Protocol} {fid : Nat} {name : Bytes} {r : Request}

def Spent (P : Protocol) (fid : Nat) (name e : Bytes) (s : Site) : Prop :=
  ∃ c,etag c=e ∧ c ≤ s.db.lastChangeNumber ∧
    ∀ id m,LiveAt (s.member P) fid id m → m.name=name → m.version≠c

def HasTag (e : Bytes) (ex : Option FolderObject) : Prop := ∃ o,ex=some o ∧ etag o.changeNumber=e

theorem spent_excludes (e : Bytes) :
    Excludes P fid name (HasTag e) (Spent P fid name e) := by
  constructor
  · rintro s ⟨c,hc,-,hgone⟩ ⟨o,ho,he⟩
    have hat := findObjectByName_eq_some ho
    exact hgone o.id _ hat rfl (etag_injective (he.trans hc.symm))
  · rintro s s' ed hs ⟨o,ho,he⟩ hw-htarget
    have hat := findObjectByName_eq_some ho
    have hold := (member_version hs.stamps hat.item).2
    refine ⟨o.changeNumber,he,hold.trans hw.stamped.mono,fun id m hm hn => ?_⟩
    rw [hw.member] at hm
    rcases Edit.apply_eq_some hm.item with ⟨hne,hitem⟩ | ⟨-,-,hnew⟩
    · have hid := hs.distinct fid id o.id m _ ⟨hitem,hm.coll,hm.live⟩ hat hn
      exact absurd (hid.trans (htarget o ho).symm) hne
    · rw [hnew]
      exact (Nat.lt_succ_of_le hold).ne'
  · rintro s s' t ed - - - hw ⟨c,hc,hle,hgone⟩
    refine ⟨c,hc,hle.trans hw.stamped.mono,fun id m hm hn => ?_⟩
    rw [hw.member] at hm
    rcases Edit.apply_eq_some hm.item with ⟨-,hitem⟩ | ⟨-,-,hnew⟩
    · exact hgone id m ⟨hitem,hm.coll,hm.live⟩ hn
    · rw [hnew]
      exact (Nat.lt_succ_of_le hle).ne'
  · rintro s s' hdb hnames ⟨c,hc,hle,hgone⟩
    refine ⟨c,hc,hdb.symm ▸ hle,?_⟩
    rw [show s'.member P=s.member P from member_congr hdb hnames]
    exact hgone

theorem named_excludes :
    Excludes P fid name (· = none) fun s => Named (s.member P) fid name := by
  constructor
  · intro s hn hfind
    exact findObjectByName_eq_none hfind hn
  · intro s s' ed _ hfind hw hnew _
    obtain ⟨id,rfl⟩ := hnew hfind
    rw [hw.member]
    exact ⟨id,_,⟨Edit.apply_target _ _ _,rfl,rfl⟩,rfl⟩
  · intro s s' t ed ht hc he hw hn
    cases he with
    | writeNew r id =>
      have hfind : s.findObjectByName P r.fid r.name=none := hc _ rfl
      obtain ⟨⟨rfl,rfl⟩,-⟩ := ht
      exact absurd hn (findObjectByName_eq_none hfind)
    | writeOld r o => cases ht.2
    | recipients id =>
      rw [hw.member]
      exact hn.touch id _
    | copy r src replacing id => exact ht.elim
    | dump hd hu =>
      cases t with
      | softDelete r o u => cases ht.2.1
      | removeDst r src dst u | dumpster u => exact ht.elim
      | _ => cases hd
  · intro s s' hdb hnames hn
    rw [member_congr hdb hnames]
    exact hn

theorem Request.Presents.demands {e : Bytes} (hp : r.Presents e) (h : r.On fid name) :
    (Task.enter r).On P fid name (HasTag e) := by
  have htag : ∀ ex,tagMatches etag e ex=true → HasTag e ex := by
    intro ex hex
    obtain ⟨o,ho,he⟩ := (Option.any_eq_true _ _).mp hex
    exact ⟨o,ho,(of_decide_eq_true he).symm⟩
  cases r with
  | put r =>
    obtain ⟨rfl,hst,hne⟩ := hp
    refine ⟨h,fun ex hpre => htag ex ?_⟩
    unfold putPrecondition at hpre
    split_ifs at hpre with hcal
    · simp only [calPutPrecondition,scheduleTagPrecondition,ne_eq] at hpre
      split_ifs at hpre with _ hmis
      simpa [hne] using hmis
    · simp only [etagPrecondition] at hpre
      split_ifs at hpre with _ hmis
      simpa [hne] using hmis
  | delete r =>
    obtain ⟨rfl,hst,hne⟩ := hp
    refine ⟨h,fun o hpre => ?_⟩
    unfold deletePrecondition at hpre
    split_ifs at hpre with hcal hmis
    · simp only [scheduleTagPrecondition,ne_eq] at hpre
      split_ifs at hpre with hmis
      exact htag _ (by simpa [hne] using hmis)
    · have heq : r.headers.ifMatch=etag o.changeNumber := by simpa [hne] using hmis
      exact ⟨o,rfl,heq.symm⟩
  | _ => exact h.elim

theorem Request.CreateOnly.demands (hc : r.CreateOnly) (h : r.On fid name) :
    (Task.enter r).On P fid name (· = none) := by
  cases r with
  | put r =>
    have hstar : r.headers.ifNoneMatch=lit "*" := hc
    refine ⟨h,fun ex hpre => ?_⟩
    cases ex with
    | none => rfl
    | some o =>
      unfold putPrecondition at hpre
      split_ifs at hpre
      · simp [calPutPrecondition,hstar] at hpre
      · simp [etagPrecondition,hstar] at hpre
  | _ => exact hc.elim

theorem Request.On.demands (h : r.On fid name) :
    (Task.enter r).On P fid name fun _ => True := by
  cases r with
  | put r | delete r => exact ⟨h,fun _ _ => trivial⟩
  | _ => exact h.elim

end Demands

/-- While two writers write only over what they found, one ETag is used once, one name created
once. -/
theorem conditional_writes_atomic (P : Protocol) (s : Site) (hstamps : StampsBounded s.db)
    (hnames : ∀ fid,s.DistinctNames P fid) (hlog : s.succeeded = []) (fid : Nat) (name : Bytes)
    (r₁ r₂ : Request) (h₁ : r₁.On fid name) (h₂ : r₂.On fid name) (sched : List Nat)
    (h : Meets (SitePool.run P) (SitePool.Current P) ⟨s,[.enter r₁,.enter r₂]⟩ sched) :
    let s' := (runSteps (SitePool.run P) ⟨s,[.enter r₁,.enter r₂]⟩ sched).shared
    (∀ e,r₁.Presents e → r₂.Presents e → s'.succeeded.length ≤ 1) ∧
      (r₁.CreateOnly → r₂.CreateOnly → s'.succeeded.length ≤ 1) ∧
      ∀ fid,s'.DistinctNames P fid := by
  have hs : s.Sound P := ⟨hstamps,fun fid => distinctNames_iff.mp (hnames fid)⟩
  refine ⟨fun e he₁ he₂ => ?_,fun hc₁ hc₂ => ?_,fun fid => ?_⟩
  · have honce := on_run
      (fun s t hs ht hc => (spent_excludes e).exec hs ht hc) ⟨hs,.inl hlog⟩ (he₁.demands h₁)
      (he₂.demands h₂) h
    exact honce.length_le
  · have honce := on_run
      (fun s t hs ht hc => named_excludes.exec hs ht hc) ⟨hs,.inl hlog⟩ (hc₁.demands h₁)
      (hc₂.demands h₂) h
    exact honce.length_le
  · have hsound := on_run (fun s t hs ht hc => ht.sound hc hs) hs
      h₁.demands h₂.demands h
    exact distinctNames_iff.mpr (hsound.distinct fid)

def noContact : Site := .idle (.ofFolders (.single ⟨0x13,none,1,false,0x10000,0x1FFFF,[]⟩))

def oneContact : Site :=
  (noContact.setObj {noContact.db with
    messages:=.single ⟨0x10000,0x13,false,false,1,false,none,10⟩,lastChangeNumber:=1}).setName
    0x10000 (lit "a.vcf")

def putContact (h : Headers) : PutRequest := ⟨0x13,lit "a.vcf",by decide,h,true,10⟩

/-- Two replacements in turn: the second meets another ETag. -/
theorem conditional_writes_atomic_sequence :
    let r := Request.put (putContact ⟨[],etag 1,[]⟩)
    let s := (runSteps (SitePool.run cardTarget) ⟨oneContact,[.enter r,.enter r]⟩ [0,0,0,0]).shared
    s.succeeded.length ≤ 1 := by
  intro r
  have hstamps : StampsBounded oneContact.db := by
    constructor
    · intro row hrow
      obtain rfl := List.mem_singleton.mp hrow
      decide
    · intro row hrow c hc
      obtain rfl := List.mem_singleton.mp hrow
      cases hc
  have hone : ∀ fid,∀ o∈oneContact.db.listFolderObjects fid,o=⟨0x10000,1⟩ := by
    intro fid o ho
    obtain ⟨row,hrow,rfl⟩ := List.mem_map.mp ho
    have hmem := (mem_folderRows.mp (List.mem_filter.mp hrow).1).1
    obtain rfl := List.mem_singleton.mp hmem
    rfl
  have hnames : ∀ fid,oneContact.DistinctNames cardTarget fid := by
    intro fid o ho o' ho' _
    rw [hone fid o ho,hone fid o' ho']
  have hatomic := conditional_writes_atomic cardTarget oneContact hstamps hnames rfl 0x13
    (lit "a.vcf") r r ⟨rfl,rfl⟩ ⟨rfl,rfl⟩ [0,0,0,0] (by decide)
  exact hatomic.1 (etag 1) ⟨rfl,rfl,by decide⟩ ⟨rfl,rfl,by decide⟩

/-- Both find, then both write: two replacements succeed, and two creations. -/
theorem conditional_writes_race :
    let replace := Request.put (putContact ⟨[],etag 1,[]⟩)
    let create := Request.put (putContact ⟨lit "*",[],[]⟩)
    let replaced := (runSteps (SitePool.run cardTarget)
      ⟨oneContact,[.enter replace,.enter replace]⟩ [0,1,0,1,0,0]).shared
    let created := (runSteps (SitePool.run cardTarget)
      ⟨noContact,[.enter create,.enter create]⟩ [0,1,0,1,0,0]).shared
    replaced.succeeded.length = 2 ∧ created.succeeded.length = 2 ∧
      ¬created.DistinctNames cardTarget 0x13 := by
  decide

end HermEX.Dav
