import HermEX.Framework.Pool
import HermEX.Objectstore.Index

namespace HermEX.Objectstore

open Framework

/-- The message, the cutoff, its flag then, and its last move to the dumpster. -/
structure Removal where
  mid : Nat
  cutoff : Option Nat
  isDeleted : Bool
  movedAt : Nat
deriving DecidableEq

/-- With `PR_DELETED_ON` stamps and the clock; then history: moves, stamps, removals. -/
structure Dumpster where
  store : Store
  deletedOn : Nat → Option Nat
  now : Nat
  movedAt : Nat → Nat
  stamped : Nat → Bool
  removed : List Removal

inductive DumpsterCall where
  | softDeleteMessage (fid uid : Nat)
  | softDeleteObject (mid : Nat)
  | recoverMessage (fid mid : Nat)
  | recoverMessageTo (mid targetFID : Nat)
  | purgeSoftDeleted (mid : Nat)
  | purgeSoftDeletedInFolder (fid mid : Nat)
  | purgeSoftDeletedOlderThan (cutoff : Nat)

structure Sweep where
  cutoff : Nat
  ids : List Nat

/-- Before its next transaction or read; a sweep goes on after `deleteObject`. -/
inductive DumpsterTask where
  | call (c : DumpsterCall)
  | flagRow (mid : Nat)
  | stampRow (mid : Nat)
  | vanishRow (mid : Nat)
  | restoreRow (mid destFID : Nat) (read : Bool)
  | reindexRow (mid destFID : Nat) (read : Bool)
  | sweep (sw : Sweep)
  | deleteObject (mid : Nat) (sw : Option Sweep)
  | deleteRow (mid : Nat) (sw : Option Sweep)
  | dropIndex (mid : Nat) (sw : Option Sweep)

namespace Dumpster

def get (s : Dumpster) (mid : Nat) : Option MessageRow := s.store.objdb.messages.get mid

def setObj (s : Dumpster) (obj : ObjDB) : Dumpster := {s with store:={s.store with objdb:=obj}}

def setIdx (s : Dumpster) (idx : IndexDB) : Dumpster := {s with store:={s.store with idxdb:=idx}}

def enter (s : Dumpster) : DumpsterCall → Option DumpsterTask
  | .softDeleteMessage fid uid => (s.store.idxdb.byUID fid uid).map fun r => .flagRow r.messageId
  | .softDeleteObject mid =>
    (s.get mid).bind fun r => if r.isDeleted then none else some (.flagRow mid)
  | .recoverMessage fid mid =>
    (s.get mid).bind fun r =>
      if r.parentFid≠fid ∨ ¬r.isDeleted then none else some (.restoreRow mid fid r.readState)
  | .recoverMessageTo mid targetFID =>
    (s.get mid).bind fun r =>
      if ¬r.isDeleted then none else some (.restoreRow mid targetFID r.readState)
  | .purgeSoftDeleted mid =>
    (s.get mid).bind fun r => if ¬r.isDeleted then none else some (.deleteObject mid none)
  | .purgeSoftDeletedInFolder fid mid =>
    (s.get mid).bind fun r =>
      if r.parentFid≠fid ∨ ¬r.isDeleted then none else some (.deleteObject mid none)
  | .purgeSoftDeletedOlderThan cutoff =>
    some (.sweep ⟨cutoff,(s.store.objdb.messages.rows.filter (·.isDeleted)).map (·.messageId)⟩)

def flagRow (s : Dumpster) (mid : Nat) : Dumpster :=
  let moves := (s.get mid).any fun r => !r.isDeleted
  {s.setObj (s.store.objdb.markDeleted mid) with
    movedAt:=if moves then Function.update s.movedAt mid s.now else s.movedAt
    stamped:=if moves then Function.update s.stamped mid false else s.stamped}

def stampRow (s : Dumpster) (mid : Nat) : Option Dumpster :=
  match s.store.objdb.modifyMessageProperties mid with
  | .error _ => none
  | .ok obj => some {s.setObj obj with
      deletedOn:=Function.update s.deletedOn mid (some s.now)
      stamped:=Function.update s.stamped mid true}

def deleteRow (s : Dumpster) (mid : Nat) (cutoff : Option Nat) : Dumpster :=
  {s.setObj (s.store.objdb.deleteMessageRow mid) with
    deletedOn:=Function.update s.deletedOn mid none
    removed:=match s.get mid with
      | none => s.removed
      | some r => s.removed++[⟨mid,cutoff,r.isDeleted,s.movedAt mid⟩]}

end Dumpster

namespace DumpsterTask

def sweepNext (s : Dumpster) (sw : Sweep) : Option DumpsterTask :=
  match sw.ids with
  | [] => none
  | mid::rest =>
    match s.get mid,s.deletedOn mid with
    | none,_ => none
    | some _,none => some (.sweep ⟨sw.cutoff,rest⟩)
    | some _,some on =>
      if on < sw.cutoff then some (.deleteObject mid (some ⟨sw.cutoff,rest⟩))
      else some (.sweep ⟨sw.cutoff,rest⟩)

def exec : DumpsterTask → Dumpster → Option DumpsterTask×Dumpster
  | .call c,s => (s.enter c,s)
  | .flagRow mid,s => (some (.stampRow mid),s.flagRow mid)
  | .stampRow mid,s =>
    match s.stampRow mid with
    | none => (none,s)
    | some s => (some (.vanishRow mid),s)
  | .vanishRow mid,s =>
    match s.store.idxdb.recordVanishedAndDrop mid with
    | .error _ => (none,s)
    | .ok idx => (none,s.setIdx idx)
  | .restoreRow mid destFID read,s =>
    match s.store.objdb.restoreMessageRow mid destFID with
    | .error _ => (none,s)
    | .ok obj => (some (.reindexRow mid destFID read),s.setObj obj)
  | .reindexRow mid destFID read,s =>
    match s.get mid,
        s.store.idxdb.indexMessage s.store.objdb destFID mid (if read then {.seen} else ∅) with
    | some _,.ok (_,idx) => (none,s.setIdx idx)
    | _,_ => (none,s)
  | .sweep sw,s => (sweepNext s sw,s)
  | .deleteObject mid sw,s => ((s.get mid).map fun _ => .deleteRow mid sw,s)
  | .deleteRow mid sw,s => (some (.dropIndex mid sw),s.deleteRow mid (sw.map (·.cutoff)))
  | .dropIndex mid sw,s => (sw.map .sweep,s.setIdx (s.store.idxdb.dropRow mid))

end DumpsterTask

def Dumpster.tick (d : Nat) (s : Dumpster) : Dumpster := {s with now:=s.now+d}

abbrev DumpsterPool := Pool Dumpster DumpsterTask

def DumpsterPool.step : DumpsterPool → Move DumpsterCall Nat → DumpsterPool :=
  Pool.step DumpsterTask.call DumpsterTask.exec Dumpster.tick

def DumpsterPool.idle (store : Store) (deletedOn : Nat → Option Nat) (now : Nat) : DumpsterPool :=
  ⟨⟨store,deletedOn,now,fun _ => 0,fun _ => false,[]⟩,[]⟩

variable (db : ObjDB) (mid k : Nat) {s : Dumpster} {t : DumpsterTask}

theorem get_updateMessage (f : MessageRow → MessageRow) (hf : ∀ r,(f r).messageId=r.messageId) :
    (db.updateMessage mid f hf).messages.get k =
      (db.messages.get k).map fun r => if r.messageId=mid then f r else r := by
  simp [ObjDB.updateMessage,Table.get_updateWhere]

theorem get_createMessage {db db' : ObjDB} {fid eid : Nat} {msg : MessageHead}
    (h : db.createMessage fid msg=.ok (eid,db')) :
    db.messages.get eid=none ∧ ∀ k,db'.messages.get k=if k=eid then
      some ⟨eid,fid,false,msg.associated,db.lastChangeNumber+1,msg.read,none,msg.size⟩
      else db.messages.get k := by
  obtain ⟨db₁,t,he,rfl,hn,ht⟩ := createMessage_ok h
  obtain ⟨hm,hcn⟩ := allocateEIDFromFolder_messages he
  rw [hm] at hn ht
  refine ⟨Table.get_eq_none.mpr hn,fun k => ?_⟩
  have hget := Table.get_of_mem_insert hn ht k
  rw [← hcn]
  exact hget

theorem get_markDeleted :
    (db.markDeleted mid).messages.get k=(db.messages.get k).map fun r =>
      if r.messageId=mid then {r with isDeleted:=true,changeNumber:=db.allocateCN.1}
      else r :=
  get_updateMessage _ _ _ _ _

theorem get_modifyMessageProperties {db db' : ObjDB} {mid : Nat}
    (h : db.modifyMessageProperties mid=.ok db') (k : Nat) :
    db'.messages.get k=(db.messages.get k).map fun r =>
      if r.messageId=mid then {r with changeNumber:=db.allocateCN.1} else r := by
  unfold ObjDB.modifyMessageProperties at h
  split at h
  · cases h
  · obtain rfl := Except.ok.inj h
    exact get_updateMessage _ _ _ _ _

theorem get_restoreMessageRow {db db' : ObjDB} {mid destFID : Nat}
    (h : db.restoreMessageRow mid destFID=.ok db') (k : Nat) :
    db'.messages.get k=(db.messages.get k).map fun r =>
      if r.messageId=mid then
        {r with isDeleted:=false,parentFid:=destFID,changeNumber:=db.allocateCN.1}
      else r := by
  unfold ObjDB.restoreMessageRow at h
  simp only at h
  split at h
  · cases h
  · obtain rfl := Except.ok.inj h
    exact get_updateMessage _ _ _ _ _

theorem get_deleteMessageRow :
    (db.deleteMessageRow mid).messages.get k=if k=mid then none else db.messages.get k :=
  Table.get_deleteKey _ _ _

section Alone

open Pool DumpsterTask

variable (s : Dumpster) (mid : Nat)

theorem softDeleteRow_alone (n : Nat) :
    (alone exec (n+3) (.flagRow mid) s).store=(s.store.softDeleteRow mid).2 := by
  simp only [alone,exec,Dumpster.flagRow,Dumpster.stampRow,Dumpster.setObj,Store.softDeleteRow,ObjDB.softDeleteRow]
  cases (s.store.objdb.markDeleted mid).modifyMessageProperties mid with
  | error e => rfl
  | ok obj =>
    simp only
    cases s.store.idxdb.recordVanishedAndDrop mid <;> rfl

theorem softDeleteMessage_alone (fid uid : Nat) :
    (alone exec 4 (.call (.softDeleteMessage fid uid)) s).store =
      (s.store.softDeleteMessage fid uid).2 := by
  simp only [alone,exec,Dumpster.enter,Store.softDeleteMessage]
  cases s.store.idxdb.byUID fid uid with
  | none => rfl
  | some r => exact softDeleteRow_alone s r.messageId 0

theorem softDeleteObject_alone :
    (alone exec 4 (.call (.softDeleteObject mid)) s).store = (s.store.softDeleteObject mid).2 := by
  simp only [alone,exec,Dumpster.enter,Dumpster.get,Store.softDeleteObject]
  cases s.store.objdb.messages.get mid with
  | none => rfl
  | some r =>
    by_cases hd : r.isDeleted
    · simp [hd]
    · simp only [Option.bind_some,hd]
      exact softDeleteRow_alone s mid 0

theorem restoreMessageRow_alone (destFID : Nat) (read : Bool) {r : MessageRow}
    (hr : s.get mid=some r) (n : Nat) :
    (alone exec (n+2) (.restoreRow mid destFID read) s).store =
      (s.store.restoreMessageRow mid destFID read).2 := by
  simp only [alone,exec,Store.restoreMessageRow]
  cases hobj : s.store.objdb.restoreMessageRow mid destFID with
  | error e => rfl
  | ok obj =>
    have hget : ((s.setObj obj).get mid).isSome := by
      rw [Dumpster.get,show (s.setObj obj).store.objdb.messages.get mid=_ from
        get_restoreMessageRow hobj mid]
      rw [show s.store.objdb.messages.get mid=some r from hr]
      rfl
    obtain ⟨r',hr'⟩ := Option.isSome_iff_exists.mp hget
    simp only [hr']
    simp only [Dumpster.setObj]
    cases s.store.idxdb.indexMessage obj destFID mid (if read then {.seen} else ∅) <;> rfl

theorem recoverMessage_alone (fid mid : Nat) :
    (alone exec 3 (.call (.recoverMessage fid mid)) s).store =
      (s.store.recoverMessage fid mid).2 := by
  simp only [alone,exec,Dumpster.enter,Store.recoverMessage]
  cases hr : s.get mid with
  | none => simp [show s.store.objdb.messages.get mid=none from hr]
  | some r =>
    simp only [show s.store.objdb.messages.get mid=some r from hr,Option.bind_some]
    by_cases hd : r.parentFid≠fid ∨ ¬r.isDeleted
    · simp only [hd,if_true]
    · simp only [hd]
      exact restoreMessageRow_alone s mid fid r.readState hr 0

theorem recoverMessageTo_alone (targetFID : Nat) :
    (alone exec 3 (.call (.recoverMessageTo mid targetFID)) s).store =
      (s.store.recoverMessageTo mid targetFID).2 := by
  simp only [alone,exec,Dumpster.enter,Store.recoverMessageTo]
  cases hr : s.get mid with
  | none => simp [show s.store.objdb.messages.get mid=none from hr]
  | some r =>
    simp only [show s.store.objdb.messages.get mid=some r from hr,Option.bind_some]
    by_cases hd : r.isDeleted
    · simp only [hd]
      exact restoreMessageRow_alone s mid targetFID r.readState hr 0
    · simp [hd]

theorem deleteObject_alone :
    (alone exec 3 (.deleteObject mid none) s).store=(s.store.deleteObject mid).2 := by
  simp only [alone,exec,Dumpster.get,Store.deleteObject]
  cases s.store.objdb.messages.get mid <;> rfl

end Alone

def Dumpster.flag (s : Dumpster) (k : Nat) : Option Bool := (s.get k).map (·.isDeleted)

namespace Dumpster

variable {s : Dumpster} {k mid : Nat}

theorem flag_flagRow (h : (s.flagRow mid).flag k=some false) : s.flag k=some false := by
  have hget : (s.flagRow mid).get k=_ := get_markDeleted s.store.objdb mid k
  rw [flag,hget,Option.map_map] at h
  obtain ⟨r,hr,hd⟩ := Option.map_eq_some_iff.mp h
  have hrd : r.isDeleted=false := by
    simp only [Function.comp_apply] at hd
    split_ifs at hd
    exact hd
  exact Option.map_eq_some_iff.mpr ⟨r,hr,hrd⟩

theorem flag_stampRow {s' : Dumpster} (h : s.stampRow mid=some s') (k : Nat) :
    s'.flag k=s.flag k := by
  unfold stampRow at h
  split at h
  · cases h
  rename_i obj hobj
  cases h
  have hget : (s.setObj obj).get k=_ := get_modifyMessageProperties hobj k
  change ((s.setObj obj).get k).map _=_
  rw [hget,Option.map_map]
  congr 1
  funext r
  simp only [Function.comp_apply]
  split_ifs <;> rfl

theorem flag_restore {obj : ObjDB} {destFID : Nat}
    (h : s.store.objdb.restoreMessageRow mid destFID=.ok obj) (hk : k≠mid) :
    (s.setObj obj).flag k=s.flag k := by
  have hget : (s.setObj obj).get k=_ := get_restoreMessageRow h k
  rw [flag,hget]
  change _=(s.store.objdb.messages.get k).map _
  cases hr : s.store.objdb.messages.get k with
  | none => rfl
  | some r =>
    have hid : r.messageId≠mid := by
      rw [(Table.get_eq_some.mp hr).2]
      exact hk
    simp [hid]

theorem flag_deleteRow {cutoff : Option Nat} (h : (s.deleteRow mid cutoff).flag k=some false) :
    s.flag k=some false := by
  have hget : (s.deleteRow mid cutoff).get k=_ := get_deleteMessageRow s.store.objdb mid k
  rw [flag,hget] at h
  split_ifs at h
  · cases h
  · exact h

end Dumpster

namespace DumpsterTask

theorem exec_flag {t : DumpsterTask} {s : Dumpster} {k : Nat}
    (h : (t.exec s).2.flag k=some false) :
    s.flag k=some false ∨ ∃ destFID read,t=.restoreRow k destFID read := by
  cases t with
  | flagRow mid => exact .inl (Dumpster.flag_flagRow h)
  | stampRow mid =>
    left
    simp only [exec] at h
    split at h
    · exact h
    · rename_i s' hs
      exact (Dumpster.flag_stampRow hs k) ▸ h
  | restoreRow mid destFID read =>
    by_cases hk : k=mid
    · exact .inr ⟨destFID,read,by rw [hk]⟩
    · left
      simp only [exec] at h
      split at h
      · exact h
      · rename_i obj hobj
        exact (Dumpster.flag_restore hobj hk) ▸ h
  | deleteRow mid sw => exact .inl (Dumpster.flag_deleteRow h)
  | vanishRow mid | reindexRow mid destFID read =>
    left
    simp only [exec] at h
    split at h <;> exact h
  | _ => exact .inl h

theorem exec_movedAt (t : DumpsterTask) (s : Dumpster) (k : Nat) :
    (t.exec s).2.movedAt k=s.movedAt k ∨ s.flag k=some false := by
  cases t with
  | flagRow mid =>
    by_cases hk : k=mid ∧ (s.get mid).any fun r => !r.isDeleted
    · obtain ⟨rfl,hmoves⟩ := hk
      obtain ⟨r,hr,hd⟩ := (Option.any_eq_true _ _).mp hmoves
      exact .inr (Option.map_eq_some_iff.mpr ⟨r,hr,by simpa using hd⟩)
    · left
      simp only [exec,Dumpster.flagRow]
      split_ifs with hmoves
      · exact Function.update_of_ne (fun he => hk ⟨he,hmoves⟩) _ _
      · rfl
  | stampRow mid =>
    left
    simp only [exec,Dumpster.stampRow]
    split
    · rfl
    rename_i s' hs
    split at hs
    · cases hs
    · cases hs
      rfl
  | vanishRow mid | restoreRow mid destFID read | reindexRow mid destFID read =>
    left
    simp only [exec]
    split <;> rfl
  | _ => exact .inl rfl

def holds : DumpsterTask → Option Nat
  | .deleteObject mid _ => some mid
  | .deleteRow mid _ => some mid
  | _ => none

def removes : DumpsterTask → Option (Nat×Nat)
  | .deleteObject mid sw => sw.map fun sw => (mid,sw.cutoff)
  | .deleteRow mid sw => sw.map fun sw => (mid,sw.cutoff)
  | _ => none

theorem removes_holds {t : DumpsterTask} {mid c : Nat} (h : t.removes=some (mid,c)) :
    mid∈t.holds := by
  cases t with
  | deleteObject m sw | deleteRow m sw =>
    obtain ⟨sw',-,he⟩ := Option.map_eq_some_iff.mp h
    obtain ⟨rfl,-⟩ := Prod.mk.inj he
    rfl
  | _ => cases h

end DumpsterTask

def Removal.Rightful (r : Removal) : Prop := r.isDeleted=true ∧ ∀ c,r.cutoff=some c → r.movedAt < c

structure Dumpster.Sound (s : Dumpster) : Prop where
  past : ∀ mid,s.movedAt mid ≤ s.now
  stamps : ∀ mid v,s.stamped mid=true → s.deletedOn mid=some v → s.movedAt mid≤v
  removed : ∀ r∈s.removed,r.Rightful

/-- What a purge holds is in the dumpster or gone, and old enough for its sweep. -/
structure DumpsterTask.Sound (s : Dumpster) (t : DumpsterTask) : Prop where
  holds : ∀ mid∈t.holds,s.flag mid≠some false
  removes : ∀ mid c,t.removes=some (mid,c) → s.movedAt mid < c

/-- No purge holds what is restored; a swept message has the stamp of its last move. -/
def DumpsterPool.Undisturbed (p : DumpsterPool) : DumpsterTask → Prop
  | .restoreRow mid _ _ => ∀ u∈p.tasks,mid∉u.holds
  | .sweep sw => ∀ mid∈sw.ids.head?,∀ on∈p.shared.deletedOn mid,on < sw.cutoff →
      p.shared.flag mid≠some false ∧ p.shared.stamped mid=true
  | _ => True

def DumpsterPool.Orderly (p : DumpsterPool) : Move DumpsterCall Nat → Prop
  | .run i => ∀ t∈p.tasks[i]?,p.Undisturbed t
  | _ => True

instance (p : DumpsterPool) : ∀ t,Decidable (p.Undisturbed t)
  | .restoreRow .. => inferInstanceAs (Decidable (∀ u∈p.tasks,_))
  | .sweep sw => inferInstanceAs (Decidable (∀ mid∈sw.ids.head?,∀ on∈p.shared.deletedOn mid,_))
  | .call _ | .flagRow _ | .stampRow _ | .vanishRow _ | .reindexRow _ _ _ | .deleteObject _ _
  | .deleteRow _ _ | .dropIndex _ _ => isTrue trivial

instance (p : DumpsterPool) : ∀ m,Decidable (p.Orderly m)
  | .run i => inferInstanceAs (Decidable (∀ t∈p.tasks[i]?,_))
  | .start _ | .crash | .outside _ => isTrue trivial

theorem DumpsterTask.Sound.of_idle (hh : t.holds=none) (hr : t.removes=none) : t.Sound s := by
  refine ⟨fun mid hm => ?_,fun mid c hc => ?_⟩
  · rw [hh] at hm
    cases hm
  · rw [hr] at hc
    cases hc

theorem DumpsterTask.Sound.exec {u : DumpsterTask} (hu : u.Sound s)
    (hrestore : ∀ mid destFID read,t=.restoreRow mid destFID read → mid∉u.holds) :
    u.Sound (t.exec s).2 := by
  refine ⟨fun mid hm hlive => ?_,fun mid c hc => ?_⟩
  · rcases exec_flag hlive with hlive | ⟨destFID,read,rfl⟩
    · exact hu.holds mid hm hlive
    · exact hrestore mid destFID read rfl hm
  · rcases exec_movedAt t s mid with he | hlive
    · rw [he]
      exact hu.removes mid c hc
    · exact absurd hlive (hu.holds mid (removes_holds hc))

theorem Dumpster.enter_sound {c : DumpsterCall} (h : s.enter c=some t) : t.Sound s := by
  have hpurge : ∀ mid r,s.get mid=some r → r.isDeleted=true →
      (DumpsterTask.deleteObject mid none).Sound s := by
    intro mid r hr hd
    refine ⟨fun k hk hlive => ?_,fun k c hc => by cases hc⟩
    obtain rfl := Option.some.inj hk
    rw [Dumpster.flag,hr] at hlive
    simp [hd] at hlive
  cases c with
  | softDeleteMessage fid uid =>
    obtain ⟨r,-,rfl⟩ := Option.map_eq_some_iff.mp h
    exact .of_idle rfl rfl
  | softDeleteObject mid | recoverMessage fid mid | recoverMessageTo mid targetFID =>
    obtain ⟨r,-,hr⟩ := Option.bind_eq_some_iff.mp h
    split_ifs at hr
    cases hr
    exact .of_idle rfl rfl
  | purgeSoftDeleted mid =>
    obtain ⟨r,hg,hr⟩ := Option.bind_eq_some_iff.mp h
    split_ifs at hr with hd
    cases hr
    exact hpurge mid r hg (by simpa using hd)
  | purgeSoftDeletedInFolder fid mid =>
    obtain ⟨r,hg,hr⟩ := Option.bind_eq_some_iff.mp h
    split_ifs at hr with hd
    cases hr
    exact hpurge mid r hg (by simpa using (not_or.mp hd).2)
  | purgeSoftDeletedOlderThan cutoff =>
    cases h
    exact .of_idle rfl rfl

theorem DumpsterTask.sweepNext_sound {sw : Sweep} (hs : s.Sound)
    (hstamp : ∀ mid∈sw.ids.head?,∀ on∈s.deletedOn mid,on < sw.cutoff →
      s.flag mid≠some false ∧ s.stamped mid=true)
    (h : sweepNext s sw=some t) : t.Sound s := by
  obtain ⟨cutoff,ids⟩ := sw
  cases ids with
  | nil => cases h
  | cons mid rest =>
    simp only [sweepNext] at h
    split at h
    · cases h
    · cases h
      exact .of_idle rfl rfl
    · rename_i on hget hon
      split_ifs at h with hlt
      · cases h
        obtain ⟨hflag,hfresh⟩ := hstamp mid rfl on hon hlt
        refine ⟨fun k hk => ?_,fun k c hc => ?_⟩
        · obtain rfl := Option.some.inj hk
          exact hflag
        · obtain ⟨rfl,rfl⟩ := Prod.mk.inj (Option.some.inj hc)
          exact lt_of_le_of_lt (hs.stamps mid on hfresh hon) hlt
      · cases h
        exact .of_idle rfl rfl

theorem DumpsterTask.next_sound {p : DumpsterPool} {t' : DumpsterTask} (hs : p.shared.Sound)
    (ht : t.Sound p.shared) (hc : p.Undisturbed t) (h : (t.exec p.shared).1=some t') :
    t'.Sound (t.exec p.shared).2 := by
  cases t with
  | call c => exact Dumpster.enter_sound h
  | flagRow mid =>
    cases h
    exact .of_idle rfl rfl
  | stampRow mid | restoreRow mid destFID read =>
    simp only [exec] at h ⊢
    split at h
    · cases h
    · cases h
      exact .of_idle rfl rfl
  | vanishRow mid | reindexRow mid destFID read =>
    simp only [exec] at h
    split at h <;> cases h
  | sweep sw => exact sweepNext_sound hs hc h
  | deleteObject mid sw =>
    obtain ⟨r,-,rfl⟩ := Option.map_eq_some_iff.mp h
    exact ⟨ht.holds,ht.removes⟩
  | deleteRow mid sw =>
    cases h
    exact .of_idle rfl rfl
  | dropIndex mid sw =>
    obtain ⟨sw',rfl,rfl⟩ := Option.map_eq_some_iff.mp h
    exact .of_idle rfl rfl

theorem Dumpster.Sound.flagRow (hs : s.Sound) (mid : Nat) : (s.flagRow mid).Sound := by
  by_cases hmoves : (s.get mid).any fun r => !r.isDeleted
  · have hmoved : (s.flagRow mid).movedAt=Function.update s.movedAt mid s.now := by
      simp [Dumpster.flagRow,if_pos hmoves]
    have hstamped : (s.flagRow mid).stamped=Function.update s.stamped mid false := by
      simp [Dumpster.flagRow,if_pos hmoves]
    refine ⟨fun k => ?_,fun k v hk hv => ?_,hs.removed⟩
    · rw [hmoved]
      by_cases he : k=mid
      · rw [he,Function.update_self]
        exact Nat.le_refl _
      · rw [Function.update_of_ne he]
        exact hs.past k
    · have he : k≠mid := by
        rintro rfl
        rw [hstamped,Function.update_self] at hk
        cases hk
      rw [hstamped,Function.update_of_ne he] at hk
      rw [hmoved,Function.update_of_ne he]
      exact hs.stamps k v hk hv
  · have hmoved : (s.flagRow mid).movedAt=s.movedAt := by simp [Dumpster.flagRow,if_neg hmoves]
    have hstamped : (s.flagRow mid).stamped=s.stamped := by simp [Dumpster.flagRow,if_neg hmoves]
    refine ⟨fun k => ?_,fun k v hk hv => ?_,hs.removed⟩
    · rw [hmoved]
      exact hs.past k
    · rw [hstamped] at hk
      rw [hmoved]
      exact hs.stamps k v hk hv

theorem Dumpster.Sound.stampRow {s' : Dumpster} (hs : s.Sound) {mid : Nat}
    (h : s.stampRow mid=some s') : s'.Sound := by
  unfold Dumpster.stampRow at h
  split at h
  · cases h
  cases h
  refine ⟨hs.past,fun k v hk hv => ?_,hs.removed⟩
  by_cases he : k=mid
  · subst he
    simp only [Function.update_self,Option.some.injEq] at hv
    rw [← hv]
    exact hs.past k
  · simp only [Function.update_of_ne he] at hk hv
    exact hs.stamps k v hk hv

theorem Dumpster.Sound.deleteRow (hs : s.Sound) {mid : Nat} {sw : Option Sweep}
    (ht : (DumpsterTask.deleteRow mid sw).Sound s) :
    (s.deleteRow mid (sw.map (·.cutoff))).Sound := by
  refine ⟨hs.past,fun k v hk hv => ?_,fun r hr => ?_⟩
  · by_cases he : k=mid
    · subst he
      simp [Dumpster.deleteRow] at hv
    · simp only [Dumpster.deleteRow,Function.update_of_ne he] at hv
      exact hs.stamps k v hk hv
  · simp only [Dumpster.deleteRow] at hr
    split at hr
    · exact hs.removed r hr
    · rename_i row hrow
      rcases List.mem_append.mp hr with hr | hr
      · exact hs.removed r hr
      · obtain rfl := List.mem_singleton.mp hr
        refine ⟨?_,fun c hc => ?_⟩
        · have hheld := ht.holds mid rfl
          rw [Dumpster.flag,hrow] at hheld
          simpa using hheld
        · obtain ⟨sw',rfl,rfl⟩ := Option.map_eq_some_iff.mp hc
          exact ht.removes mid sw'.cutoff rfl

theorem DumpsterTask.exec_sound (hs : s.Sound) (ht : t.Sound s) : (t.exec s).2.Sound := by
  cases t with
  | flagRow mid => exact hs.flagRow mid
  | stampRow mid =>
    simp only [exec]
    split
    · exact hs
    · rename_i s' hs'
      exact hs.stampRow hs'
  | deleteRow mid sw => exact hs.deleteRow ht
  | vanishRow mid | restoreRow mid destFID read =>
    simp only [exec]
    split
    · exact hs
    · exact ⟨hs.past,hs.stamps,hs.removed⟩
  | reindexRow mid destFID read =>
    simp only [exec]
    split
    · exact ⟨hs.past,hs.stamps,hs.removed⟩
    · exact hs
  | _ => exact ⟨hs.past,hs.stamps,hs.removed⟩

theorem dumpster_preserves : Pool.Preserves DumpsterTask.call DumpsterTask.exec Dumpster.tick
    DumpsterPool.Orderly Dumpster.Sound DumpsterTask.Sound where
  start p c _ _ := .of_idle rfl rfl
  shared p i t hi hp _ := DumpsterTask.exec_sound hp.shared (hp.tasks t (List.mem_of_getElem? hi))
  next p i t t' hi hp hc ht' :=
    DumpsterTask.next_sound hp.shared (hp.tasks t (List.mem_of_getElem? hi)) (hc t hi) ht'
  others p i t u hi hp hc hu := by
    refine (hp.tasks u hu).exec ?_
    rintro mid destFID read rfl
    exact hc _ hi u hu
  outside p d hp _ := by
    refine ⟨⟨fun mid => ?_,hp.shared.stamps,hp.shared.removed⟩,fun t ht => ?_⟩
    · exact (hp.shared.past mid).trans (Nat.le_add_right _ _)
    · exact ⟨(hp.tasks t ht).holds,(hp.tasks t ht).removes⟩

def oneMessage : Store :=
  ⟨{ObjDB.ofFolders (.single ⟨13,none,1,false,0x10000,0x1FFFF,[]⟩) with
    messages:=.single ⟨5,13,false,false,1,false,none,0⟩},.empty⟩

end HermEX.Objectstore
