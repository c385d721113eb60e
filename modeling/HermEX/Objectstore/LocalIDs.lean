import HermEX.Objectstore.Identity
import HermEX.Objectstore.Index

namespace HermEX.Objectstore

open Framework Mapi

namespace Store

def allocateLocalIDs (s : Store) (count : Nat) : Except StoreErr (Nat×GUID)×Store :=
  let res := s.objdb.allocateLocalIDs count
  (res.map fun x => (x.1,s.objdb.replica),{s with objdb:=s.objdb.orElse res})

def retried (s : Store) (count n : Nat) : Store := (fun s => (s.allocateLocalIDs count).2)^[n] s

def reservations (s : Store) : List Nat → List (Nat×Nat)
  | [] => []
  | count::counts =>
    let rest := (s.allocateLocalIDs count).2.reservations counts
    match (s.allocateLocalIDs count).1 with
    | .ok x => (x.1,count)::rest
    | .error _ => rest

/-- A call that crosses the range's end succeeds later; reservations are apart. -/
def Retriable (s : Store) (count : Nat) : Prop :=
  ((s.allocateLocalIDs count).1=.error .crossedRange →
    ∃ n x,((s.retried count n).allocateLocalIDs count).1=.ok x) ∧
  ∀ counts,(s.reservations counts).Pairwise fun a b =>
    ∀ id,¬(a.1≤ id ∧ id<a.1+a.2 ∧ b.1≤ id ∧ id<b.1+b.2)

end Store

namespace ObjDB

/-- All writes but two leave the store's range and at most add carved ones. -/
inductive Reached : ObjDB → Prop
  | unseeded (kind : StoreKind) (replica : GUID) : Reached (unseeded kind replica)
  | allocateEID {db : ObjDB} : Reached db → Reached db.allocateEID.2
  | advanceStoreEID {db : ObjDB} (fid : Nat) : Reached db → Reached (db.advanceStoreEID fid)
  | other {db db' : ObjDB} : Reached db → db'.currentEID=db.currentEID →
    db'.maximumEID=db.maximumEID → db.maxRangeEnd≤db'.maxRangeEnd → Reached db'

/-- How many ids in a row the current or the next range gives. -/
def room (db : ObjDB) : Nat :=
  if db.maximumEID≤db.currentEID then allocatedEIDRange-1 else db.maximumEID-db.currentEID

structure Carved (db : ObjDB) : Prop where
  cur : db.currentEID≤db.maximumEID
  ceil : db.maximumEID≤db.maxRangeEnd

variable {db db' : ObjDB} {first prev n count : Nat}

theorem Carved.allocateEID (h : db.Carved) : db.allocateEID.2.Carved := by
  unfold ObjDB.allocateEID
  split_ifs with hfull
  · have hceil := maxRangeEnd_append db (db.maxRangeEnd+1+1) (db.maxRangeEnd+allocatedEIDRange)
    refine ⟨?_,hceil ▸ Nat.le_max_right _ _⟩
    simp only [allocatedEIDRange]
    omega
  · exact ⟨Nat.lt_of_not_le hfull,h.ceil⟩

theorem Reached.carved (h : db.Reached) : db.Carved := by
  induction h with
  | unseeded kind replica => exact ⟨Nat.le_of_ble_eq_true rfl,Nat.le_refl _⟩
  | allocateEID _ ih => exact ih.allocateEID
  | advanceStoreEID fid _ ih =>
    unfold ObjDB.advanceStoreEID
    split_ifs with hin
    · exact ⟨hin.2,ih.ceil⟩
    · exact ih
  | other _ hcur hmax hceil ih => exact ⟨by rw [hcur,hmax]; exact ih.cur,hmax ▸ ih.ceil.trans hceil⟩

theorem Reached.allocateRange (h : db.Reached) : db.allocateRange.2.Reached := by
  have hceil : db.allocateRange.2.maxRangeEnd=db.maxRangeEnd+allocatedEIDRange :=
    congrArg Blocks.ceil (allocateRange_blocks db)
  exact h.other rfl rfl (hceil ▸ Nat.le_add_right _ _)

theorem Reached.insertFolder {db₀ : ObjDB} {row : FolderRow} (h : db₀.Reached)
    (hins : db.insertFolder row=.ok db') (hcur : db.currentEID=db₀.currentEID)
    (hmax : db.maximumEID=db₀.maximumEID) (hceil : db.maxRangeEnd=db₀.maxRangeEnd) :
    db'.Reached := by
  obtain ⟨-,-,t,rfl,-⟩ := insertFolder_ok hins
  exact h.other hcur hmax hceil.ge

theorem Reached.allocateMore (h : db.Reached) (hok : db.allocateMore prev n=.ok db') :
    db'.Reached := by
  induction n generalizing db prev with
  | zero =>
    obtain rfl := Except.ok.inj hok
    exact h
  | succ n ih =>
    simp only [ObjDB.allocateMore] at hok
    split_ifs at hok
    exact ih h.allocateEID hok

theorem Reached.allocateLocalIDs (h : db.Reached)
    (hok : db.allocateLocalIDs count=.ok (first,db')) : db'.Reached := by
  unfold ObjDB.allocateLocalIDs at hok
  split_ifs at hok
  obtain ⟨d,hmore,he⟩ := map_eq_ok hok
  obtain ⟨-,rfl⟩ := Prod.mk.inj he
  exact h.allocateEID.allocateMore hmore

theorem Reached.allocateEIDFromFolder {fid eid : Nat} (h : db.Reached)
    (hok : db.allocateEIDFromFolder fid=.ok (eid,db')) : db'.Reached := by
  have hceil : db.maxRangeEnd≤db'.maxRangeEnd := by
    have hadv := Blocks.take_advance allocatedEIDRange db.blocks (some fid)
    rw [← (allocateEIDFromFolder_take hok).2] at hadv
    exact hadv.ceil
  unfold ObjDB.allocateEIDFromFolder at hok
  split at hok
  · cases hok
  split_ifs at hok <;> obtain ⟨-,rfl⟩ := Prod.mk.inj (Except.ok.inj hok)
  · exact h.other rfl rfl hceil
  · exact h.other rfl rfl hceil

theorem Reached.createFolder {parent : Option Nat} {name : GoString} {now : UInt64} {fid : Nat}
    (h : db.Reached) (hok : db.createFolder parent name now=.ok (fid,db')) : db'.Reached := by
  obtain ⟨d,hins,he⟩ := map_eq_ok hok
  obtain ⟨-,rfl⟩ := Prod.mk.inj he
  exact h.allocateEID.allocateRange.insertFolder hins rfl rfl rfl

theorem Reached.createMessage {fid eid : Nat} {msg : MessageHead} (h : db.Reached)
    (hok : db.createMessage fid msg=.ok (eid,db')) : db'.Reached := by
  obtain ⟨db₁,t,hfrom,rfl,-⟩ := createMessage_ok hok
  exact (h.allocateEIDFromFolder hfrom).other rfl rfl (Nat.le_refl _)

theorem Reached.commitUpload {um : UploadMessage} (h : db.Reached)
    (hok : db.commitUpload um=.ok db') : db'.Reached := by
  obtain ⟨-,-,t,rfl,-⟩ := insertMessageRow_ok hok
  have hclear : (db.allocateCN.2.clearTarget um).Reached := by
    unfold clearTarget
    split_ifs <;> exact h.other rfl rfl (Nat.le_refl _)
  exact hclear.other rfl rfl (Nat.le_refl _)

theorem Reached.moveMessageImport {src srcMID dest dstMID : Nat} (h : db.Reached)
    (hok : db.moveMessageImport src srcMID dest dstMID=.ok db') : db'.Reached := by
  unfold ObjDB.moveMessageImport at hok
  split at hok
  · cases hok
  split_ifs at hok
  simp only at hok
  split at hok
  · cases hok
  obtain rfl := Except.ok.inj hok
  exact h.other rfl rfl (Nat.le_refl _)

theorem Reached.importHierarchyChange {rootFID fid : Nat} {hichyvals propvals : PropertyValues}
    {now : UInt64} (h : db.Reached)
    (hok : db.importHierarchyChange rootFID hichyvals propvals now=.ok (fid,db')) :
    db'.Reached := by
  obtain ⟨imp,-,-,⟨r,-,hup⟩ | ⟨-,hins⟩⟩ := importHierarchyChange_ok hok
  · obtain ⟨-,bag,-,rfl⟩ := updateImportedFolder_ok hup
    exact h.other rfl rfl (Nat.le_refl _)
  · obtain ⟨bag,d,-,hd,rfl⟩ := insertImportedFolder_ok hins
    have hcn : db.allocateCN.2.Reached := h.other rfl rfl (Nat.le_refl _)
    exact (hcn.allocateRange.insertFolder hd rfl rfl rfl).advanceStoreEID _

theorem Reached.orElse {α : Type} {res : Except StoreErr (α×ObjDB)} (h : db.Reached)
    (hok : ∀ x db',res=.ok (x,db') → db'.Reached) : (db.orElse res).Reached := by
  cases res with
  | error e => exact h
  | ok p => exact hok p.1 p.2 rfl

theorem Reached.step {w : IdWorld} (h : w.db.Reached) (a : IdStep) : (w.step a).db.Reached := by
  have hunit {res : Except StoreErr ObjDB} (hres : ∀ db',res=.ok db' → db'.Reached) :
      (w.db.orElse (res.map fun db => ((),db))).Reached := by
    cases res with
    | error e => exact h
    | ok db' => exact hres db' rfl
  cases a with
  | allocateEID => exact h.allocateEID
  | allocateLocalIDs count => exact h.orElse fun _ _ he => h.allocateLocalIDs he
  | allocateEIDFromFolder fid => exact h.orElse fun _ _ he => h.allocateEIDFromFolder he
  | createFolder parent displayName ntNow => exact h.orElse fun _ _ he => h.createFolder he
  | createMessage fid msg => exact h.orElse fun _ _ he => h.createMessage he
  | importMessageChange folderID mid associated msg => exact h
  | commitUpload k =>
    simp only [IdWorld.step]
    split
    · exact h
    · exact hunit fun _ he => h.commitUpload he
  | moveMessageImport src srcMID dest dstMID => exact hunit fun _ he => h.moveMessageImport he
  | importHierarchyChange rootFID hichyvals propvals ntNow =>
    exact h.orElse fun _ _ he => h.importHierarchyChange he

theorem Reached.seedFolders {now : UInt64} {fs : List BuiltinFolder} (h : db.Reached)
    (hok : seedFolders now fs db=.ok db') : db'.Reached := by
  induction fs generalizing db with
  | nil =>
    obtain rfl := Except.ok.inj hok
    exact h
  | cons f fs ih =>
    rw [ObjDB.seedFolders] at hok
    split at hok
    · cases hok
    rename_i db₁ hins
    exact ih (h.allocateRange.insertFolder hins rfl rfl rfl) hok

theorem Seeded.reached (h : db.Seeded) : db.Reached := by
  obtain ⟨replica,now,h | h⟩ := h
  · unfold seedMailbox at h
    split at h
    · cases h
    rename_i db₁ hfs
    exact ((Reached.unseeded _ _).seedFolders hfs).insertFolder h rfl rfl rfl
  · exact (Reached.unseeded _ _).seedFolders h

theorem reached_run (hseed : db.Seeded) (steps : List IdStep) :
    (runSteps IdWorld.step ⟨db,[]⟩ steps).db.Reached :=
  runSteps_invariant (I := fun w : IdWorld => w.db.Reached) (fun _ a h => h.step a) hseed.reached
    steps

theorem allocateEID_cur (db : ObjDB) : db.allocateEID.2.currentEID=db.allocateEID.1+1 ∧
    db.room=db.allocateEID.2.maximumEID-db.allocateEID.1 := by
  unfold allocateEID room
  split_ifs <;> simp [allocatedEIDRange]

theorem Carved.le_allocateEID (h : db.Carved) : db.currentEID≤db.allocateEID.1 := by
  have hceil := h.cur.trans h.ceil
  unfold ObjDB.allocateEID
  split_ifs
  · exact Nat.le_succ_of_le hceil
  · exact Nat.le_refl _

theorem allocateMore_eq (h : db.Carved) (hprev : db.currentEID=prev+1) :
    db.allocateMore prev n=if n≤db.maximumEID-db.currentEID then
      .ok {db with currentEID:=db.currentEID+n} else .error .crossedRange := by
  induction n generalizing db prev with
  | zero => simp [allocateMore]
  | succ n ih =>
    have hcur := h.cur
    have hceil := h.ceil
    have hstep := h.allocateEID
    simp only [allocateMore]
    unfold allocateEID at hstep ⊢
    by_cases hfull : db.maximumEID≤db.currentEID
    · rw [if_pos hfull,if_neg (by simp only; omega),if_neg (by omega)]
    · simp only [if_neg hfull] at hstep ⊢
      rw [if_pos hprev,ih hstep rfl]
      simp only [Nat.add_assoc,Nat.add_comm 1 n]
      exact if_congr (by omega) rfl rfl

theorem allocateLocalIDs_eq (h : db.Carved) (hcount : count≠0) :
    db.allocateLocalIDs count=if count≤db.room then
      .ok (db.allocateEID.1,{db.allocateEID.2 with currentEID:=db.allocateEID.1+count})
      else .error .crossedRange := by
  obtain ⟨hcur,hroom⟩ := allocateEID_cur db
  have hmax : db.allocateEID.1+1≤db.allocateEID.2.maximumEID := hcur ▸ h.allocateEID.cur
  have hlast : db.allocateEID.1+1+(count-1)=db.allocateEID.1+count := by omega
  simp only [allocateLocalIDs,if_neg hcount,allocateMore_eq h.allocateEID hcur,hcur,hlast]
  by_cases hfits : count≤db.room
  · rw [if_pos hfits,if_pos (by omega)]
    rfl
  · rw [if_neg hfits,if_neg (by omega)]
    rfl

theorem allocateLocalIDs_next (h : db.Carved) (hok : db.allocateLocalIDs count=.ok (first,db')) :
    db'.Carved ∧ first=db.allocateEID.1 ∧ first+count≤db'.allocateEID.1 := by
  have hcount : count≠0 := by
    rintro rfl
    cases hok
  obtain ⟨-,hroom⟩ := allocateEID_cur db
  rw [allocateLocalIDs_eq h hcount] at hok
  split_ifs at hok with hfits
  obtain ⟨rfl,rfl⟩ := Prod.mk.inj (Except.ok.inj hok)
  have hc : ({db.allocateEID.2 with currentEID:=db.allocateEID.1+count} : ObjDB).Carved :=
    ⟨by simp only; omega,h.allocateEID.ceil⟩
  exact ⟨hc,rfl,hc.le_allocateEID⟩

end ObjDB

namespace Store

variable {s : Store} {count : Nat}

theorem reservations_apart (h : s.objdb.Carved) (counts : List Nat) :
    (∀ r∈s.reservations counts,s.objdb.allocateEID.1≤ r.1) ∧
      (s.reservations counts).Pairwise fun a b => a.1+a.2≤b.1 := by
  induction counts generalizing s with
  | nil => exact ⟨fun r hr => absurd hr List.not_mem_nil,.nil⟩
  | cons count counts ih =>
    simp only [reservations,allocateLocalIDs]
    cases hok : s.objdb.allocateLocalIDs count with
    | error e => exact ih h
    | ok x =>
      obtain ⟨hc,hfirst,hlt⟩ := ObjDB.allocateLocalIDs_next h hok
      obtain ⟨hge,hrest⟩ := ih (s := {s with objdb:=x.2}) hc
      have hbehind (r : Nat×Nat) (hr : r∈_) : x.1+count≤ r.1 := hlt.trans (hge r hr)
      refine ⟨?_,.cons hbehind hrest⟩
      intro r hr
      rcases List.mem_cons.mp hr with rfl | hr
      · exact hfirst.ge
      · exact hfirst.ge.trans ((Nat.le_add_right _ _).trans (hbehind r hr))

theorem crossed_again (h : s.objdb.Carved) (hroom : s.objdb.room<count) (n : Nat) :
    ((s.retried count n).allocateLocalIDs count).1=.error .crossedRange := by
  have herr : s.allocateLocalIDs count=(.error .crossedRange,s) := by
    simp only [allocateLocalIDs,ObjDB.allocateLocalIDs_eq h (Nat.ne_zero_of_lt hroom),
      if_neg (Nat.not_le.mpr hroom)]
    rfl
  have hsame : s.retried count n=s := Function.iterate_fixed (congrArg Prod.snd herr) n
  rw [hsame,herr]

theorem not_retriable (h : s.objdb.Carved) (hroom : s.objdb.room<count) : ¬s.Retriable count := by
  intro hretry
  have hcross := crossed_again h hroom
  obtain ⟨n,x,hok⟩ := hretry.1 (hcross 0)
  cases (hcross n).symm.trans hok

/-- A refused reservation may be repeated unless it crosses the range's end. -/
theorem allocateLocalIDs_retriable_iff (h : s.objdb.Reached) (count : Nat) :
    s.Retriable count ↔ count≤ s.objdb.room := by
  constructor
  · intro hretry
    by_contra hroom
    exact not_retriable h.carved (Nat.lt_of_not_le hroom) hretry
  · intro hroom
    refine ⟨fun hcall => ?_,fun counts => ?_⟩
    · by_cases hcount : count=0
      · subst hcount
        cases hcall
      · simp only [allocateLocalIDs,ObjDB.allocateLocalIDs_eq h.carved hcount,if_pos hroom] at hcall
        cases hcall
    · refine (reservations_apart h.carved counts).2.imp fun {a b} hab id hid => ?_
      omega

theorem allocateLocalIDs_retriable_fresh :
    (Store.mk (.unseeded .storePrivate .zero) .empty).Retriable 0xFEFF :=
  (allocateLocalIDs_retriable_iff (.unseeded _ _) _).mpr (by decide)

/-- One id more than the range has left is refused forever. -/
theorem crossing_refused_forever :
    ¬(Store.mk (.unseeded .storePrivate .zero) .empty).Retriable 0xFF00 :=
  not_retriable (ObjDB.Reached.unseeded _ _).carved (by decide)

end Store

end HermEX.Objectstore
