import HermEX.Framework.Snapshots
import HermEX.Framework.Text
import HermEX.Framework.Runs
import Mathlib.Data.List.Sort
import Mathlib.Logic.Function.Basic

namespace HermEX.Ews

open Framework

abbrev Items := Snapshot Bytes Int64

structure FolderItemState where
  syncState : Bytes
  items : Items

def nextSyncState (token : Bytes) : Bytes :=
  (parseUint 64 token).elim (formatNat 1) fun n => formatNat ((n+1)%2^64)

def baselineSnapshot (syncState : Bytes) (fstate : FolderItemState) : Option Items :=
  if syncState=[] then some .empty
  else if syncState=fstate.syncState then some fstate.items
  else none

def maxSyncBatch : Nat := 512

def syncBatchLimit (requested : Int) : Nat :=
  if requested≤0 ∨ requested > maxSyncBatch then maxSyncBatch else requested.toNat

def sortIDs (ids : List Bytes) : List Bytes := ids.insertionSort fun a b => a≤b

abbrev Listing := List (Bytes×Int64)

def pendingItemChanges (live : Listing) (snap : Items) : List (Delta Bytes Int64) :=
  snap.diff sortIDs live

def syncBatch (all : List (Delta Bytes Int64)) (requested : Int) : List (Delta Bytes Int64)×Bool :=
  (all.take (syncBatchLimit requested),decide (all.length ≤ syncBatchLimit requested))

structure ItemChanges where
  create : List (Delta Bytes Int64)
  update : List (Delta Bytes Int64)
  delete : List (Delta Bytes Int64)

def renderItemChanges (changeItem : Bytes → Bool) (all : List (Delta Bytes Int64)) (snap : Items) :
    Option (ItemChanges×Items) :=
  if all.all fun d => d.isDelete || changeItem d.key then
    some (⟨all.filter Delta.isAdd,all.filter Delta.isChange,all.filter Delta.isDelete⟩,
      snap.applyAll all)
  else none

structure View where
  live : Listing
  changeItem : Bytes → Bool

structure Response where
  syncState : Bytes
  changes : ItemChanges
  includesLast : Bool

def syncFolderItems (fstate : FolderItemState) (snap : Items) (v : View) (requested : Int) :
    Option (FolderItemState×Response) :=
  let batch := syncBatch (pendingItemChanges v.live snap) requested
  (renderItemChanges v.changeItem batch.1 snap).map fun r =>
    (⟨nextSyncState fstate.syncState,r.2⟩,⟨nextSyncState fstate.syncState,r.1,batch.2⟩)

/-- The last token received, and the map built so far. -/
structure Client where
  token : Bytes
  items : Items

def Client.base (c : Client) (prime : Bool) : Items := if prime then .empty else c.items

def Client.receive (c : Client) (prime : Bool) (r : Response) : Client :=
  ⟨r.syncState,(c.base prime).applyAll (r.changes.create++r.changes.update++r.changes.delete)⟩

/-- The state loaded and the snapshot diffed against. -/
structure Pending where
  prime : Bool
  fstate : FolderItemState
  snap : Items

/-- The stored state, the clients, and their requests. -/
structure World (ι : Type) where
  stored : FolderItemState
  clients : ι → Client
  pending : ι → Option Pending

/-- A request begins, fails, or is saved and answered, perhaps in vain. -/
inductive Event (ι : Type) where
  | load (i : ι) (prime : Bool)
  | fail (i : ι)
  | save (i : ι) (v : View) (requested : Int) (received : Bool)

namespace World

variable {ι : Type} [DecidableEq ι]

def presents (w : World ι) (i : ι) (prime : Bool) : Bytes := if prime then [] else (w.clients i).token

def load (w : World ι) (i : ι) (prime : Bool) : World ι :=
  if (w.pending i).isSome then w
  else (baselineSnapshot (w.presents i prime) w.stored).elim w fun snap =>
    let request : Pending := ⟨w.presents i prime=[],w.stored,snap⟩
    {w with pending:=Function.update w.pending i (some request)}

def save (w : World ι) (i : ι) (v : View) (requested : Int) (received : Bool) : World ι :=
  (w.pending i).elim w fun p =>
    (syncFolderItems p.fstate p.snap v requested).elim
      {w with pending:=Function.update w.pending i none} fun r =>
        { stored:=r.1
          clients:=if received then
            Function.update w.clients i ((w.clients i).receive p.prime r.2) else w.clients
          pending:=Function.update w.pending i none }

def step (w : World ι) : Event ι → World ι
  | .load i prime => w.load i prime
  | .fail i => {w with pending:=Function.update w.pending i none}
  | .save i v requested received => w.save i v requested received

def start (stored : FolderItemState) : World ι := ⟨stored,fun _ => ⟨[],.empty⟩,fun _ => none⟩

def Matches (w : World ι) : Prop := ∀ i prime snap,
  baselineSnapshot (w.presents i prime) w.stored=some snap →
    snap.Same ((w.clients i).base (w.presents i prime=[]))

def New (w : World ι) : Event ι → Prop
  | .save i _ _ received => ∀ p,w.pending i=some p → ∀ j,
      (w.clients j).token=nextSyncState p.fstate.syncState → j=i ∧ received=true
  | _ => True

end World

theorem sortIDs_perm (ids : List Bytes) : (sortIDs ids).Perm ids := List.perm_insertionSort _ ids

theorem uniform_batch (live : Listing) (snap : Items) (requested : Int) :
    Snapshot.Uniform (syncBatch (pendingItemChanges live snap) requested).1 :=
  Snapshot.uniform_of_fits fun _ hd => Snapshot.fits_diff sortIDs_perm (List.mem_of_mem_take hd)

variable {requested : Int} {v : View} {r : FolderItemState×Response} {fstate : FolderItemState}

theorem receive_same {snap : Items} (hr : syncFolderItems fstate snap v requested=some r)
    {c : Client} {prime : Bool} (hbase : snap.Same (c.base prime)) :
    r.1.items.Same (c.receive prime r.2).items := by
  obtain ⟨rendered,hrendered,rfl⟩ := Option.map_eq_some_iff.mp hr
  rw [renderItemChanges] at hrendered
  split_ifs at hrendered
  cases hrendered
  intro k
  have hgrouped := Snapshot.same_grouped (uniform_batch v.live snap requested) snap k
  have hclient := hbase.applyAll (Snapshot.grouped
    (syncBatch (pendingItemChanges v.live snap) requested).1) k
  exact hgrouped.symm.trans hclient

theorem syncState_of_save {snap : Items} (hr : syncFolderItems fstate snap v requested=some r) :
    r.1.syncState=nextSyncState fstate.syncState ∧
      r.2.syncState=nextSyncState fstate.syncState := by
  obtain ⟨rendered,-,rfl⟩ := Option.map_eq_some_iff.mp hr
  exact ⟨rfl,rfl⟩

namespace World

variable {ι : Type} [DecidableEq ι] {w : World ι} {i : ι}

/-- Who holds the stored token has the stored snapshot. -/
structure Inv (w : World ι) : Prop where
  holder : ∀ i,(w.clients i).token≠[] → (w.clients i).token=w.stored.syncState →
    w.stored.items.Same (w.clients i).items
  served : ∀ i p,w.pending i=some p → p.snap.Same ((w.clients i).base p.prime)

omit [DecidableEq ι] in
theorem Inv.matches (h : w.Inv) : w.Matches := by
  intro i prime snap hsnap
  rw [baselineSnapshot] at hsnap
  split_ifs at hsnap with hempty hcurrent
  · cases hsnap
    simp only [hempty]
    exact Snapshot.Same.refl _
  · cases hsnap
    have htoken : w.presents i prime=(w.clients i).token := by
      cases prime with
      | false => rfl
      | true => exact absurd rfl hempty
    simp only [hempty]
    exact h.holder i (htoken ▸ hempty) (htoken ▸ hcurrent)

theorem Inv.load (h : w.Inv) (i : ι) (prime : Bool) : (w.load i prime).Inv := by
  rw [World.load]
  split_ifs
  · exact h
  cases hsnap : baselineSnapshot (w.presents i prime) w.stored with
  | none => exact h
  | some snap =>
    refine ⟨h.holder,fun j p hp => ?_⟩
    by_cases hj : j=i
    · subst hj
      simp only [Option.elim,Function.update_self,Option.some.injEq] at hp
      subst hp
      exact h.matches j prime snap hsnap
    · simp only [Option.elim,Function.update_of_ne hj] at hp
      exact h.served j p hp

theorem Inv.over (h : w.Inv) (i : ι) :
    ({w with pending:=Function.update w.pending i none} : World ι).Inv := by
  refine ⟨h.holder,fun j p hp => ?_⟩
  by_cases hj : j=i
  · subst hj
    simp only [Function.update_self] at hp
    cases hp
  · simp only [Function.update_of_ne hj] at hp
    exact h.served j p hp

theorem Inv.save (h : w.Inv) {received : Bool} (hnew : w.New (.save i v requested received)) :
    (w.save i v requested received).Inv := by
  rw [World.save]
  cases hp : w.pending i with
  | none => exact h
  | some p =>
    rw [Option.elim_some]
    cases hr : syncFolderItems p.fstate p.snap v requested with
    | none => exact h.over i
    | some r =>
      obtain ⟨hstored,hissued⟩ := syncState_of_save hr
      have hsame := receive_same hr (h.served i p hp)
      have htoken := hnew p hp
      rw [Option.elim_some]
      have hothers : ∀ j,j≠i → ∀ q,Function.update w.pending i none j=some q →
          q.snap.Same ((w.clients j).base q.prime) := by
        intro j hj q hq
        rw [Function.update_of_ne hj] at hq
        exact h.served j q hq
      have hover : ∀ q,Function.update w.pending i none i≠some q := by simp
      cases received with
      | true =>
        simp only [if_true]
        refine ⟨fun j hne hj => ?_,fun j q hq => ?_⟩
        · by_cases hji : j=i
          · subst hji
            simp only [Function.update_self]
            exact hsame
          · simp only [Function.update_of_ne hji] at hj
            exact absurd (htoken j (hj.trans hstored)).1 hji
        · by_cases hji : j=i
          · subst hji
            exact absurd hq (hover q)
          · simp only [Function.update_of_ne hji]
            exact hothers j hji q hq
      | false =>
        refine ⟨fun j hne hj => ?_,fun j q hq => ?_⟩
        · exact absurd (htoken j (hj.trans hstored)).2 Bool.false_ne_true
        · by_cases hji : j=i
          · subst hji
            exact absurd hq (hover q)
          · exact hothers j hji q hq

theorem Inv.step (h : w.Inv) (e : Event ι) (hnew : w.New e) : (w.step e).Inv := by
  cases e with
  | load i prime => exact h.load i prime
  | fail i => exact h.over i
  | save i v requested received => exact h.save hnew

omit [DecidableEq ι] in
theorem Inv.start (stored : FolderItemState) : (World.start stored : World ι).Inv :=
  ⟨fun _ hne => absurd rfl hne,fun _ _ hp => by cases hp⟩

end World

/-- While tokens are issued new, an accepted one matches its holder's map. -/
theorem accepted_matches {ι : Type} [DecidableEq ι] (stored : FolderItemState) (xs : List (Event ι))
    (hnew : Meets World.step World.New (.start stored) xs) :
    (runSteps World.step (.start stored : World ι) xs).Matches :=
  (hnew.invariant (fun _ e h he => h.step e he) (World.Inv.start stored)).matches

/-- Two clients prime in turn, and the second has its answer. -/
theorem accepted_matches_second :
    let items : Listing := [(lit "a",0)]
    let v : View := ⟨items,fun _ => true⟩
    let xs : List (Event Bool) :=
      [.load true true,.save true v 0 true,.load false true,.save false v 0 true]
    (runSteps World.step (.start ⟨[],.empty⟩ : World Bool) xs).Matches := by
  intro items v xs
  refine accepted_matches ⟨[],.empty⟩ xs ⟨trivial,fun p hp j hj => ?_,trivial,fun p hp j hj => ?_,
    trivial⟩
  · cases hp
    cases j <;> cases hj
  · cases hp
    cases j <;> exact absurd hj (by decide)

/-- Two clients prime at once: one token, different items. -/
theorem token_shared :
    let a := lit "a"
    let b := lit "b"
    let first : View := ⟨[(a,0)],fun _ => true⟩
    let second : View := ⟨[(a,0),(b,0)],fun _ => true⟩
    let xs : List (Event Bool) :=
      [.load true true,.load false true,.save true first 0 true,.save false second 0 true]
    let w := runSteps World.step (.start ⟨[],.empty⟩ : World Bool) xs
    (baselineSnapshot (w.presents true false) w.stored).map (fun snap => snap.value b) =
        some (some 0) ∧
      (w.clients true).items.value b = none := by
  decide +kernel

end HermEX.Ews
