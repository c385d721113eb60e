import HermEX.Ics.IdSet
import Mathlib.Data.List.Induction
import Mathlib.Data.List.Sort
import Mathlib.Tactic.Simps.Basic
import HermEX.Objectstore.Message

namespace HermEX.Objectstore

open Framework Mapi Ics

def homeReplID : UInt16 := 1

def syncNoDeletions : UInt16 := 0x0002
def syncNoSoftDeletions : UInt16 := 0x0004
def syncReadState : UInt16 := 0x0008
def syncAssociated : UInt16 := 0x0010
def syncNormal : UInt16 := 0x0020
def syncProgressMode : UInt16 := 0x8000

def enabled (flags flag : UInt16) : Bool := flags &&& flag≠0

def sortIDs (ids : List Nat) : List Nat := ids.insertionSort (·≤·)

/-- A class whose set is absent is out of scope. -/
structure ContentSyncRequest where
  folderID : Nat
  given : Option IDSet
  seen : Option IDSet
  seenFAI : Option IDSet
  read : Option IDSet

structure ContentSyncResult where
  changedMIDs : List Nat := []
  updatedMIDs : List Nat := []
  givenMIDs : List Nat := []
  deletedMIDs : List Nat := []
  noLongerMIDs : List Nat := []
  readMIDs : List Nat := []
  unreadMIDs : List Nat := []
  lastCN : Nat := 0
  lastReadCN : Nat := 0
  faiCount : Nat := 0
  faiSize : Nat := 0
  normalCount : Nat := 0
  normalSize : Nat := 0

/-- `readCN` is 0 when the read state never flipped. -/
structure ContentRow where
  mid : Nat
  cn : Nat
  isFAI : Bool
  readState : Bool
  readCN : Nat
  size : Nat

@[simps] def scanContentRow (r : MessageRow) : ContentRow :=
  ⟨r.messageId,r.changeNumber,r.isAssociated,r.readState,r.readCn.getD 0,r.messageSize⟩

structure ContentScan where
  allMIDs : List Nat := []
  existence : List Nat := []
  readChanges : List (Nat×Bool) := []

namespace ContentSyncRequest

def seenOf (req : ContentSyncRequest) (row : ContentRow) : Option IDSet :=
  if row.isFAI then req.seenFAI else req.seen

def inGiven (req : ContentSyncRequest) (row : ContentRow) : Bool :=
  req.given.any fun s => s.contains (makeEIDEx homeReplID row.mid)

def bodyCurrent (req : ContentSyncRequest) (row : ContentRow) : Bool :=
  req.inGiven row && (req.seenOf row).any fun s => s.contains (makeEIDEx homeReplID row.cn)

end ContentSyncRequest

def readStateChanged (row : ContentRow) (ack : Option IDSet) : Bool :=
  match ack with
  | none => false
  | some s => !row.isFAI && row.readCN≠0 && !s.contains (makeEIDEx homeReplID row.readCN)

variable (sc : ContentScan) (res : ContentSyncResult)

def ContentSyncResult.countChange (row : ContentRow) :
    ContentSyncResult :=
  if row.isFAI then {res with faiCount:=res.faiCount+1,faiSize:=res.faiSize+row.size}
  else {res with normalCount:=res.normalCount+1,normalSize:=res.normalSize+row.size}

def ContentScan.classify (req : ContentSyncRequest) (st : ContentScan×ContentSyncResult)
    (row : ContentRow) : ContentScan×ContentSyncResult :=
  let (sc,res) := st
  let sc := {sc with allMIDs:=sc.allMIDs++[row.mid]}
  match req.seenOf row with
  | none => (sc,res)
  | some _ =>
    let sc := {sc with existence:=sc.existence++[row.mid]}
    let res := {res with
      lastCN:=max res.lastCN row.cn
      lastReadCN:=max res.lastReadCN row.readCN}
    if req.bodyCurrent row then
      if readStateChanged row req.read then
        ({sc with readChanges:=sc.readChanges++[(row.mid,row.readState)]},res)
      else (sc,res)
    else
      let res := {res with changedMIDs:=res.changedMIDs++[row.mid]}
      let res := if req.inGiven row then {res with updatedMIDs:=res.updatedMIDs++[row.mid]}
        else res
      (sc,res.countChange row)

def ContentScan.classifyMissing (v : Nat) :
    ContentSyncResult :=
  if v∈sc.existence then res
  else if v∈sc.allMIDs then {res with noLongerMIDs:=res.noLongerMIDs++[v]}
  else {res with deletedMIDs:=res.deletedMIDs++[v]}

def rangeValues (lo hi : Nat) : List Nat := List.range' lo (hi+1-lo)

def ContentScan.appendRangeDeletions
    (rg : UInt16×Nat×Nat) : ContentSyncResult :=
  if rg.1≠homeReplID then
    if homeReplID< rg.1 then
      {res with deletedMIDs:=res.deletedMIDs++rangeValues rg.2.1 rg.2.2}
    else res
  else (rangeValues rg.2.1 rg.2.2).foldl sc.classifyMissing res

def ContentScan.appendDeletions (given : Option IDSet)
    (res : ContentSyncResult) : ContentSyncResult :=
  match given with
  | none => res
  | some s => s.forEachRange.foldl sc.appendRangeDeletions res

def ContentSyncResult.sorted : ContentSyncResult :=
  {res with
    changedMIDs:=sortIDs res.changedMIDs
    updatedMIDs:=sortIDs res.updatedMIDs
    givenMIDs:=sortIDs res.givenMIDs
    deletedMIDs:=sortIDs res.deletedMIDs
    noLongerMIDs:=sortIDs res.noLongerMIDs
    readMIDs:=sortIDs res.readMIDs
    unreadMIDs:=sortIDs res.unreadMIDs}

def ObjDB.liveMessages (db : ObjDB) (fid : Nat) : List MessageRow :=
  db.messages.rows.filter fun r => r.parentFid=fid ∧ r.isDeleted=false

def ObjDB.getContentSync (db : ObjDB) (req : ContentSyncRequest) : ContentSyncResult :=
  let (sc,res) := ((db.liveMessages req.folderID).map scanContentRow).foldl
    (ContentScan.classify req) ({},{})
  let res := sc.appendDeletions req.given {res with givenMIDs:=sc.existence}
  ContentSyncResult.sorted {res with
    readMIDs:=(sc.readChanges.filter fun p => p.2).map Prod.fst
    unreadMIDs:=(sc.readChanges.filter fun p => !p.2).map Prod.fst}

structure SyncState where
  given : IDSet
  seen : IDSet
  seenFAI : IDSet
  read : IDSet

def newState : SyncState := ⟨.new .guidLoose,.new .guidLoose,.new .guidLoose,.new .guidLoose⟩

def contentSyncRequestFor (folderID : Nat) (state : SyncState) (syncFlags : UInt16) :
    ContentSyncRequest where
  folderID := folderID
  given := some state.given
  seen := if enabled syncFlags syncNormal then some state.seen else none
  seenFAI := if enabled syncFlags syncAssociated then some state.seenFAI else none
  read := if enabled syncFlags syncReadState then some state.read else none

def appendID (s : IDSet) (v : Nat) : IDSet := (s.append (makeEIDEx homeReplID v)).getD s

def appendSeenRange (s : IDSet) (high : Nat) : IDSet :=
  if high=0 then s else (s.appendRange homeReplID 1 high).getD s

def writeState (syncFlags : UInt16) (givenKeep : List Nat) (lastCN lastReadCN : Nat) :
    SyncState where
  given := givenKeep.foldl appendID newState.given
  seen := if enabled syncFlags syncNormal then appendSeenRange newState.seen lastCN
    else newState.seen
  seenFAI := if enabled syncFlags syncAssociated then appendSeenRange newState.seenFAI lastCN
    else newState.seenFAI
  read := if enabled syncFlags syncReadState then appendSeenRange newState.read lastReadCN
    else newState.read

inductive FlowNode where
  | progress
  | message (mid : Nat) (updated : Bool)
  | deletions
  | readState
  | state
  | done

def contentFlow (syncFlags : UInt16) : List FlowNode :=
  (if enabled syncFlags syncProgressMode then [.progress] else [] : List FlowNode)++
  (if enabled syncFlags (syncAssociated ||| syncNormal) then
    res.changedMIDs.map fun m => .message m (decide (m∈res.updatedMIDs)) else [] : List FlowNode)++
  (if enabled syncFlags syncNoDeletions then [] else [.deletions] : List FlowNode)++
  (if enabled syncFlags syncReadState then [.readState] else [] : List FlowNode) ++
  ([.state,.done] : List FlowNode)

def writeDeletions (syncFlags : UInt16) : List Nat :=
  res.deletedMIDs++if enabled syncFlags syncNoSoftDeletions then [] else res.noLongerMIDs

def ContentSyncRequest.Scoped (req : ContentSyncRequest) (row : ContentRow) : Prop :=
  (req.seenOf row).isSome

instance (req : ContentSyncRequest) (row : ContentRow) : Decidable (req.Scoped row) :=
  inferInstanceAs (Decidable (_=true))

def ContentSyncRequest.Outdated (req : ContentSyncRequest) (row : ContentRow) : Prop :=
  req.Scoped row ∧ req.bodyCurrent row=false

def ContentSyncRequest.Reflagged (req : ContentSyncRequest) (row : ContentRow) : Prop :=
  req.Scoped row ∧ req.bodyCurrent row=true ∧ readStateChanged row req.read=true

instance (req : ContentSyncRequest) (row : ContentRow) : Decidable (req.Outdated row) :=
  inferInstanceAs (Decidable (_ ∧ _))

instance (req : ContentSyncRequest) (row : ContentRow) : Decidable (req.Reflagged row) :=
  inferInstanceAs (Decidable (_ ∧ _))

structure Classified (req : ContentSyncRequest) (row : ContentRow)
    (st st' : ContentScan×ContentSyncResult) : Prop where
  existence : st'.1.existence=st.1.existence++if req.Scoped row then [row.mid] else []
  readChanges : st'.1.readChanges=
    st.1.readChanges++if req.Reflagged row then [(row.mid,row.readState)] else []
  changed : st'.2.changedMIDs=st.2.changedMIDs++if req.Outdated row then [row.mid] else []
  lastCN : st'.2.lastCN=if req.Scoped row then max st.2.lastCN row.cn else st.2.lastCN
  lastReadCN : st'.2.lastReadCN=
    if req.Scoped row then max st.2.lastReadCN row.readCN else st.2.lastReadCN
  deleted : st'.2.deletedMIDs=st.2.deletedMIDs
  noLonger : st'.2.noLongerMIDs=st.2.noLongerMIDs

variable (req : ContentSyncRequest) {P : Nat → Prop} {s : IDSet}

theorem classified (st : ContentScan×ContentSyncResult) (row : ContentRow) :
    Classified req row st (ContentScan.classify req st row) := by
  cases hs : req.seenOf row with
  | none =>
    have hns : ¬req.Scoped row := by simp [ContentSyncRequest.Scoped,hs]
    constructor <;> simp [ContentScan.classify,ContentSyncRequest.Outdated,
      ContentSyncRequest.Reflagged,hs,hns]
  | some s =>
    have hsc : req.Scoped row := by simp [ContentSyncRequest.Scoped,hs]
    cases hb : req.bodyCurrent row with
    | true =>
      by_cases hr : readStateChanged row req.read=true <;> constructor <;>
        simp [ContentScan.classify,ContentSyncRequest.Outdated,ContentSyncRequest.Reflagged,
          hs,hsc,hb,hr]
    | false =>
      by_cases hg : req.inGiven row=true <;> by_cases hf : row.isFAI=true <;> constructor <;>
        simp [ContentScan.classify,ContentSyncResult.countChange,ContentSyncRequest.Outdated,
          ContentSyncRequest.Reflagged,hs,hsc,hb,hg,hf]

structure Scanned (req : ContentSyncRequest) (rows : List ContentRow)
    (st : ContentScan×ContentSyncResult) : Prop where
  existence : st.1.existence=(rows.filter fun r => req.Scoped r).map (·.mid)
  readChanges : st.1.readChanges=
    (rows.filter fun r => req.Reflagged r).map fun r => (r.mid,r.readState)
  changed : st.2.changedMIDs=(rows.filter fun r => req.Outdated r).map (·.mid)
  lastCN : ∀ b,st.2.lastCN≤b ↔ ∀ r∈rows,req.Scoped r → r.cn≤b
  lastReadCN : ∀ b,st.2.lastReadCN≤b ↔ ∀ r∈rows,req.Scoped r → r.readCN≤b
  deleted : st.2.deletedMIDs=[]
  noLonger : st.2.noLongerMIDs=[]

theorem Scanned.classify {req : ContentSyncRequest} {rows : List ContentRow}
    {st : ContentScan×ContentSyncResult} (h : Scanned req rows st) (row : ContentRow) :
    Scanned req (rows++[row]) (ContentScan.classify req st row) := by
  have hc := classified req st row
  refine ⟨?_,?_,?_,?_,?_,hc.deleted.trans h.deleted,hc.noLonger.trans h.noLonger⟩
  · rw [hc.existence,h.existence]
    split_ifs with hs <;> simp [hs]
  · rw [hc.readChanges,h.readChanges]
    split_ifs with hs <;> simp [hs]
  · rw [hc.changed,h.changed]
    split_ifs with hs <;> simp [hs]
  · rw [hc.lastCN]
    split_ifs with hs <;> simp [h.lastCN,hs,or_imp,forall_and]
  · rw [hc.lastReadCN]
    split_ifs with hs <;> simp [h.lastReadCN,hs,or_imp,forall_and]

theorem scanned (rows : List ContentRow) :
    Scanned req rows (rows.foldl (ContentScan.classify req) ({},{})) := by
  induction rows using List.reverseRecOn with
  | nil => constructor <;> simp
  | append_singleton rows row ih =>
    rw [List.foldl_append]
    exact ih.classify row

/-- They differ in deletions, the second naming those of `P` too. -/
structure Missing (P : Nat → Prop) (res res' : ContentSyncResult) : Prop where
  same : ∃ d n,res'={res with deletedMIDs:=d,noLongerMIDs:=n}
  gone : ∀ m,m∈res'.deletedMIDs ∨ m∈res'.noLongerMIDs ↔
    (m∈res.deletedMIDs ∨ m∈res.noLongerMIDs) ∨ P m

theorem Missing.trans {Q : Nat → Prop} {a b c : ContentSyncResult} (h : Missing P a b)
    (k : Missing Q b c) : Missing (fun m => P m ∨ Q m) a c := by
  obtain ⟨d,n,rfl⟩ := h.same
  obtain ⟨d',n',rfl⟩ := k.same
  exact ⟨⟨d',n',rfl⟩,fun m => by rw [k.gone,h.gone,or_assoc]⟩

theorem missing_classifyMissing (sc : ContentScan) (res : ContentSyncResult) (v : Nat) :
    Missing (fun m => m=v ∧ m∉sc.existence) res (sc.classifyMissing res v) := by
  unfold ContentScan.classifyMissing
  split_ifs with he ha
  · refine ⟨⟨res.deletedMIDs,res.noLongerMIDs,rfl⟩,fun m => ?_⟩
    have hn : ¬(m=v ∧ m∉sc.existence) := fun h => h.2 (h.1 ▸ he)
    simp [hn]
  · refine ⟨⟨_,_,rfl⟩,fun m => ?_⟩
    have hn : m=v ∧ m∉sc.existence ↔ m=v := ⟨And.left,fun h => ⟨h,h ▸ he⟩⟩
    simp [hn,or_assoc]
  · refine ⟨⟨_,_,rfl⟩,fun m => ?_⟩
    have hn : m=v ∧ m∉sc.existence ↔ m=v := ⟨And.left,fun h => ⟨h,h ▸ he⟩⟩
    simp only [List.mem_append,List.mem_singleton]
    tauto

theorem missing_foldl {β : Type} (f : ContentSyncResult → β → ContentSyncResult)
    (P : β → Nat → Prop) (xs : List β) (hf : ∀ x∈xs,∀ res,Missing (P x) res (f res x))
    (res : ContentSyncResult) : Missing (fun m => ∃ x∈xs,P x m) res (xs.foldl f res) := by
  induction xs generalizing res with
  | nil => exact ⟨⟨res.deletedMIDs,res.noLongerMIDs,rfl⟩,by simp⟩
  | cons x xs ih =>
    have hx := hf x (by simp) res
    have hxs := ih (fun y hy => hf y (by simp [hy])) (f res x)
    have h := hx.trans hxs
    simpa using h

theorem missing_appendDeletions (sc : ContentScan) {G : Nat → Prop} (hs : s.Single homeReplID G)
    (res : ContentSyncResult) :
    Missing (fun m => G m ∧ m∉sc.existence) res (sc.appendDeletions (some s) res) := by
  have hrange : ∀ rg∈s.forEachRange,∀ res,
      Missing (fun m => ∃ v∈rangeValues rg.2.1 rg.2.2,m=v ∧ m∉sc.existence) res
        (sc.appendRangeDeletions res rg) := by
    intro rg hrg res
    have hhome := hs.replid_forEachRange hrg
    rw [ContentScan.appendRangeDeletions,if_neg (by simp [hhome])]
    exact missing_foldl _ _ _ (fun v _ res => missing_classifyMissing sc res v) res
  have h := missing_foldl _ _ _ hrange res
  refine ⟨h.same,fun m => ?_⟩
  have hG := hs.mem_forEachRange m
  rw [ContentScan.appendDeletions,h.gone m,← hG]
  simp only [rangeValues]
  grind

theorem mem_sortIDs (ids : List Nat) (m : Nat) : m∈sortIDs ids ↔ m∈ids :=
  List.mem_insertionSort (·≤·)

structure ContentDelta (db : ObjDB) (req : ContentSyncRequest) (G : Nat → Prop)
    (res : ContentSyncResult) : Prop where
  changed : ∀ m,m∈res.changedMIDs ↔
    ∃ r∈db.liveMessages req.folderID,req.Outdated (scanContentRow r) ∧ r.messageId=m
  given : ∀ m,m∈res.givenMIDs ↔
    ∃ r∈db.liveMessages req.folderID,req.Scoped (scanContentRow r) ∧ r.messageId=m
  gone : ∀ m,m∈res.deletedMIDs ∨ m∈res.noLongerMIDs ↔ G m ∧
    ¬∃ r∈db.liveMessages req.folderID,req.Scoped (scanContentRow r) ∧ r.messageId=m
  flagged : ∀ b m,m∈(if b then res.readMIDs else res.unreadMIDs) ↔
    ∃ r∈db.liveMessages req.folderID,req.Reflagged (scanContentRow r) ∧ r.messageId=m ∧
      r.readState=b
  lastCN : ∀ b,res.lastCN≤b ↔
    ∀ r∈db.liveMessages req.folderID,req.Scoped (scanContentRow r) → r.changeNumber≤b
  lastReadCN : ∀ b,res.lastReadCN≤b ↔
    ∀ r∈db.liveMessages req.folderID,req.Scoped (scanContentRow r) → r.readCn.getD 0≤b

attribute [local simp] ContentSyncResult.sorted

theorem contentDelta (db : ObjDB) (req : ContentSyncRequest) {G : Nat → Prop}
    (hg : req.given=some s) (hs : s.Single homeReplID G) :
    ContentDelta db req G (db.getContentSync req) := by
  have h := scanned req ((db.liveMessages req.folderID).map scanContentRow)
  unfold ObjDB.getContentSync
  generalize List.foldl _ _ _=st at h ⊢
  obtain ⟨sc,res⟩ := st
  have hm := missing_appendDeletions sc hs {res with givenMIDs:=sc.existence}
  obtain ⟨d,n,hres⟩ := hm.same
  have hgone := hm.gone
  have hd : res.deletedMIDs=[] := h.deleted
  have hn : res.noLongerMIDs=[] := h.noLonger
  have hch : res.changedMIDs=_ := h.changed
  have hex : sc.existence=_ := h.existence
  have hrd : sc.readChanges=_ := h.readChanges
  simp only [hg,hres] at hgone ⊢
  simp only [hd,hn] at hgone
  constructor
  · simp [mem_sortIDs,hch,and_assoc]
  · simp [mem_sortIDs,hex,and_assoc]
  · simp only [ContentSyncResult.sorted,mem_sortIDs,hgone,hex]
    simp
  · intro b m
    cases b <;> simp [mem_sortIDs,hrd,and_assoc]
  · intro b
    simpa using h.lastCN b
  · intro b
    simpa using h.lastReadCN b

theorem single_appendID (h : s.Single homeReplID P) (v : Nat) :
    (appendID s v).Single homeReplID fun m => P m ∨ m=v := by
  obtain ⟨s',hs,hs'⟩ := h.appendRange (Nat.le_refl v)
  have he : s.append (makeEIDEx homeReplID v)=some s' := hs
  rw [appendID,he,Option.getD_some]
  refine ⟨hs'.loose,hs'.repl,hs'.one,fun m => ?_⟩
  rw [hs'.mem]
  have hv : v≤ m ∧ m≤v ↔ m=v := by omega
  rw [hv]

theorem single_foldl_appendID (h : s.Single homeReplID P) (ids : List Nat) :
    (ids.foldl appendID s).Single homeReplID fun m => P m ∨ m∈ids := by
  induction ids generalizing s P with
  | nil => simpa using h
  | cons v ids ih =>
    have hv := ih (single_appendID h v)
    simpa [or_assoc] using hv

theorem single_appendSeenRange (high : Nat) :
    (appendSeenRange (.new .guidLoose) high).Single homeReplID fun v => 1≤v ∧ v≤high := by
  unfold appendSeenRange
  split_ifs with h0
  · have hnone : (fun v => 1≤v ∧ v≤high)=fun _ => False := by
      funext v
      simp only [eq_iff_iff,iff_false]
      omega
    rw [hnone]
    exact IDSet.single_new homeReplID
  · obtain ⟨s',hs,hs'⟩ := (IDSet.single_new homeReplID).appendRange (by omega : 1≤high)
    rw [hs,Option.getD_some]
    simpa using hs'

/-- The given ids and, per class, the change numbers up to a mark. -/
structure SyncState.Holds (st : SyncState) (G : Nat → Prop) (a f b : Nat) : Prop where
  given : st.given.Single homeReplID G
  seen : st.seen.Single homeReplID fun v => 1≤v ∧ v≤a
  seenFAI : st.seenFAI.Single homeReplID fun v => 1≤v ∧ v≤f
  read : st.read.Single homeReplID fun v => 1≤v ∧ v≤b

theorem newState_holds : newState.Holds (fun _ => False) 0 0 0 :=
  ⟨IDSet.single_new _,single_appendSeenRange 0,single_appendSeenRange 0,single_appendSeenRange 0⟩

theorem writeState_holds (flags : UInt16) (keep : List Nat) (cn rcn : Nat) :
    (writeState flags keep cn rcn).Holds (· ∈ keep)
      (if enabled flags syncNormal then cn else 0)
      (if enabled flags syncAssociated then cn else 0)
      (if enabled flags syncReadState then rcn else 0) := by
  constructor
  · simpa [writeState] using single_foldl_appendID newState_holds.given keep
  all_goals
    simp only [writeState]
    split_ifs
    · exact single_appendSeenRange _
    · exact single_appendSeenRange 0

end HermEX.Objectstore
