import HermEX.Framework.Observer
import HermEX.Objectstore.Download

namespace HermEX.Objectstore

open Framework Mapi Ics

def flowMIDs (flow : List FlowNode) : List Nat :=
  flow.filterMap fun
    | .message mid _ => some mid
    | _ => none

variable {sees : Nat → Bool}

namespace MailStore

/-- They differ in messages of folders outside `sees` only. -/
structure Agree (sees : Nat → Bool) (a b : MailStore) : Prop where
  folders : a.db.folders=b.db.folders
  permissions : a.db.permissions=b.db.permissions
  replica : a.db.replica=b.db.replica
  criteria : a.criteria=b.criteria
  searchResult : a.searchResult=b.searchResult
  names : a.namedPropName=b.namedPropName
  rows : Table.AgreeOn (fun r => sees r.parentFid) a.db.messages b.db.messages
  index : Table.AgreeOn (fun r => sees r.folderId) a.store.idxdb.messages b.store.idxdb.messages
  bags : ∀ r∈a.db.messages,sees r.parentFid=true → a.message r.messageId=b.message r.messageId

def shows (sees : Nat → Bool) (m : MailStore) (mid : Nat) : Bool :=
  (m.db.messages.get mid).all fun r => sees r.parentFid

def BothShow (sees : Nat → Bool) (a b : MailStore) (mid : Nat) : Prop :=
  a.shows sees mid=true ∧ b.shows sees mid=true

instance (sees : Nat → Bool) (a b : MailStore) (mid : Nat) : Decidable (BothShow sees a b mid) :=
  inferInstanceAs (Decidable (_ ∧ _))

variable (m : MailStore) (mid : Nat) {r : MessageRow}

theorem shows_get {m : MailStore} {mid : Nat} (h : m.shows sees mid=true)
    (hr : m.db.messages.get mid=some r) : sees r.parentFid=true := by
  simpa [shows,hr] using h

theorem shows_of_row {m : MailStore} (hr : r∈m.db.messages) (hs : sees r.parentFid=true) :
    m.shows sees r.messageId=true := by
  simp [shows,Table.get_key hr,hs]

theorem BothShow.mono {a b : MailStore} {mid : Nat} {sees' : Nat → Bool}
    (h : BothShow sees a b mid) (hs : ∀ f,sees f=true → sees' f=true) :
    BothShow sees' a b mid := by
  have hall : ∀ o : Option MessageRow,o.all (fun r => sees r.parentFid)=true →
      o.all (fun r => sees' r.parentFid)=true := by
    intro o ho
    cases o with
    | none => rfl
    | some r => exact hs _ ho
  exact ⟨hall _ h.1,hall _ h.2⟩

def peek (m : MailStore) (mid : Nat) : Option (MessageRow×StoredMessage) :=
  (m.db.messages.get mid).map fun r => (r,m.message mid)

theorem getMessageProperties_peek (tags : List PropTag) :
    m.getMessageProperties mid tags =
      (m.peek mid).elim (.error .notFound) fun x => .ok (selectProps tags x.2.props) := by
  cases hg : m.db.messages.get mid <;> simp [getMessageProperties,peek,hg]

theorem messageComputedProps_peek (tags : List PropTag) :
    m.messageComputedProps mid tags =
      (m.peek mid).elim [] fun x => (messageFlagFacts x.1 x.2).props tags := by
  cases hg : m.db.messages.get mid <;> simp [messageComputedProps,peek,hg]

theorem openMessage_peek :
    m.openMessage mid=(m.peek mid).elim (.error .notFound) fun x => .ok x.2 := by
  cases hg : m.db.messages.get mid <;> simp [openMessage,peek,hg]

theorem messageFolder_peek :
    m.messageFolder mid=(m.peek mid).elim (.error .notFound) fun x => .ok x.1.parentFid := by
  cases hg : m.db.messages.get mid <;> simp [messageFolder,peek,hg]

theorem mem_candidates {m : MailStore} {fid : Nat} {x : MessageRow}
    (h : x∈(m.db.messages.rows.filter fun x =>
      x.parentFid == fid && !x.isDeleted && !x.isAssociated).insertionSort fun a b =>
        a.messageId≤b.messageId) : x∈m.db.messages ∧ x.parentFid=fid := by
  obtain ⟨hmem,hq⟩ := List.mem_filter.mp ((List.mem_insertionSort _).mp h)
  simp only [Bool.and_eq_true,beq_iff_eq] at hq
  exact ⟨hmem,hq.1.1⟩

def copiedFolders (m : MailStore) : Nat → Nat → Bool → List Nat
  | 0,_,_ => []
  | n+1,fid,subfolders => fid::if subfolders then (m.db.childFolderIDs fid).flatMap fun sub =>
    m.copiedFolders n sub true else []

namespace Agree

variable {sees : Nat → Bool} {a b : MailStore} {mid fid : Nat} (h : Agree sees a b)

include h

theorem fxWriteProps : a.fxWriteProps=b.fxWriteProps := by
  funext props
  apply List.map_congr_left
  simp [fxToStreamProp,h.names]

theorem writeContent (keep : PropertyValues → PropertyValues) :
    a.writeContent keep=b.writeContent keep := by
  funext msg
  simp [MailStore.writeContent,MailStore.writeCollection,h.fxWriteProps]

section Shown

variable (hs : BothShow sees a b mid)

include hs

theorem get :
    a.db.messages.get mid=b.db.messages.get mid :=
  h.rows.get (fun _ hr => shows_get hs.1 hr) fun _ hr => shows_get hs.2 hr

theorem peek : a.peek mid=b.peek mid := by
  have hget := h.get hs
  cases hg : a.db.messages.get mid with
  | none => simp [MailStore.peek,← hget,hg]
  | some r =>
    obtain ⟨hr,rfl⟩ := Table.get_eq_some.mp hg
    have hbag := h.bags r hr (shows_get hs.1 hg)
    simp [MailStore.peek,← hget,hbag]

theorem getMessageProperties (tags : List PropTag) :
    a.getMessageProperties mid tags=b.getMessageProperties mid tags := by
  rw [getMessageProperties_peek,getMessageProperties_peek,h.peek hs]

theorem messageComputedProps (tags : List PropTag) :
    a.messageComputedProps mid tags=b.messageComputedProps mid tags := by
  rw [messageComputedProps_peek,messageComputedProps_peek,h.peek hs]

theorem openMessage :
    a.openMessage mid=b.openMessage mid := by
  rw [openMessage_peek,openMessage_peek,h.peek hs]

theorem messageFolder :
    a.messageFolder mid=b.messageFolder mid := by
  rw [messageFolder_peek,messageFolder_peek,h.peek hs]

theorem openTransferMessage :
    a.openTransferMessage mid=b.openTransferMessage mid := by
  simp [MailStore.openTransferMessage,h.openMessage hs,h.messageComputedProps hs]

theorem writeCopyMessage (start : UInt32) (exclude : List PropTag) :
    a.writeCopyMessage start exclude mid=b.writeCopyMessage start exclude mid := by
  simp [MailStore.writeCopyMessage,MailStore.writeCopyMessageContent,h.openTransferMessage hs,h.writeContent]

theorem copyToMessage (exclude : List PropTag) :
    a.copyToMessage mid exclude=b.copyToMessage mid exclude := by
  simp [MailStore.copyToMessage,MailStore.writeCopyMessageContent,h.openTransferMessage hs,h.writeContent]

theorem copyPropertiesMessage (included : List PropTag) :
    a.copyPropertiesMessage mid included=b.copyPropertiesMessage mid included := by
  simp [MailStore.copyPropertiesMessage,h.openTransferMessage hs,h.fxWriteProps]

theorem emitMessage (now : UInt64) (dc : DownloadContext) :
    DownloadContext.emitMessage a now dc mid=DownloadContext.emitMessage b now dc mid := by
  have hget := h.get hs
  simp only [DownloadContext.emitMessage,← hget]
  cases hg : a.db.messages.get mid with
  | none => rfl
  | some r =>
    obtain ⟨-,rfl⟩ := Table.get_eq_some.mp hg
    have hchange : dc.writeMessageChange a now r=dc.writeMessageChange b now r := by
      simp [DownloadContext.writeMessageChange,DownloadContext.writeMessageBody,h.openTransferMessage hs,h.fxWriteProps,h.writeContent]
    cases hdel : r.isDeleted <;> simp [Option.filter,hdel,hchange]

end Shown

theorem bothShow (hr : r∈a.db.messages) (hs : sees r.parentFid=true) :
    BothShow sees a b r.messageId :=
  ⟨shows_of_row hr hs,shows_of_row (h.rows.mem hs hr) hs⟩

theorem childFolderIDs : a.db.childFolderIDs=b.db.childFolderIDs := by
  funext fid
  simp [ObjDB.childFolderIDs,ObjDB.links,h.folders]

theorem descendantIDs : a.db.descendantIDs=b.db.descendantIDs := by
  funext fid
  simp [ObjDB.descendantIDs,ObjDB.childFolderIDs,ObjDB.links,h.folders]

theorem searchFolders (c : SearchCriteria) :
    a.searchFolders c=b.searchFolders c := by
  simp [MailStore.searchFolders,h.descendantIDs]

theorem candidateProps (hr : r∈a.db.messages) (hs : sees r.parentFid=true) :
    a.candidateProps r=b.candidateProps r := by
  have hcomputed := h.messageComputedProps (h.bothShow hr hs) []
  simp [MailStore.candidateProps,h.bags r hr hs,hcomputed]

theorem staticResult (hs : ∀ p∈a.searchResult,p.1=fid → BothShow sees a b p.2) :
    a.staticResult fid=b.staticResult fid := by
  have hrows : a.searchResult.filter (fun p =>
        p.1 == fid && (a.db.messages.get p.2).any fun r => !r.isDeleted) =
      a.searchResult.filter fun p =>
        p.1 == fid && (b.db.messages.get p.2).any fun r => !r.isDeleted := by
    apply List.filter_congr
    intro p hp
    by_cases hfid : p.1=fid
    · rw [h.get (hs p hp hfid)]
    · have hne : (p.1 == fid)=false := by simpa using hfid
      simp [hne]
  simp [MailStore.staticResult,← h.searchResult,hrows]

section Seen

variable (hf : sees fid=true)

include hf

theorem select {q : MessageRow → Bool} (hq : ∀ r,q r=true → r.parentFid=fid) :
    a.db.messages.rows.filter q=b.db.messages.rows.filter q :=
  h.rows.filter fun r hr => by rw [hq r hr,hf]

theorem listMessageIDs :
    a.listMessageIDs fid=b.listMessageIDs fid := by
  have hrows := h.index.filter (q := fun r => decide (r.folderId=fid)) (by
    intro r hr
    rw [of_decide_eq_true hr,hf])
  simp [MailStore.listMessageIDs,Store.listMessages,hrows]

theorem listSoftDeletedIDs :
    a.listSoftDeletedIDs fid=b.listSoftDeletedIDs fid := by
  have hrows := h.select hf (q := fun r => r.parentFid == fid && r.isDeleted) (by simp +contextual)
  simp [MailStore.listSoftDeletedIDs,hrows]

theorem folderMessageIDs (associated : Bool) :
    a.folderMessageIDs fid associated=b.folderMessageIDs fid associated := by
  have hrows := h.select hf
    (q := fun r => r.parentFid == fid && !r.isDeleted && r.isAssociated == associated)
    (by simp +contextual)
  simp [MailStore.folderMessageIDs,hrows]

theorem messageIsAssociated (mid : Nat) :
    a.messageIsAssociated fid mid=b.messageIsAssociated fid mid := by
  have hrows := h.select hf
    (q := fun r => r.messageId == mid && r.parentFid == fid && !r.isDeleted) (by simp +contextual)
  simp [MailStore.messageIsAssociated,← List.head?_filter,hrows]

theorem liveMessages :
    a.db.liveMessages fid=b.db.liveMessages fid :=
  h.select hf (by simp +contextual)

theorem matchFolder (r : Restriction) :
    a.matchFolder r fid=b.matchFolder r fid := by
  have hrows := h.select hf (q := fun x => x.parentFid == fid && !x.isDeleted && !x.isAssociated)
    (by simp +contextual)
  simp only [MailStore.matchFolder,← hrows]
  congr 1
  apply List.filter_congr
  intro x hx
  obtain ⟨hmem,hfid⟩ := mem_candidates hx
  rw [h.candidateProps hmem (by rw [hfid,hf])]

theorem bothShow_matchFolder {r : Restriction} (hmid : mid∈a.matchFolder r fid) :
    BothShow sees a b mid := by
  obtain ⟨x,hx,rfl⟩ := List.mem_map.mp hmid
  obtain ⟨hmem,hfid⟩ := mem_candidates (List.mem_filter.mp hx).1
  exact h.bothShow hmem (by rw [hfid,hf])

theorem bothShow_softDeleted (hmid : mid∈a.listSoftDeletedIDs fid) : BothShow sees a b mid := by
  obtain ⟨x,hx,rfl⟩ := List.mem_map.mp ((mem_sortIDs _ _).mp hmid)
  obtain ⟨hrow,hq⟩ := List.mem_filter.mp hx
  simp only [Bool.and_eq_true,beq_iff_eq] at hq
  exact h.bothShow hrow (by rw [hq.1,hf])

theorem copyMessages (mids : List Nat) :
    a.copyMessages fid mids=b.copyMessages fid mids := by
  apply List.flatMap_congr
  intro mid _
  rw [← h.messageIsAssociated hf]
  cases hfai : a.messageIsAssociated fid mid with
  | error e => rfl
  | ok fai =>
    -- The id names a live message of the folder, which both mailboxes show.
    have hs : BothShow sees a b mid := by
      unfold MailStore.messageIsAssociated at hfai
      split at hfai
      · cases hfai
      rename_i r hr
      have hq := List.find?_some hr
      simp only [Bool.and_eq_true,beq_iff_eq] at hq
      have hshow := h.bothShow (List.mem_of_find?_eq_some hr) (by rw [hq.1.2,hf])
      rwa [hq.1.1] at hshow
    exact h.writeCopyMessage hs _ []

theorem writeFolderMessageList (associated : Bool) :
    a.writeFolderMessageList fid associated=b.writeFolderMessageList fid associated := by
  unfold MailStore.writeFolderMessageList
  rw [← h.folderMessageIDs hf]
  apply List.flatMap_congr
  intro mid hmid
  obtain ⟨r,hr,rfl⟩ := List.mem_map.mp ((mem_sortIDs _ _).mp hmid)
  obtain ⟨hrow,hq⟩ := List.mem_filter.mp hr
  simp only [Bool.and_eq_true,beq_iff_eq] at hq
  exact h.writeCopyMessage (h.bothShow hrow (by rw [hq.1.1,hf])) _ []

theorem writeFolderItself :
    a.writeFolderItself fid=b.writeFolderItself fid := by
  simp [MailStore.writeFolderItself,h.folders,h.fxWriteProps,h.writeFolderMessageList hf]

theorem newContentDownload (state : SyncState)
    (syncFlags : UInt16) (extraFlags : UInt32) (proptags : List PropTag) :
    a.newContentDownload fid state syncFlags extraFlags proptags =
      b.newContentDownload fid state syncFlags extraFlags proptags := by
  have hlive : a.db.liveMessages (contentSyncRequestFor fid state syncFlags).folderID =
      b.db.liveMessages (contentSyncRequestFor fid state syncFlags).folderID := h.liveMessages hf
  simp [MailStore.newContentDownload,ObjDB.getContentSync,hlive,h.replica]

end Seen

theorem writeFolderContentNoDelProps (n fid : Nat) (subfolders : Bool)
    (hf : ∀ x∈a.copiedFolders n fid subfolders,sees x=true) :
    a.writeFolderContentNoDelProps n fid subfolders =
      b.writeFolderContentNoDelProps n fid subfolders := by
  induction n generalizing fid subfolders with
  | zero => rfl
  | succ n ih =>
    simp only [copiedFolders,List.mem_cons,forall_eq_or_imp] at hf
    simp only [MailStore.writeFolderContentNoDelProps,h.writeFolderItself hf.1,← h.childFolderIDs]
    congr 1
    cases subfolders with
    | false => simp
    | true =>
      apply List.flatMap_congr
      intro sub hsub
      have hbelow := ih sub true fun x hx => hf.2 x (List.mem_flatMap.mpr ⟨sub,hsub,hx⟩)
      rw [hbelow]

theorem copyFolder (fid : Nat) (subfolders : Bool)
    (hf : ∀ x∈a.copiedFolders a.copyDepth fid subfolders,sees x=true) :
    a.copyFolder fid subfolders=b.copyFolder fid subfolders := by
  have hdepth : a.copyDepth=b.copyDepth := by simp [copyDepth,h.folders]
  have hwalk := h.writeFolderContentNoDelProps _ fid subfolders hf
  simp [MailStore.copyFolder,← hdepth,hwalk]

theorem newHierarchyDownload (W : Wire) (fid : Nat) (state : SyncState)
    (syncFlags : UInt16) (proptags : List PropTag) :
    a.newHierarchyDownload W fid state syncFlags proptags =
      b.newHierarchyDownload W fid state syncFlags proptags := by
  have hfolder : a.db.writeFolderChange=b.db.writeFolderChange := by
    funext rootFID fid
    simp [ObjDB.writeFolderChange,h.folders]
  have hdelta : a.db.newHierarchyDownload fid state=b.db.newHierarchyDownload fid state := by
    simp [ObjDB.newHierarchyDownload,ObjDB.getHierarchySync,ObjDB.subtreeRows,hfolder,h.descendantIDs,h.folders]
  have hchange : writeFolderChangeOf a=writeFolderChangeOf b := by
    funext keep c
    simp [writeFolderChangeOf,h.fxWriteProps,h.replica]
  simp [MailStore.newHierarchyDownload,writeHierarchy,hdelta,hchange,h.replica]

theorem feed (W : Wire) (now : UInt64) (maxLen : Nat) (flow : List FlowNode)
    (dc : DownloadContext) (hs : ∀ mid∈flowMIDs flow,BothShow sees a b mid) :
    DownloadContext.feed W (DownloadContext.emitMessage a now) maxLen flow dc =
      DownloadContext.feed W (DownloadContext.emitMessage b now) maxLen flow dc := by
  induction flow generalizing dc with
  | nil => simp [DownloadContext.feed]
  | cons n ns ih =>
    have hnode : DownloadContext.emitNode W (DownloadContext.emitMessage a now) dc n =
        DownloadContext.emitNode W (DownloadContext.emitMessage b now) dc n := by
      cases n with
      | message mid updated => exact h.emitMessage (hs mid (by simp [flowMIDs])) now dc
      | _ => simp [DownloadContext.emitNode]
    have hrest : ∀ mid∈flowMIDs ns,BothShow sees a b mid := by
      intro mid hmid
      apply hs
      cases n <;> simp_all [flowMIDs]
    simp [DownloadContext.feed,hnode,ih _ hrest]

theorem downloadBuffer (W : Wire) (now : UInt64) (maxLen : Nat)
    (dc : DownloadContext) (hs : ∀ mid∈flowMIDs dc.flow,BothShow sees a b mid) :
    dc.getBuffer W (DownloadContext.emitMessage a now) maxLen =
      dc.getBuffer W (DownloadContext.emitMessage b now) maxLen := by
  simp [DownloadContext.getBuffer,h.feed W now maxLen dc.flow dc hs]

end Agree
end MailStore

theorem feed_flow (W : Wire) (change : DownloadContext → Nat → Written×DownloadContext)
    (maxLen : Nat) (flow : List FlowNode) (dc : DownloadContext) :
    (DownloadContext.feed W change maxLen flow dc).2.flow <:+ flow := by
  induction flow generalizing dc with
  | nil => exact List.suffix_rfl
  | cons n ns ih =>
    simp only [DownloadContext.feed]
    split_ifs
    · split
      · exact (ih _).trans (List.suffix_cons n ns)
      · exact List.suffix_rfl
    · exact List.suffix_rfl

theorem getBuffer_flow (W : Wire) (change : DownloadContext → Nat → Written×DownloadContext)
    (dc : DownloadContext) (maxLen : Nat) {mid : Nat}
    (h : mid∈flowMIDs (dc.getBuffer W change maxLen).2.flow) : mid∈flowMIDs dc.flow := by
  have hfed := feed_flow W change maxLen dc.flow dc
  have hsub : (dc.getBuffer W change maxLen).2.flow <:+ dc.flow := by
    unfold DownloadContext.getBuffer
    split
    · rename_i heq
      rw [heq] at hfed
      exact hfed
    · rename_i heq
      rw [heq] at hfed
      exact hfed
  exact (hsub.sublist.filterMap _).mem h

theorem appendDeletions_changed (sc : ContentScan) (given : Option IDSet)
    (res : ContentSyncResult) : (sc.appendDeletions given res).changedMIDs=res.changedMIDs := by
  have hone : ∀ (r : ContentSyncResult) (v : Nat),
      r.changedMIDs=res.changedMIDs → (sc.classifyMissing r v).changedMIDs=res.changedMIDs := by
    intro r v hr
    unfold ContentScan.classifyMissing
    split_ifs <;> exact hr
  have hrange : ∀ (r : ContentSyncResult) (rg : UInt16×Nat×Nat),
      r.changedMIDs=res.changedMIDs →
        (sc.appendRangeDeletions r rg).changedMIDs=res.changedMIDs := by
    intro r rg hr
    unfold ContentScan.appendRangeDeletions
    split_ifs
    · exact hr
    · exact hr
    · exact runSteps_invariant hone hr (rangeValues rg.2.1 rg.2.2)
  cases given with
  | none => rfl
  | some s => exact runSteps_invariant hrange rfl s.forEachRange

theorem mem_changedMIDs {db : ObjDB} {req : ContentSyncRequest} {mid : Nat}
    (h : mid∈(db.getContentSync req).changedMIDs) :
    ∃ r∈db.liveMessages req.folderID,r.messageId=mid := by
  have hscan := scanned req ((db.liveMessages req.folderID).map scanContentRow)
  unfold ObjDB.getContentSync at h
  generalize List.foldl _ _ _=st at h hscan
  obtain ⟨sc,res⟩ := st
  have hch : res.changedMIDs=_ := hscan.changed
  simp only [ContentSyncResult.sorted,mem_sortIDs,appendDeletions_changed,hch] at h
  obtain ⟨row,hrow,rfl⟩ := List.mem_map.mp h
  obtain ⟨r,hr,rfl⟩ := List.mem_map.mp (List.mem_filter.mp hrow).1
  exact ⟨r,hr,rfl⟩

theorem flowMIDs_contentFlow (res : ContentSyncResult) (syncFlags : UInt16) {mid : Nat}
    (h : mid∈flowMIDs (contentFlow res syncFlags)) : mid∈res.changedMIDs := by
  simp only [flowMIDs,contentFlow] at h
  split_ifs at h <;> simp_all

theorem MailStore.newHierarchyDownload_flow {W : Wire} {m : MailStore} {fid : Nat}
    {state : SyncState} {syncFlags : UInt16} {proptags : List PropTag} {dc : DownloadContext}
    (h : m.newHierarchyDownload W fid state syncFlags proptags=.ok dc) : dc.flow=[] := by
  unfold MailStore.newHierarchyDownload at h
  split at h
  · cases h
  · cases h
  · split at h
    · cases h
      rfl
    · cases h

theorem MailStore.Agree.newFlow {a b : MailStore} (h : MailStore.Agree sees a b) {fid : Nat}
    (hf : sees fid=true) (state : SyncState) (syncFlags : UInt16) (extraFlags : UInt32)
    (proptags : List PropTag) :
    ∀ mid∈flowMIDs (a.newContentDownload fid state syncFlags extraFlags proptags).flow,
      MailStore.BothShow sees a b mid := by
  intro mid hmid
  obtain ⟨r,hr,rfl⟩ := mem_changedMIDs (flowMIDs_contentFlow _ _ hmid)
  obtain ⟨hrow,hq⟩ := List.mem_filter.mp hr
  have hfid : r.parentFid=fid := (of_decide_eq_true hq).1
  exact h.bothShow hrow (by rw [hfid,hf])

end HermEX.Objectstore
