import HermEX.Objectstore.Agreement
import HermEX.Rop.Reading

namespace HermEX.Rop

open Framework Mapi Objectstore

def Logon.sees (l : Logon) (fid : Nat) : Bool := l.authorize fid frightsReadAny

/-- One caller, mailboxes that differ in messages they may not read. -/
structure Logon.Alike (a b : Logon) : Prop where
  caller : a.delegateCaller=b.delegateCaller
  owner : a.isStoreOwner=b.isStoreOwner
  mail : MailStore.Agree a.sees a.mail b.mail

def Logon.BothShow (a b : Logon) : Nat → Prop := MailStore.BothShow a.sees a.mail b.mail

/-- In both it is gone, in the folder, or where the caller may read. -/
def Logon.Keeps (a b : Logon) (fid mid : Nat) : Prop :=
  MailStore.BothShow (fun f => a.sees f || f == fid) a.mail b.mail mid

theorem Logon.Keeps.shows {a b : Logon} {fid mid : Nat} (h : a.Keeps b fid mid)
    (hsee : a.sees fid=true) : a.BothShow b mid := by
  refine h.mono fun f hf => ?_
  rcases Bool.or_eq_true_iff.mp hf with hf | hf
  · exact hf
  · rw [beq_iff_eq.mp hf,hsee]

/-- What a handle reads unchecked, the caller may read. -/
def ReadObject.Settled (a b : Logon) : ReadObject → Prop
  | .table t => ∀ mid∈t.messageIDs,a.BothShow b mid
  | .message mid fid => a.Keeps b fid mid
  | .download c => match c.dc with
    | some dc => ∀ mid∈flowMIDs dc.flow,a.BothShow b mid
    | none => c.syncType=.contents → a.sees c.folderID=true
  | _ => True

def ReadSession.Settled (a b : Logon) (s : ReadSession) : Prop := ∀ x∈s.handles,x.2.Settled a b

structure Reader.Alike (v w : Reader) : Prop where
  logon : v.logon.Alike w.logon
  session : v.session=w.session
  settled : v.session.Settled v.logon w.logon

theorem Logon.Alike.authorize {a b : Logon} (h : a.Alike b) : a.authorize=b.authorize := by
  have hlookup : a.mail.db.lookupPermission=b.mail.db.lookupPermission := by
    funext fid username
    simp [ObjDB.lookupPermission,h.mail.permissions]
  have hrights : a.mail.db.resolvePermission=b.mail.db.resolvePermission := by
    funext owner fid username
    simp [ObjDB.resolvePermission,hlookup]
  unfold Logon.authorize
  rw [h.caller,h.owner]
  simp [Session.authorize,hrights]

/-- A search's results, and index rows of messages elsewhere, may be read. -/
def Logon.Lists (a b : Logon) (fid : Nat) : Prop :=
  let c := a.mail.criteria fid
  if a.mail.isSearchFolder fid then
    c.restriction.isSome=true → c.has searchRestart=true →
      if c.has searchStatic then ∀ p∈a.mail.searchResult,p.1=fid → a.BothShow b p.2
      else ∀ f∈(a.mail.searchFolders c).getD [],a.sees f=true
  else ∀ mid∈a.mail.listMessageIDs fid,a.Keeps b fid mid

def TableState.Shown (t : TableState) (a b : Logon) : Prop := ∀ mid∈t.messageIDs,a.BothShow b mid

namespace ReadSession

/-- No check covers if an id exists, what a table lists besides, folders below a copied one. -/
def Asks {σ : Type} (s : ReadSession) (a b : Logon) : ReadRequest σ → Prop
  | .openMessage h mid => (s.get h).isSome=true → a.mail.shows a.sees mid=b.mail.shows a.sees mid
  | .getContentsTable h tableFlags => ∀ fid,s.openFolder h=some fid → a.sees fid=true →
    (tableFlags &&& tableFlagSoftDeletes != 0)=false → a.Lists b fid
  | .copyFolder h copyFlags => ∀ fid,s.openFolder h=some fid → a.sees fid=true →
    ∀ f∈a.mail.copiedFolders a.mail.copyDepth fid (withSubfolders copyFlags),
      f=fid ∨ a.sees f=true
  | _ => True

def Tied (a b : Logon) (x y : ReadReply×ReadSession) : Prop := x=y ∧ x.2.Settled a b

variable {a b : Logon} {s : ReadSession} {handle : Nat} {t : TableState}

theorem rebuildView_ids (W : Wire) (m : MailStore) (t : TableState) :
    (t.rebuildView W m).messageIDs=t.messageIDs := by
  unfold TableState.rebuildView
  split_ifs <;> rfl

theorem rowID_congr {α : Type} {f g : Nat → Option α}
    (ht : t.Shown a b) (hfg : ∀ mid,a.BothShow b mid → f mid=g mid)
    (idx : Nat) : (t.rowID idx).bind f=(t.rowID idx).bind g := by
  cases hid : t.rowID idx with
  | none => rfl
  | some mid => exact hfg mid (ht mid (List.mem_of_getElem? hid))

section Settled

variable (hs : s.Settled a b)

include hs

theorem Settled.get {o : ReadObject} (ho : s.get handle=some o) : o.Settled a b := by
  obtain ⟨l₁,l₂,hp,-⟩ := List.lookup_eq_some_iff.mp ho
  exact hs (handle,o) (by simp [hp])

theorem Settled.same (reply : ReadReply) : Tied a b (reply,s) (reply,s) := ⟨rfl,hs⟩

theorem Settled.put {o : ReadObject} (ho : o.Settled a b) (reply : ReadReply) :
    Tied a b (reply,s.put handle o) (reply,s.put handle o) := by
  refine ⟨rfl,?_⟩
  intro x hx
  obtain ⟨y,hy,rfl⟩ := List.mem_map.mp hx
  split_ifs
  · exact ho
  · exact hs y hy

theorem Settled.putTable {t' : TableState} (ht : t.Shown a b)
    (reply : ReadReply) (heq : t'.messageIDs=t.messageIDs := by rfl) :
    Tied a b (reply,s.put handle (.table t')) (reply,s.put handle (.table t')) := by
  have ht' : (ReadObject.table t').Settled a b := by
    intro mid hmid
    exact ht mid (heq ▸ hmid)
  exact hs.put ht' reply

theorem Settled.alloc {o : ReadObject} (ho : o.Settled a b) : (s.alloc o).2.Settled a b := by
  intro x hx
  rcases List.mem_cons.mp hx with rfl | hx
  · exact ho
  · exact hs x hx

theorem Settled.openHandle {o : ReadObject} (ho : o.Settled a b) :
    Tied a b (s.openHandle o) (s.openHandle o) := ⟨rfl,hs.alloc ho⟩

theorem Settled.openCopy (es : List Ics.Emission) : Tied a b (s.openCopy es) (s.openCopy es) := by
  refine ⟨rfl,?_⟩
  unfold ReadSession.openCopy
  split
  · exact hs.alloc trivial
  · exact hs
  · exact hs

theorem Settled.onFolder {j k : Nat → ReadReply×ReadSession}
    (hjk : ∀ fid,s.openFolder handle=some fid → Tied a b (j fid) (k fid)) :
    Tied a b (s.onFolder handle j) (s.onFolder handle k) := by
  unfold ReadSession.onFolder
  cases hf : s.openFolder handle with
  | none => exact hs.same _
  | some fid => exact hjk fid hf

theorem Settled.openTable (ht : s.openTable handle=some t) :
    t.Shown a b := by
  unfold ReadSession.openTable at ht
  split at ht
  · rename_i ho
    cases ht
    exact hs.get ho
  · cases ht

theorem Settled.openDownload {c : DownloadCollector} (hc : s.openDownload handle=some c) :
    (ReadObject.download c).Settled a b := by
  unfold ReadSession.openDownload at hc
  split at hc
  · rename_i ho
    cases hc
    exact hs.get ho
  · cases hc

theorem Settled.onTable {j k : TableState → ReadReply×ReadSession}
    (hjk : ∀ t : TableState,t.Shown a b → Tied a b (j t) (k t)) :
    Tied a b (s.onTable handle j) (s.onTable handle k) := by
  unfold ReadSession.onTable
  cases ht : s.openTable handle with
  | none => exact hs.same _
  | some t => exact hjk t (hs.openTable ht)

theorem Settled.onProjectedTable {j k : TableState → List PropTag → ReadReply×ReadSession}
    (hjk : ∀ (t : TableState) columns,t.Shown a b →
      Tied a b (j t columns) (k t columns)) :
    Tied a b (s.onProjectedTable handle j) (s.onProjectedTable handle k) := by
  refine hs.onTable fun t ht => ?_
  cases t.columns with
  | none => exact hs.same _
  | some columns => exact hjk t columns ht

theorem Settled.afterSeek (ht : t.Shown a b) (origin : Nat)
    (offset : Int32) : Tied a b (s.afterSeek handle t origin offset)
      (s.afterSeek handle t origin offset) := hs.putTable ht _

theorem Settled.ropTable (op : TableOp) :
    Tied a b (s.ropTable handle op) (s.ropTable handle op) := by
  cases op with
  | setColumns columns => exact hs.onTable fun t ht => hs.putTable ht _
  | seekRow seekPos offset =>
    refine hs.onTable fun t ht => ?_
    cases t.seekOrigin seekPos with
    | none => exact hs.same _
    | some origin => exact hs.afterSeek ht origin offset
  | seekRowFractional numerator denominator =>
    simp only [ReadSession.ropTable]
    cases ht : s.openTable handle with
    | none => exact hs.same _
    | some t =>
      dsimp only
      split_ifs
      · exact hs.same _
      · exact hs.putTable (hs.openTable ht) _
  | createBookmark => exact hs.onTable fun t ht => hs.putTable ht _
  | seekRowBookmark bookmark offset =>
    refine hs.onTable fun t ht => ?_
    cases bookmark with
    | none => exact hs.same _
    | some idx =>
      dsimp only
      cases t.bookmarks.lookup idx with
      | none => exact hs.same _
      | some origin => exact hs.afterSeek ht origin offset
  | freeBookmark bookmark =>
    refine hs.onTable fun t ht => ?_
    cases bookmark with
    | none => exact hs.same _
    | some idx => exact hs.putTable ht _
  | resetTable => exact hs.onTable fun t ht => hs.putTable ht _

theorem Settled.release : (s.release handle).Settled a b :=
  fun x hx => hs x (List.mem_filter.mp hx).1

theorem Settled.uploadState (W : Wire) (stream : StateStream) :
    Tied a b (s.ropSyncUploadState W handle stream) (s.ropSyncUploadState W handle stream) := by
  unfold ropSyncUploadState
  cases hc : s.openDownload handle with
  | none => exact hs.same _
  | some c =>
    refine hs.put ?_ _
    have hold : (ReadObject.download c).Settled a b := hs.openDownload hc
    have hsame : ∀ c' : DownloadCollector,c'.dc=c.dc → c'.syncType=c.syncType →
        c'.folderID=c.folderID → (ReadObject.download c').Settled a b := by
      intro c' hdc hkind hfid
      simp only [ReadObject.Settled,hdc,hkind,hfid] at hold ⊢
      exact hold
    cases stream with
    | beginStream metaTag =>
      dsimp only
      unfold DownloadCollector.beginStateStream
      split_ifs <;> exact hsame _ rfl rfl rfl
    | continueStream data =>
      dsimp only
      unfold DownloadCollector.continueStateStream
      split_ifs <;> exact hsame _ rfl rfl rfl
    | endStream =>
      dsimp only
      unfold DownloadCollector.endStateStream
      split_ifs
      · exact hold
      · dsimp only
        split <;> exact hsame _ rfl rfl rfl

theorem Settled.getBuffer (W : Wire) (bufferSize : Nat)
    {context : DownloadCollector → Except Ics.Written DownloadContext}
    (change : DownloadContext → Nat → Ics.Written×DownloadContext)
    (hcontext : ∀ c dc,(ReadObject.download c).Settled a b → context c=.ok dc →
      ∀ mid∈flowMIDs dc.flow,a.BothShow b mid) :
    (s.ropFastTransferSourceGetBuffer W handle bufferSize context change).2.Settled a b := by
  unfold ropFastTransferSourceGetBuffer
  cases ho : s.get handle with
  | none => exact hs
  | some o =>
    cases o with
    | copy c => exact (hs.put (o := .copy _) trivial .silent).2
    | download c =>
      dsimp only
      cases hctx : context c with
      | error res => cases res <;> first | exact hs | exact (hs.put (hs.get ho) .silent).2
      | ok dc =>
        refine (hs.put ?_ .silent).2
        intro mid hmid
        exact hcontext c dc (hs.get ho) hctx mid (getBuffer_flow W change dc _ hmid)
    | _ => exact hs

end Settled

section Open

variable (h : a.Alike b) (hs : s.Settled a b) (W : Wire)

include h

theorem unlessDenied_tied (hs : s.Settled a b) (fid : Nat) (need : UInt32)
    {j k : ReadReply×ReadSession} (hjk : a.authorize fid need=true → Tied a b j k) :
    Tied a b (s.unlessDenied a fid need j) (s.unlessDenied b fid need k) := by
  unfold unlessDenied
  rw [← h.authorize]
  split_ifs with hok
  · exact hjk hok
  · exact hs.same _

theorem messageProps_congr {mid : Nat} (hm : a.BothShow b mid) (tags : List PropTag) :
    messageProps a.mail mid tags=messageProps b.mail mid tags := by
  simp [messageProps,h.mail.getMessageProperties hm,h.mail.messageComputedProps hm]

theorem contentsKeyProps_congr {mid : Nat} (hm : a.BothShow b mid) (tags : List PropTag) :
    contentsKeyProps a.mail tags mid=contentsKeyProps b.mail tags mid := by
  simp [contentsKeyProps,h.mail.getMessageProperties hm,h.mail.messageComputedProps hm]

section Rows

variable (ht : t.Shown a b)

include ht

theorem rebuildView_congr : t.rebuildView W a.mail=t.rebuildView W b.mail := by
  have hbags : t.messageIDs.map (contentsKeyProps a.mail t.viewTags) =
      t.messageIDs.map (contentsKeyProps b.mail t.viewTags) := by
    apply List.map_congr_left
    intro mid hmid
    exact contentsKeyProps_congr h (ht mid hmid) t.viewTags
  simp only [TableState.rebuildView,hbags]

theorem encodeRow_congr (columns : List PropTag) :
    t.encodeRow W a.mail columns=t.encodeRow W b.mail columns := by
  funext idx
  exact rowID_congr ht (fun mid hm => by rw [messageProps_congr h hm]) idx

theorem scanForRow_congr (r : Option Restriction) (is : List Nat) :
    t.scanForRow a.mail r is=t.scanForRow b.mail r is := by
  have hmatch : t.matchRow a.mail r=t.matchRow b.mail r := by
    funext idx
    cases r with
    | none => rfl
    | some r => exact rowID_congr ht (fun mid hm => by rw [messageProps_congr h hm]) idx
  induction is with
  | nil => rfl
  | cons i is ih => simp [TableState.scanForRow,hmatch,ih]

end Rows

theorem searchFolder_ids {fid : Nat} (hsearch : a.mail.isSearchFolder fid=true)
    (hlists : a.Lists b fid) :
    a.mail.searchFolderMessageIDs fid=b.mail.searchFolderMessageIDs fid ∧
      ∀ ids,a.mail.searchFolderMessageIDs fid=some ids → ∀ mid∈ids,a.BothShow b mid := by
  unfold Logon.Lists at hlists
  simp only [if_pos hsearch] at hlists
  simp only [MailStore.searchFolderMessageIDs,← h.mail.criteria]
  cases hr : (a.mail.criteria fid).restriction with
  | none => simp
  | some r =>
    cases hon : (a.mail.criteria fid).has searchRestart with
    | false => simp
    | true =>
      have hlists := hlists (by rw [hr]; rfl) hon
      cases hst : (a.mail.criteria fid).has searchStatic with
      | true =>
        rw [if_pos hst] at hlists
        refine ⟨by simp [h.mail.staticResult hlists],?_⟩
        rintro ids hids mid hmid
        cases hids
        obtain ⟨p,hp,rfl⟩ := List.mem_map.mp ((mem_sortIDs _ _).mp hmid)
        obtain ⟨hres,hq⟩ := List.mem_filter.mp hp
        exact hlists p hres (by simp only [Bool.and_eq_true,beq_iff_eq] at hq; exact hq.1)
      | false =>
        rw [if_neg (by simp [hst])] at hlists
        have hfolders := h.mail.searchFolders (a.mail.criteria fid)
        cases hf : a.mail.searchFolders (a.mail.criteria fid) with
        | none => simp [← hfolders,hf]
        | some fids =>
          rw [hf] at hlists
          have hfound : fids.flatMap (a.mail.matchFolder r) =
              fids.flatMap (b.mail.matchFolder r) := by
            apply List.flatMap_congr
            intro f hmem
            exact h.mail.matchFolder (hlists f hmem) r
          refine ⟨by simp [← hfolders,hf,hfound],?_⟩
          rintro ids hids mid hmid
          cases hids
          obtain ⟨f,hmem,hmid⟩ := List.mem_flatMap.mp hmid
          exact h.mail.bothShow_matchFolder (hlists f hmem) hmid

theorem contentsTable_ids {fid : Nat} (hsee : a.sees fid=true) (soft : Bool)
    (hlists : soft=false → a.Lists b fid) :
    contentsTableIDs a.mail fid soft=contentsTableIDs b.mail fid soft ∧
      ∀ ids,contentsTableIDs a.mail fid soft=some ids → ∀ mid∈ids,a.BothShow b mid := by
  have hkind : a.mail.isSearchFolder fid=b.mail.isSearchFolder fid := by
    simp [MailStore.isSearchFolder,h.mail.folders]
  cases soft with
  | true =>
    refine ⟨congrArg some (h.mail.listSoftDeletedIDs hsee),?_⟩
    rintro ids hids mid hmid
    cases hids
    exact h.mail.bothShow_softDeleted hsee hmid
  | false =>
    have hlists := hlists rfl
    simp only [contentsTableIDs,← hkind]
    cases hsearch : a.mail.isSearchFolder fid with
    | true => exact searchFolder_ids h hsearch hlists
    | false =>
      refine ⟨congrArg some (h.mail.listMessageIDs hsee),?_⟩
      rintro ids hids mid hmid
      cases hids
      rw [Logon.Lists,if_neg (by simp [hsearch])] at hlists
      exact (hlists mid hmid).shows hsee

theorem context_shows {c : DownloadCollector} {dc : DownloadContext}
    (hc : (ReadObject.download c).Settled a b) (hctx : c.context W a.mail=.ok dc) :
    ∀ mid∈flowMIDs dc.flow,a.BothShow b mid := by
  unfold DownloadCollector.context at hctx
  simp only [ReadObject.Settled] at hc
  cases hdc : c.dc with
  | some old =>
    simp only [hdc] at hctx hc
    cases hctx
    exact hc
  | none =>
    simp only [hdc] at hctx hc
    cases hkind : c.syncType with
    | contents =>
      rw [hkind] at hctx
      cases hctx
      exact h.mail.newFlow (hc hkind) c.state c.syncFlags c.extraFlags c.propTags
    | hierarchy =>
      rw [hkind] at hctx
      simp [MailStore.newHierarchyDownload_flow hctx,flowMIDs]

theorem downloadChunk_congr (c : DownloadCollector) (now : UInt64) (maxLen : Nat)
    (hc : (ReadObject.download c).Settled a b) :
    c.getBuffer W (c.context W a.mail) (DownloadContext.emitMessage a.mail now) maxLen =
      c.getBuffer W (c.context W b.mail) (DownloadContext.emitMessage b.mail now) maxLen := by
  have hsame : c.context W a.mail=c.context W b.mail := by
    simp only [ReadObject.Settled] at hc
    unfold DownloadCollector.context
    cases hdc : c.dc with
    | some dc => rfl
    | none =>
      simp only [hdc] at hc
      cases hkind : c.syncType with
      | contents => simp only [h.mail.newContentDownload (hc hkind)]
      | hierarchy => simp only [h.mail.newHierarchyDownload]
  rw [← hsame]
  cases hctx : c.context W a.mail with
  | error res => cases res <;> simp only [DownloadCollector.getBuffer]
  | ok dc =>
    simp [DownloadCollector.getBuffer,
      h.mail.downloadBuffer W now maxLen dc (context_shows h W hc hctx)]

include hs

theorem ropOpenFolder_tied (fid : Nat) :
    Tied a b (s.ropOpenFolder a handle fid) (s.ropOpenFolder b handle fid) := by
  have hfolder : a.mail.db.folderExists fid=b.mail.db.folderExists fid := by
    simp [ObjDB.folderExists,h.mail.folders]
  unfold ropOpenFolder
  rw [← hfolder]
  cases s.get handle with
  | none => exact hs.same _
  | some o =>
    dsimp only
    split_ifs
    · exact hs.same _
    · exact unlessDenied_tied h hs fid _ fun _ => hs.openHandle trivial

theorem ropOpenMessage_tied (mid : Nat)
    (hask : (s.get handle).isSome=true → a.mail.shows a.sees mid=b.mail.shows a.sees mid) :
    Tied a b (s.ropOpenMessage a handle mid) (s.ropOpenMessage b handle mid) := by
  unfold ropOpenMessage
  cases hget : s.get handle with
  | none => exact hs.same _
  | some o =>
    have hask := hask (by rw [hget]; rfl)
    cases hshow : a.mail.shows a.sees mid with
    | true =>
      have hm : a.BothShow b mid := ⟨hshow,hask.symm.trans hshow⟩
      rw [← h.mail.messageFolder hm,← h.mail.openMessage hm]
      cases hfolder : a.mail.messageFolder mid with
      | error e => exact hs.same _
      | ok fid =>
        refine unlessDenied_tied h hs fid _ fun _ => ?_
        cases a.mail.openMessage mid with
        | error e => exact hs.same _
        | ok msg =>
          have hkeeps : a.Keeps b fid mid := hm.mono fun f hf => by simp [hf]
          exact ⟨rfl,hs.alloc hkeeps⟩
    | false =>
      -- in either mailbox the check on the folder of a hidden message refuses it
      have hdenied : ∀ l : Logon,l.sees=a.sees → l.mail.shows a.sees mid=false →
          ∃ fid,l.mail.messageFolder mid=.ok fid ∧
            ∀ k,s.unlessDenied l fid frightsReadAny k=(.failed .ecAccessDenied,s) := by
        intro l hl hhide
        cases hrow : l.mail.db.messages.get mid with
        | none => simp [MailStore.shows,hrow] at hhide
        | some r =>
          refine ⟨r.parentFid,by simp [MailStore.messageFolder,hrow],fun k => if_neg ?_⟩
          have hno : l.sees r.parentFid=false := by simpa [MailStore.shows,hrow,← hl] using hhide
          simpa [Logon.sees] using hno
      have hsees : b.sees=a.sees := by
        unfold Logon.sees
        rw [h.authorize]
      obtain ⟨f,hf,ha⟩ := hdenied a rfl hshow
      obtain ⟨g,hg,hb⟩ := hdenied b hsees (hask.symm.trans hshow)
      simp only [hf,hg]
      rw [ha,hb]
      exact hs.same _

theorem ropGetContentsTable_tied (tableFlags : UInt8)
    (hask : ∀ fid,s.openFolder handle=some fid → a.sees fid=true →
      (tableFlags &&& tableFlagSoftDeletes != 0)=false → a.Lists b fid) :
    Tied a b (s.ropGetContentsTable a handle tableFlags)
      (s.ropGetContentsTable b handle tableFlags) := by
  refine hs.onFolder fun fid hfid => unlessDenied_tied h hs fid _ fun hsee => ?_
  obtain ⟨hids,hshow⟩ := contentsTable_ids h hsee _ (hask fid hfid hsee)
  rw [← hids]
  cases hlist : contentsTableIDs a.mail fid (tableFlags &&& tableFlagSoftDeletes != 0) with
  | none => exact hs.same _
  | some ids => exact ⟨rfl,hs.alloc (o := .table _) (hshow ids hlist)⟩

theorem ropFindRow_tied (backward : Bool) (seekPos : UInt8)
    (r : Except ErrorCode (Option Restriction)) :
    Tied a b (s.ropFindRow W a.mail handle backward seekPos r)
      (s.ropFindRow W b.mail handle backward seekPos r) := by
  refine hs.onProjectedTable fun t columns ht => ?_
  cases r with
  | error code => exact hs.same _
  | ok r =>
    dsimp only
    cases t.seekOrigin seekPos with
    | none => exact hs.same _
    | some origin =>
      dsimp only
      rw [← scanForRow_congr h ht r,← encodeRow_congr h W ht columns]
      cases t.scanForRow a.mail r (t.scanIndices origin backward) with
      | none => exact hs.same _
      | some found =>
        cases found with
        | none => exact hs.same _
        | some i =>
          dsimp only
          cases t.encodeRow W a.mail columns i with
          | none => exact hs.putTable ht _
          | some row => exact hs.putTable ht _

theorem ropQueryRows_tied (noAdvance forward : Bool) (rowCount : Nat) :
    Tied a b (s.ropQueryRows W a.mail handle noAdvance forward rowCount)
      (s.ropQueryRows W b.mail handle noAdvance forward rowCount) := by
  refine hs.onProjectedTable fun t columns ht => ?_
  simp only [TableState.encodeRows,← encodeRow_congr h W ht columns]
  cases (t.pageIndices rowCount forward).1.mapM (t.encodeRow W a.mail columns) with
  | none => exact hs.same _
  | some rows =>
    refine hs.putTable ht _ ?_
    split_ifs <;> rfl

theorem ropSynchronizationConfigure_tied (syncType : UInt8) (syncFlags : UInt16)
    (extraFlags : UInt32) (propTags : List PropTag) :
    Tied a b (s.ropSynchronizationConfigure a handle syncType syncFlags extraFlags propTags)
      (s.ropSynchronizationConfigure b handle syncType syncFlags extraFlags propTags) := by
  have hnew : a.mail.newDownloadCollector=b.mail.newDownloadCollector := by
    funext fid kind flags extra tags
    simp [MailStore.newDownloadCollector,h.mail.replica]
  refine hs.onFolder fun fid _ => ?_
  rw [← hnew]
  cases syncTypeOf syncType with
  | none => exact hs.same _
  | some kind =>
    cases kind with
    | contents =>
      exact unlessDenied_tied h hs fid _ fun hsee => hs.openHandle (o := .download _) fun _ => hsee
    | hierarchy =>
      refine hs.openHandle (o := .download _) fun hkind => ?_
      cases hkind

theorem ropFastTransferSourceCopyMessages_tied (mids : List Nat) :
    Tied a b (s.ropFastTransferSourceCopyMessages a handle mids)
      (s.ropFastTransferSourceCopyMessages b handle mids) := by
  refine hs.onFolder fun fid _ => unlessDenied_tied h hs fid _ fun hsee => ?_
  rw [h.mail.copyMessages hsee]
  exact hs.openCopy _

theorem ropFastTransferSourceCopyFolder_tied (copyFlags : UInt8)
    (hask : ∀ fid,s.openFolder handle=some fid → a.sees fid=true →
      ∀ f∈a.mail.copiedFolders a.mail.copyDepth fid (withSubfolders copyFlags),
        f=fid ∨ a.sees f=true) :
    Tied a b (s.ropFastTransferSourceCopyFolder a handle copyFlags)
      (s.ropFastTransferSourceCopyFolder b handle copyFlags) := by
  refine hs.onFolder fun fid hfid => unlessDenied_tied h hs fid _ fun hsee => ?_
  have hall : ∀ f∈a.mail.copiedFolders a.mail.copyDepth fid (withSubfolders copyFlags),
      a.sees f=true := by
    intro f hf
    rcases hask fid hfid hsee f hf with rfl | hf
    · exact hsee
    · exact hf
  rw [h.mail.copyFolder fid _ hall]
  exact hs.openCopy _

theorem openCopySource_tied (source : CopySource) :
    Tied a b (s.openCopySource a handle source) (s.openCopySource b handle source) := by
  unfold openCopySource
  cases hx : s.openMessage handle with
  | none => exact hs.same _
  | some x =>
    obtain ⟨mid,fid⟩ := x
    refine unlessDenied_tied h hs fid _ fun hsee => ?_
    have hkeeps : (ReadObject.message mid fid).Settled a b := by
      unfold openMessage at hx
      split at hx
      · rename_i ho
        cases hx
        exact hs.get ho
      · cases hx
    have hm : a.BothShow b mid := Logon.Keeps.shows hkeeps hsee
    have hcopy : copyOf a.mail mid source=copyOf b.mail mid source := by
      cases source with
      | copyTo exclude => exact h.mail.copyToMessage hm exclude
      | copyProperties included => exact h.mail.copyPropertiesMessage hm included
    rw [hcopy]
    exact hs.openCopy _

theorem getBuffer_tied (bufferSize : Nat) (now : UInt64) :
    Tied a b (s.ropFastTransferSourceGetBuffer W handle bufferSize (fun c => c.context W a.mail)
        (DownloadContext.emitMessage a.mail now))
      (s.ropFastTransferSourceGetBuffer W handle bufferSize (fun c => c.context W b.mail)
        (DownloadContext.emitMessage b.mail now)) := by
  refine ⟨?_,hs.getBuffer W bufferSize _ fun c dc hc hctx => context_shows h W hc hctx⟩
  unfold ropFastTransferSourceGetBuffer
  cases ho : s.get handle with
  | none => simp only
  | some o =>
    cases o with
    | download c => simp [downloadChunk_congr h W c now _ (hs.get ho)]
    | _ => simp only

theorem answerOpen_tied {σ : Type} (r : ReadRequest σ) (hask : s.Asks a b r) :
    Tied a b (s.answerOpen W a r) (s.answerOpen W b r) := by
  cases r with
  | openFolder handle fid => exact ropOpenFolder_tied h hs fid
  | openMessage handle mid => exact ropOpenMessage_tied h hs mid hask
  | getContentsTable handle tableFlags => exact ropGetContentsTable_tied h hs tableFlags hask
  | table handle op => exact hs.ropTable op
  | sortTable handle keys =>
    refine hs.onTable fun t ht => ?_
    cases keys with
    | none => exact hs.same _
    | some keys =>
      dsimp only
      rw [rebuildView_congr h W (t := {t with sortKeys:=keys}) ht]
      exact hs.putTable ht _ (rebuildView_ids W _ _)
  | restrict handle restriction =>
    refine hs.onTable fun t ht => ?_
    cases restriction with
    | error code => exact hs.same _
    | ok r =>
      dsimp only
      rw [rebuildView_congr h W (t := {t with restriction:=r}) ht]
      exact hs.putTable ht _ (rebuildView_ids W _ _)
  | findRow handle backward seekPos r => exact ropFindRow_tied h hs W backward seekPos r
  | queryRows handle noAdvance forward rowCount =>
    exact ropQueryRows_tied h hs W noAdvance forward rowCount
  | synchronizationConfigure handle syncType syncFlags extraFlags propTags =>
    exact ropSynchronizationConfigure_tied h hs syncType syncFlags extraFlags propTags
  | uploadState handle stream => exact hs.uploadState W stream
  | copyMessages handle mids => exact ropFastTransferSourceCopyMessages_tied h hs mids
  | copyFolder handle copyFlags => exact ropFastTransferSourceCopyFolder_tied h hs copyFlags hask
  | copySource handle source => exact openCopySource_tied h hs source
  | getBuffer handle bufferSize now => exact getBuffer_tied h hs W bufferSize now
  | release handle => exact ⟨rfl,hs.release⟩
  | other run => exact hs.same _

end Open

theorem answerClosed_tied {σ : Type} (hs : s.Settled a b) (W : Wire) (r : ReadRequest σ) :
    Tied a b (s.answerClosed W r) (s.answerClosed W r) := by
  have hrebuild : ∀ handle (t : TableState),t.Shown a b →
      Tied a b (s.rebuildClosed handle t) (s.rebuildClosed handle t) := by
    intro handle t ht
    unfold rebuildClosed
    split_ifs <;> exact hs.putTable ht _
  cases r with
  | table handle op => exact hs.ropTable op
  | sortTable handle keys =>
    refine hs.onTable fun t ht => ?_
    cases keys with
    | none => exact hs.same _
    | some keys => exact hrebuild handle _ ht
  | restrict handle restriction =>
    refine hs.onTable fun t ht => ?_
    cases restriction with
    | error code => exact hs.same _
    | ok r => exact hrebuild handle _ ht
  | findRow handle backward seekPos restriction =>
    refine hs.onProjectedTable fun t _ ht => ?_
    cases restriction with
    | error code => exact hs.same _
    | ok r =>
      dsimp only
      cases t.seekOrigin seekPos with
      | none => exact hs.same _
      | some origin =>
        dsimp only
        cases t.scanIndices origin backward with
        | nil => exact hs.same _
        | cons i is =>
          dsimp only
          split_ifs
          · exact hs.same _
          · exact hs.putTable ht _
  | queryRows handle noAdvance forward rowCount =>
    refine hs.onProjectedTable fun t _ ht => ?_
    dsimp only
    split_ifs
    · exact hs.putTable ht _
    · exact hs.putTable ht _
    · exact hs.same _
  | uploadState handle stream => exact hs.uploadState W stream
  | copyMessages handle mids =>
    refine hs.onFolder fun fid _ => ?_
    split_ifs
    · exact hs.openCopy _
    · exact hs.same _
  | getBuffer handle bufferSize now =>
    refine ⟨rfl,hs.getBuffer W bufferSize _ fun c dc hc hctx => ?_⟩
    unfold DownloadCollector.closedContext at hctx
    simp only [ReadObject.Settled] at hc
    split at hctx
    · rename_i hdc
      cases hctx
      simpa only [hdc] using hc
    · cases hctx
  | release handle => exact ⟨rfl,hs.release⟩
  | _ => exact hs.same _

end ReadSession

/-- Nothing unchecked is asked, and others keep mailboxes alike and handles settled. -/
def Reader.Within (p : Reader×Reader) : ReadRequest Reader → Prop
  | .other run => (run p.1).Alike (run p.2)
  | r => p.1.session.closed=false → p.1.session.Asks p.1.logon p.2.logon r

theorem Reader.dispatch_alike (W : Wire) {v w : Reader} (h : v.Alike w) (r : ReadRequest Reader)
    (hr : Reader.Within (v,w) r) :
    (v.dispatch W r).1=(w.dispatch W r).1 ∧ (v.dispatch W r).2.Alike (w.dispatch W r).2 := by
  have hanswer : (v.session.closed=false → v.session.Asks v.logon w.logon r) →
      ReadSession.Tied v.logon w.logon (v.session.answer W v.logon r)
        (w.session.answer W w.logon r) := by
    intro hask
    rw [← h.session]
    unfold ReadSession.answer
    split_ifs with hclosed
    · exact ReadSession.answerClosed_tied h.settled W r
    · exact ReadSession.answerOpen_tied h.logon h.settled W r (hask (by simpa using hclosed))
  cases r with
  | other run => exact ⟨rfl,hr⟩
  | _ =>
    obtain ⟨hsame,hsettled⟩ := hanswer hr
    simp only [Reader.dispatch]
    exact ⟨by rw [hsame],h.logon,by rw [hsame],hsettled⟩

theorem Reader.delegate_alike {caller : GoString} {isStoreOwner : Bool} {a b : MailStore}
    (h : MailStore.Agree (Reader.delegate caller isStoreOwner a).logon.sees a b) :
    (Reader.delegate caller isStoreOwner a).Alike (Reader.delegate caller isStoreOwner b) := by
  refine ⟨⟨rfl,rfl,h⟩,rfl,?_⟩
  intro x hx
  obtain rfl := List.mem_singleton.mp hx
  trivial

/-- No delegate tells apart mailboxes that differ in what they may not read. -/
theorem delegate_reads_granted (W : Wire) (caller : GoString) (isStoreOwner : Bool)
    (a b : MailStore)
    (h : MailStore.Agree (Reader.delegate caller isStoreOwner a).logon.sees a b)
    (requests : List (ReadRequest Reader))
    (hw : Meets (abreast (Reader.dispatch W)) Reader.Within
      (Reader.delegate caller isStoreOwner a,Reader.delegate caller isStoreOwner b) requests) :
    answers (Reader.dispatch W) (.delegate caller isStoreOwner a) requests =
      answers (Reader.dispatch W) (.delegate caller isStoreOwner b) requests :=
  answers_eq (fun _ _ r hvw hr => Reader.dispatch_alike W hvw r hr) (Reader.delegate_alike h) hw

def lentMailbox (hidden : Table MessageRow.messageId) : MailStore where
  store := {
    objdb:={ObjDB.ofFolders ⟨[⟨9,none,1,false,0,0,[]⟩,⟨0x101,some 9,2,false,0x20001,0x2FFFF,[]⟩,
        ⟨0x102,some 0x101,3,false,0x30001,0x3FFFF,[]⟩,⟨0x103,some 9,4,true,0,0,[]⟩],by decide⟩ with
      lastChangeNumber:=5
      messages:=hidden
      permissions:=[⟨0x101,[0x62,0x6F,0x62],frightsVisible ||| frightsReadAny⟩,
        ⟨0x103,[0x62,0x6F,0x62],frightsVisible ||| frightsReadAny⟩]}
    idxdb:=.empty }
  message _ := ⟨[],[],[]⟩
  criteria _ := ⟨some ⟨[],fun _ => true⟩,[0x101],searchRestart ||| searchRecursive⟩
  searchResult := []
  namedPropName _ := none

def hiddenLetter : Table MessageRow.messageId :=
  ⟨[⟨0x30000,0x102,false,false,5,false,none,1⟩],by decide⟩

theorem lentMailbox_agree : MailStore.Agree
    (Reader.delegate [0x62,0x6F,0x62] false (lentMailbox .empty)).logon.sees
    (lentMailbox .empty) (lentMailbox hiddenLetter) where
  folders := rfl
  permissions := rfl
  replica := rfl
  criteria := rfl
  searchResult := rfl
  names := rfl
  rows := by unfold Table.AgreeOn; decide
  index := rfl
  bags := by decide

theorem delegate_reads_granted_copy :
    let requests : List (ReadRequest Reader) :=
      [.openFolder 1 0x101,.copyFolder 2 0,.getBuffer 3 0xBABE 0]
    (∀ W : Wire,Meets (abreast (Reader.dispatch W)) Reader.Within
      (.delegate [0x62,0x6F,0x62] false (lentMailbox .empty),
        .delegate [0x62,0x6F,0x62] false (lentMailbox hiddenLetter)) requests) ∧
    ∀ W : Wire,
      answers (Reader.dispatch W) (.delegate [0x62,0x6F,0x62] false (lentMailbox .empty)) requests =
        answers (Reader.dispatch W) (.delegate [0x62,0x6F,0x62] false (lentMailbox hiddenLetter))
          requests := by
  intro requests
  have hmeets : ∀ W : Wire,Meets (abreast (Reader.dispatch W)) Reader.Within
      (.delegate [0x62,0x6F,0x62] false (lentMailbox .empty),
        .delegate [0x62,0x6F,0x62] false (lentMailbox hiddenLetter)) requests := by
    intro W
    refine ⟨fun _ => trivial,?_,fun _ => trivial,trivial⟩
    rintro-fid hfid-f hf
    cases hfid
    exact .inl (List.mem_singleton.mp hf)
  exact ⟨hmeets,fun W => delegate_reads_granted W _ false _ _ lentMailbox_agree _ (hmeets W)⟩

/-- A copy brings the messages below, a search lists them, opening tells if one exists. -/
theorem delegate_reads_below :
    let bob : MailStore → Reader := .delegate [0x62,0x6F,0x62] false
    let empty := bob (lentMailbox .empty)
    let full := bob (lentMailbox hiddenLetter)
    MailStore.Agree empty.logon.sees (lentMailbox .empty) (lentMailbox hiddenLetter) ∧
    ∀ W : Wire,
      (let copy : List (ReadRequest Reader) :=
        [.openFolder 1 0x101,.copyFolder 2 0x10,.getBuffer 3 0xBABE 0]
      answers (Reader.dispatch W) empty copy ≠ answers (Reader.dispatch W) full copy) ∧
      (let search : List (ReadRequest Reader) := [.openFolder 1 0x103,.getContentsTable 2 0]
      answers (Reader.dispatch W) empty search = [.opened 2,.openedTable 3 0] ∧
        answers (Reader.dispatch W) full search = [.opened 2,.openedTable 3 1]) ∧
      (let probe : List (ReadRequest Reader) := [.openMessage 1 0x30000]
      answers (Reader.dispatch W) empty probe = [.failed .ecNotFound] ∧
        answers (Reader.dispatch W) full probe = [.failed .ecAccessDenied]) := by
  refine ⟨lentMailbox_agree,?_⟩
  intro W
  simp only [answers,Reader.dispatch]
  exact ⟨of_decide_eq_true rfl,⟨rfl,rfl⟩,rfl,rfl⟩

end HermEX.Rop
