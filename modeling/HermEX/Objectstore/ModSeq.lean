import HermEX.Objectstore.Index
import Mathlib.Logic.Relation

namespace HermEX.Objectstore

open Framework Mapi

variable {idx : IndexDB} {ms : Nat}

namespace IndexDB

def uidNext (idx : IndexDB) (fid : Nat) : Nat :=
  match idx.folders.get fid with
  | none => 0
  | some f => f.uidnext

variable {fid : Nat} {idx' : IndexDB}

theorem le_of_bump {f f' : Nat → Nat} {n : Nat} (hn : f fid≤n)
    (h : ∀ g,f' g=if g=fid then n else f g) (g : Nat) : f g≤f' g := by
  rw [h]
  split_ifs with hg
  · rw [hg]
    exact hn
  · exact Nat.le_refl _

theorem counters_updateFolder (idx : IndexDB) (fid : Nat) (f : IndexFolderRow → IndexFolderRow)
    (hf : ∀ r,(f r).folderId=r.folderId) {x : IndexFolderRow} (hx : idx.folders.get fid=some x)
    (g : Nat) :
    (idx.updateFolder fid f hf).folderHighestModSeq g=
      (if g=fid then (f x).highestModseq else idx.folderHighestModSeq g) ∧
    (idx.updateFolder fid f hf).uidNext g= (if g=fid then (f x).uidnext else idx.uidNext g) := by
  have hg := Table.get_updateWhere idx.folders (fun r => r.folderId=fid) f hf g
  unfold folderHighestModSeq uidNext updateFolder
  simp only [hg]
  by_cases he : g=fid
  · subst he
    have hid := (Table.get_eq_some.mp hx).2
    simp [hx,hid]
  · cases hy : idx.folders.get g with
    | none => simp [he]
    | some y =>
      have hid := (Table.get_eq_some.mp hy).2
      simp [he,hid]

theorem nextModSeq_ok (h : idx.nextModSeq fid=.ok (ms,idx')) :
    ms=idx.folderHighestModSeq fid+1 ∧ idx'.messages=idx.messages ∧ idx'.vanished=idx.vanished ∧
    (∀ g,idx'.folderHighestModSeq g=if g=fid then ms else idx.folderHighestModSeq g) ∧
    ∀ g,idx'.uidNext g=idx.uidNext g := by
  unfold nextModSeq at h
  split at h
  · cases h
  rename_i f hf
  obtain ⟨rfl,rfl⟩ := h
  have hc := counters_updateFolder idx fid
    (fun r => {r with highestModseq:=f.highestModseq+1}) (fun _ => rfl) hf
  refine ⟨by simp [folderHighestModSeq,hf],rfl,rfl,fun g => (hc g).1,fun g => ?_⟩
  rw [(hc g).2]
  split_ifs with he
  · simp [uidNext,he,hf]
  · rfl

theorem allocateUID_ok {uid : Nat} (h : idx.allocateUID fid=.ok (uid,idx')) :
    uid=idx.uidNext fid ∧ idx'.messages=idx.messages ∧ idx'.vanished=idx.vanished ∧
    (∀ g,idx'.folderHighestModSeq g=idx.folderHighestModSeq g) ∧
    ∀ g,idx'.uidNext g=if g=fid then uid+1 else idx.uidNext g := by
  unfold allocateUID at h
  split at h
  · cases h
  rename_i f hf
  obtain ⟨rfl,rfl⟩ := h
  have hc := counters_updateFolder idx fid
    (fun r => {r with uidnext:=r.uidnext+1}) (fun _ => rfl) hf
  refine ⟨by simp [uidNext,hf],rfl,rfl,fun g => ?_,fun g => (hc g).2⟩
  rw [(hc g).1]
  split_ifs with he
  · simp [folderHighestModSeq,he,hf]
  · rfl

theorem ensureIndexFolder_ok {obj : ObjDB} (h : idx.ensureIndexFolder obj fid=.ok idx') :
    idx'.messages=idx.messages ∧ idx'.vanished=idx.vanished ∧
    (∀ g,idx.folderHighestModSeq g≤ idx'.folderHighestModSeq g) ∧
    ∀ g,idx.uidNext g≤ idx'.uidNext g := by
  unfold ensureIndexFolder at h
  split at h
  · obtain rfl := Except.ok.inj h
    exact ⟨rfl,rfl,fun _ => Nat.le_refl _,fun _ => Nat.le_refl _⟩
  · cases h
  · rename_i hn _
    obtain rfl := Except.ok.inj h
    refine ⟨rfl,rfl,fun g => ?_,fun g => ?_⟩
    · simp only [folderHighestModSeq,Table.get_put]
      split_ifs with he
      · rw [show g=fid from he,hn]
        exact Nat.zero_le _
      · exact Nat.le_refl _
    · simp only [uidNext,Table.get_put]
      split_ifs with he
      · rw [show g=fid from he,hn]
        exact Nat.zero_le _
      · exact Nat.le_refl _

end IndexDB

/-- UIDs are below the counter and distinct, sequences not above the highest. -/
structure IndexInv (idx : IndexDB) : Prop where
  uid_lt : ∀ r∈idx.messages,r.uid< idx.uidNext r.folderId
  modseq_le : ∀ r∈idx.messages,r.modseq≤ idx.folderHighestModSeq r.folderId
  uid_inj : ∀ r∈idx.messages,∀ r'∈idx.messages,r.folderId=r'.folderId → r.uid=r'.uid → r=r'
  gone_le : ∀ v∈idx.vanished,v.modseq≤ idx.folderHighestModSeq v.folderId

/-- Messages stand, have a later sequence, or are in the ledger under one, which grows. -/
structure Tracked (fid : Nat) (idx idx' : IndexDB) : Prop where
  mono : idx.folderHighestModSeq fid≤ idx'.folderHighestModSeq fid
  live : ∀ r∈idx.messages,r.folderId=fid →
    (∃ r'∈idx'.messages,r'.folderId=fid ∧ r'.uid=r.uid ∧
      ((r'.flags=r.flags ∧ r'.modseq=r.modseq) ∨ idx.folderHighestModSeq fid< r'.modseq)) ∨
    ∃ v∈idx'.vanished,v.folderId=fid ∧ v.uid=r.uid ∧ idx.folderHighestModSeq fid<v.modseq
  new : ∀ r'∈idx'.messages,r'.folderId=fid →
    (∃ r∈idx.messages,r.folderId=fid ∧ r.uid=r'.uid ∧ r.flags=r'.flags ∧ r.modseq=r'.modseq) ∨
    idx.folderHighestModSeq fid< r'.modseq
  gone : ∀ v∈idx.vanished,v.folderId=fid →
    ∃ v'∈idx'.vanished,v'.folderId=fid ∧ v'.uid=v.uid ∧ v.modseq≤v'.modseq

variable {fid uid mid : Nat} {idx' : IndexDB} {flags : Flags} {r : IndexMessageRow}
  {mirror : List (Nat×Bool)}

theorem Tracked.refl (fid : Nat) (idx : IndexDB) : Tracked fid idx idx :=
  ⟨Nat.le_refl _,fun r hr hf => .inl ⟨r,hr,hf,rfl,.inl ⟨rfl,rfl⟩⟩,
    fun r hr hf => .inl ⟨r,hr,hf,rfl,rfl,rfl⟩,fun v hv hf => ⟨v,hv,hf,rfl,Nat.le_refl _⟩⟩

theorem Tracked.trans {a b c : IndexDB} (h : Tracked fid a b) (k : Tracked fid b c) :
    Tracked fid a c := by
  have hm := h.mono
  have km := k.mono
  refine ⟨by omega,?_,?_,?_⟩
  · intro r hr hf
    rcases h.live r hr hf with ⟨r',hr',hf',hu',hs'⟩ | ⟨v,hv,hvf,hvu,hvm⟩
    · rcases k.live r' hr' hf' with ⟨r'',hr'',hf'',hu'',hs''⟩ | ⟨v,hv,hvf,hvu,hvm⟩
      · refine .inl ⟨r'',hr'',hf'',hu''.trans hu',?_⟩
        rcases hs'' with ⟨hfl,hms⟩ | hlt
        · rw [hfl,hms]
          exact hs'
        · exact .inr (by omega)
      · exact .inr ⟨v,hv,hvf,hvu.trans hu',by omega⟩
    · obtain ⟨v',hv',hvf',hvu',hle⟩ := k.gone v hv hvf
      exact .inr ⟨v',hv',hvf',hvu'.trans hvu,by omega⟩
  · intro r'' hr'' hf''
    rcases k.new r'' hr'' hf'' with ⟨r',hr',hf',hu',hfl',hms'⟩ | hlt
    · rcases h.new r' hr' hf' with ⟨r,hr,hf,hu,hfl,hms⟩ | hlt
      · exact .inl ⟨r,hr,hf,hu.trans hu',hfl.trans hfl',hms.trans hms'⟩
      · exact .inr (by omega)
    · exact .inr (by omega)
  · intro v hv hf
    obtain ⟨v',hv',hf',hu',hle'⟩ := h.gone v hv hf
    obtain ⟨v'',hv'',hf'',hu'',hle''⟩ := k.gone v' hv' hf'
    exact ⟨v'',hv'',hf'',hu''.trans hu',by omega⟩

def Recorded (idx idx' : IndexDB) : Prop :=
  IndexInv idx → IndexInv idx' ∧ ∀ fid,Tracked fid idx idx'

theorem Recorded.refl (idx : IndexDB) : Recorded idx idx := fun h => ⟨h,fun fid => .refl fid idx⟩

theorem recorded_counters (hm : idx'.messages=idx.messages) (hv : idx'.vanished=idx.vanished)
    (hH : ∀ g,idx.folderHighestModSeq g≤ idx'.folderHighestModSeq g)
    (hU : ∀ g,idx.uidNext g≤ idx'.uidNext g) : Recorded idx idx' := by
  intro h
  refine ⟨⟨?_,?_,?_,?_⟩,fun fid => ⟨hH fid,?_,?_,?_⟩⟩
  · intro r hr
    have := h.uid_lt r (hm ▸ hr)
    have := hU r.folderId
    omega
  · intro r hr
    have := h.modseq_le r (hm ▸ hr)
    have := hH r.folderId
    omega
  · rw [hm]
    exact h.uid_inj
  · intro v hv'
    have := h.gone_le v (hv ▸ hv')
    have := hH v.folderId
    omega
  · intro r hr hf
    exact .inl ⟨r,hm ▸ hr,hf,rfl,.inl ⟨rfl,rfl⟩⟩
  · intro r hr hf
    exact .inl ⟨r,hm ▸ hr,hf,rfl,rfl,rfl⟩
  · intro v hv' hf
    exact ⟨v,hv ▸ hv',hf,rfl,Nat.le_refl _⟩

theorem Recorded.trans {a b c : IndexDB} (h : Recorded a b) (k : Recorded b c) : Recorded a c := by
  intro ha
  obtain ⟨hb,hab⟩ := h ha
  obtain ⟨hc,hbc⟩ := k hb
  exact ⟨hc,fun fid => (hab fid).trans (hbc fid)⟩

theorem recorded_insert {t : Table IndexMessageRow.messageId} (huid : uid=idx.uidNext fid)
    (hms : ms=idx.folderHighestModSeq fid+1) (hm : idx'.messages=idx.messages)
    (hv : idx'.vanished=idx.vanished)
    (hH : ∀ g,idx'.folderHighestModSeq g=if g=fid then ms else idx.folderHighestModSeq g)
    (hU : ∀ g,idx'.uidNext g=if g=fid then uid+1 else idx.uidNext g)
    (ht : ∀ r,r∈t ↔ r∈idx'.messages ∨ r=⟨mid,fid,uid,flags,ms⟩) :
    Recorded idx {idx' with messages:=t} := by
  intro h
  have hH' := IndexDB.le_of_bump (by omega) hH
  have hU' := IndexDB.le_of_bump (by omega) hU
  have hbase := (recorded_counters hm hv hH' hU' h).1
  have hmem : ∀ r,r∈t ↔ r∈idx.messages ∨ r=⟨mid,fid,uid,flags,ms⟩ := fun r => by rw [ht,hm]
  have hfresh : ∀ r∈idx.messages,r.folderId=fid → r.uid<uid := by
    intro r hr hf
    have := h.uid_lt r hr
    rw [hf] at this
    omega
  refine ⟨⟨?_,?_,?_,hbase.gone_le⟩,fun g => ⟨hH' g,?_,?_,?_⟩⟩
  · intro r hr
    rcases (hmem r).mp hr with hr | rfl
    · exact hbase.uid_lt r (hm ▸ hr)
    · show uid< idx'.uidNext fid
      rw [hU,if_pos rfl]
      omega
  · intro r hr
    rcases (hmem r).mp hr with hr | rfl
    · exact hbase.modseq_le r (hm ▸ hr)
    · show ms≤ idx'.folderHighestModSeq fid
      rw [hH,if_pos rfl]
  · intro r hr r' hr' hf hu
    rcases (hmem r).mp hr with hr | rfl <;> rcases (hmem r').mp hr' with hr' | rfl
    · exact h.uid_inj r hr r' hr' hf hu
    · have := hfresh r hr hf
      simp only at hu
      omega
    · have := hfresh r' hr' hf.symm
      simp only at hu
      omega
    · rfl
  · intro r hr hf
    exact .inl ⟨r,(hmem r).mpr (.inl hr),hf,rfl,.inl ⟨rfl,rfl⟩⟩
  · intro r hr hf
    rcases (hmem r).mp hr with hr | rfl
    · exact .inl ⟨r,hr,hf,rfl,rfl,rfl⟩
    · refine .inr ?_
      show _< ms
      rw [← show fid=g from hf]
      omega
  · intro v hv' hf
    exact ⟨v,hv ▸ hv',hf,rfl,Nat.le_refl _⟩

theorem indexMessage_recorded {obj : ObjDB}
    (h : idx.indexMessage obj fid mid flags=.ok (uid,idx')) : Recorded idx idx' := by
  obtain ⟨i₁,h₁,h⟩ := bind_eq_ok h
  obtain ⟨⟨u,i₂⟩,h₂,h⟩ := bind_eq_ok h
  obtain ⟨⟨ms,i₃⟩,h₃,h⟩ := bind_eq_ok h
  have he := IndexDB.ensureIndexFolder_ok h₁
  have hu := IndexDB.allocateUID_ok h₂
  have hn := IndexDB.nextModSeq_ok h₃
  simp only at h
  split at h
  · cases h
  rename_i t ht
  obtain ⟨rfl,rfl⟩ := h
  have hrows := (Table.insert_eq_some ht).2
  have hfirst := recorded_counters he.1 he.2.1 he.2.2.1 he.2.2.2
  refine hfirst.trans (recorded_insert hu.1 ?_ ?_ ?_ ?_ ?_ hrows)
  · rw [hn.1,hu.2.2.2.1]
  · rw [hn.2.1,hu.2.1]
  · rw [hn.2.2.1,hu.2.2.1]
  · intro g
    rw [hn.2.2.2.1,hu.2.2.2.1]
  · intro g
    rw [hn.2.2.2.2,hu.2.2.2.2]

theorem recorded_flags (hr : r∈idx.messages) (hn : idx.nextModSeq r.folderId=.ok (ms,idx')) :
    Recorded idx (idx'.updateMessage r.messageId
      (fun r => {r with flags:=flags,modseq:=ms}) fun _ => rfl) := by
  intro h
  obtain ⟨hms,hm,hv,hH,hU⟩ := IndexDB.nextModSeq_ok hn
  have hH' := IndexDB.le_of_bump (by omega) hH
  have hbase := (recorded_counters hm hv hH' (fun g => Nat.le_of_eq (hU g).symm) h).1
  have hmem : ∀ x,x∈(idx'.updateMessage r.messageId
      (fun r => {r with flags:=flags,modseq:=ms}) fun _ => rfl).messages ↔
      (x∈idx.messages ∧ x.messageId≠r.messageId) ∨ x={r with flags:=flags,modseq:=ms} := by
    intro x
    rw [IndexDB.mem_updateMessage,hm]
    constructor
    · intro ⟨y,hy,hx⟩
      split_ifs at hx with hid
      · rw [hx,Table.eq_of_key hy hr hid]
        exact .inr rfl
      · rw [hx]
        exact .inl ⟨hy,hid⟩
    · intro hx
      rcases hx with ⟨hx,hid⟩ | rfl
      · exact ⟨x,hx,by rw [if_neg hid]⟩
      · exact ⟨r,hr,by rw [if_pos rfl]⟩
  refine ⟨⟨?_,?_,?_,hbase.gone_le⟩,fun g => ⟨hH' g,?_,?_,?_⟩⟩
  · intro x hx
    rcases (hmem x).mp hx with ⟨hx,-⟩ | rfl
    · exact hbase.uid_lt x (hm ▸ hx)
    · exact hbase.uid_lt r (hm ▸ hr)
  · intro x hx
    rcases (hmem x).mp hx with ⟨hx,-⟩ | rfl
    · exact hbase.modseq_le x (hm ▸ hx)
    · show ms≤ idx'.folderHighestModSeq r.folderId
      rw [hH,if_pos rfl]
  · intro x hx y hy hf hu
    rcases (hmem x).mp hx with ⟨hx,hxi⟩ | rfl <;> rcases (hmem y).mp hy with ⟨hy,hyi⟩ | rfl
    · exact h.uid_inj x hx y hy hf hu
    · exact absurd (congrArg IndexMessageRow.messageId (h.uid_inj x hx r hr hf hu)) hxi
    · exact absurd (congrArg IndexMessageRow.messageId (h.uid_inj y hy r hr hf.symm hu.symm)) hyi
    · rfl
  · intro x hx hf
    by_cases hid : x.messageId=r.messageId
    · have hxr : x=r := Table.eq_of_key hx hr hid
      refine .inl ⟨_,(hmem _).mpr (.inr rfl),by rw [← hf,hxr],by rw [hxr],.inr ?_⟩
      show _< ms
      rw [← hf,hxr]
      omega
    · exact .inl ⟨x,(hmem x).mpr (.inl ⟨hx,hid⟩),hf,rfl,.inl ⟨rfl,rfl⟩⟩
  · intro x hx hf
    rcases (hmem x).mp hx with ⟨hx,-⟩ | rfl
    · exact .inl ⟨x,hx,hf,rfl,rfl,rfl⟩
    · refine .inr ?_
      show _< ms
      rw [← show r.folderId=g from hf]
      omega
  · intro v hv' hf
    exact ⟨v,hv ▸ hv',hf,rfl,Nat.le_refl _⟩

theorem vanishIndexRow_recorded (hr : r∈idx.messages) (h : idx.vanishIndexRow r=.ok idx') :
    Recorded idx idx' := by
  obtain ⟨⟨ms,i₁⟩,hn,he⟩ := bind_eq_ok h
  obtain rfl := Except.ok.inj he
  obtain ⟨hms,hm,hv,hH,hU⟩ := IndexDB.nextModSeq_ok hn
  intro h
  have hH' := IndexDB.le_of_bump (by omega) hH
  have hbase := (recorded_counters hm hv hH' (fun g => Nat.le_of_eq (hU g).symm) h).1
  have hmem : ∀ x,x∈(i₁.messages.deleteWhere fun x => x.messageId=r.messageId) ↔
      x∈idx.messages ∧ x.messageId≠r.messageId := by
    intro x
    rw [Table.mem_deleteWhere,hm,decide_eq_false_iff_not]
  refine ⟨⟨?_,?_,?_,?_⟩,fun g => ⟨hH' g,?_,?_,?_⟩⟩
  · intro x hx
    exact hbase.uid_lt x (hm ▸ ((hmem x).mp hx).1)
  · intro x hx
    exact hbase.modseq_le x (hm ▸ ((hmem x).mp hx).1)
  · intro x hx y hy hf hu
    exact h.uid_inj x ((hmem x).mp hx).1 y ((hmem y).mp hy).1 hf hu
  · intro v hv'
    rcases Table.mem_put.mp hv' with rfl | ⟨hv',-⟩
    · show ms≤ i₁.folderHighestModSeq r.folderId
      rw [hH,if_pos rfl]
    · exact hbase.gone_le v hv'
  · intro x hx hf
    by_cases hid : x.messageId=r.messageId
    · have hxr : x=r := Table.eq_of_key hx hr hid
      refine .inr ⟨⟨r.folderId,r.uid,ms⟩,Table.mem_put.mpr (.inl rfl),by rw [← hf,hxr],
        by rw [hxr],?_⟩
      show _< ms
      rw [← hf,hxr]
      omega
    · exact .inl ⟨x,(hmem x).mpr ⟨hx,hid⟩,hf,rfl,.inl ⟨rfl,rfl⟩⟩
  · intro x hx hf
    exact .inl ⟨x,((hmem x).mp hx).1,hf,rfl,rfl,rfl⟩
  · intro v hv' hf
    by_cases hk : v.key=(r.folderId,r.uid)
    · simp only [VanishedRow.key,Prod.mk.injEq] at hk
      refine ⟨⟨r.folderId,r.uid,ms⟩,Table.mem_put.mpr (.inl rfl),by rw [← hf,hk.1],hk.2.symm,?_⟩
      have hle := h.gone_le v hv'
      rw [hk.1] at hle
      show v.modseq≤ ms
      omega
    · exact ⟨v,Table.mem_put.mpr (.inr ⟨hv.symm ▸ hv',hk⟩),hf,rfl,Nat.le_refl _⟩

/-- The operations that write the index, and creations that do not. -/
inductive IndexStep where
  | createMessage (fid : Nat) (msg : MessageHead)
  | appendMessage (fid : Nat) (msg : MessageHead) (flags : Flags)
  | recoverMessage (fid mid : Nat)
  | recoverMessageTo (mid targetFID : Nat)
  | setMessageFlags (fid uid : Nat) (flags : Flags)
  | setMessageReadState (mid : Nat) (read : Bool)
  | importReadStateChanges (fid : Nat) (changes : List ReadStateChange)
  | softDeleteMessage (fid uid : Nat)
  | softDeleteObject (mid : Nat)
  | deleteMessage (fid uid : Nat)
  | deleteObject (mid : Nat)
  | moveMessage (src uid dst : Nat) (raw : Except StoreErr MessageHead)
  | moveMessageImport (srcFolderID srcMID destFolderID dstMID : Nat)

def Store.indexStep (s : Store) : IndexStep → Store
  | .createMessage fid msg => match s.objdb.createMessage fid msg with
    | .ok (_,obj) => {s with objdb:=obj}
    | .error _ => s
  | .appendMessage fid msg flags => (s.appendMessage fid msg flags).2
  | .recoverMessage fid mid => (s.recoverMessage fid mid).2
  | .recoverMessageTo mid targetFID => (s.recoverMessageTo mid targetFID).2
  | .setMessageFlags fid uid flags => (s.setMessageFlags fid uid flags).2
  | .setMessageReadState mid read => (s.setMessageReadState mid read).2
  | .importReadStateChanges fid changes => (s.importReadStateChanges fid changes).2
  | .softDeleteMessage fid uid => (s.softDeleteMessage fid uid).2
  | .softDeleteObject mid => (s.softDeleteObject mid).2
  | .deleteMessage fid uid => (s.deleteMessage fid uid).2
  | .deleteObject mid => (s.deleteObject mid).2
  | .moveMessage src uid dst raw => (s.moveMessage src uid dst raw).2
  | .moveMessageImport srcFolderID srcMID destFolderID dstMID =>
    (s.moveMessageImport srcFolderID srcMID destFolderID dstMID).2

def IndexDB.HasRead (idx : IndexDB) (mid : Nat) (read : Bool) : Prop :=
  ∀ r∈idx.messages,r.messageId=mid → decide (.seen∈r.flags)=read

/-- Writes without a modification sequence are refused or find nothing. -/
def Store.Traceable (s : Store) : IndexStep → Prop
  | .deleteMessage fid uid => s.idxdb.byUID fid uid=none
  | .deleteObject mid => (s.deleteObject mid).1.toBool=true → s.idxdb.messages.get mid=none
  | .moveMessage src uid dst raw => (s.moveMessage src uid dst raw).1.toBool=false
  | .moveMessageImport srcFID srcMID destFID dstMID =>
      (s.moveMessageImport srcFID srcMID destFID dstMID).1.toBool=true →
        s.idxdb.messages.get srcMID=none
  | .setMessageReadState mid read =>
      (s.setMessageReadState mid read).1.toBool=true → s.idxdb.HasRead mid read
  | .importReadStateChanges fid changes => ∀ cns mirror obj,
      Store.applyReadStateChanges fid changes s.objdb=.ok (cns,mirror,obj) →
        ∀ m∈mirror,s.idxdb.HasRead m.1 m.2
  | _ => True

theorem withSeen_eq {read : Bool} (h : decide (.seen∈flags)=read) : withSeen flags read=flags := by
  unfold withSeen
  cases read with
  | true | false => simpa using h

theorem mirrorRead_eq {read : Bool} (h : idx.HasRead mid read) :
    idx.mirrorRead mid read=idx := by
  have ht : idx.messages.updateWhere (fun r => r.messageId=mid)
      (fun r => {r with flags:=withSeen r.flags read}) (fun _ => rfl)=idx.messages := by
    apply Table.updateWhere_eq_self
    intro r hr hid
    rw [withSeen_eq (h r hr (by simpa using hid))]
  simp [IndexDB.mirrorRead,IndexDB.updateMessage,ht]

theorem dropRow_eq (h : idx.messages.get mid=none) : idx.dropRow mid=idx := by
  have ht : idx.messages.deleteWhere (fun r => r.messageId=mid)=idx.messages := by
    apply Table.deleteWhere_eq_self
    intro r hr
    simpa using Table.get_eq_none.mp h r hr
  simp [IndexDB.dropRow,ht]

theorem mirrorReadState_eq (h : ∀ m∈mirror,idx.HasRead m.1 m.2) :
    Store.mirrorReadState mirror idx=idx := by
  induction mirror with
  | nil => rfl
  | cons m ms ih =>
    have hm := mirrorRead_eq (h m List.mem_cons_self)
    rw [Store.mirrorReadState,List.foldl_cons,hm]
    exact ih fun x hx => h x (List.mem_cons_of_mem m hx)

theorem byUID_eq_some (h : idx.byUID fid uid=some r) :
    r∈idx.messages ∧ r.folderId=fid ∧ r.uid=uid := by
  have hp := List.find?_some h
  exact ⟨List.mem_of_find?_eq_some h,by simpa using hp⟩

/-- The flag says that it bears a modification sequence. -/
inductive IndexWrite : Bool → IndexDB → IndexDB → Prop
  | drop (idx : IndexDB) (mid : Nat) : IndexWrite false idx (idx.dropRow mid)
  | mirror (idx : IndexDB) (mid : Nat) (read : Bool) :
    IndexWrite false idx (idx.mirrorRead mid read)
  | index {idx idx' : IndexDB} {obj : ObjDB} {fid mid uid : Nat} {flags : Flags}
    (h : idx.indexMessage obj fid mid flags=.ok (uid,idx')) : IndexWrite true idx idx'
  | flags {idx idx' : IndexDB} {ms : Nat} {flags : Flags} {r : IndexMessageRow}
    (hr : r∈idx.messages) (hn : idx.nextModSeq r.folderId=.ok (ms,idx')) :
    IndexWrite true idx (idx'.updateMessage r.messageId
      (fun r => {r with flags:=flags,modseq:=ms}) fun _ => rfl)
  | vanish {idx idx' : IndexDB} {r : IndexMessageRow} (hr : r∈idx.messages)
    (h : idx.vanishIndexRow r=.ok idx') : IndexWrite true idx idx'

def IndexWrites (P : Prop) : IndexDB → IndexDB → Prop :=
  Relation.ReflTransGen fun a b => ∃ seq,IndexWrite seq a b ∧ (P → seq=true)

section Writes

variable {P : Prop} {idx : IndexDB} {s : Store}

theorem IndexWrite.writes {idx' : IndexDB} (h : IndexWrite true idx idx') :
    IndexWrites P idx idx' :=
  .single ⟨true,h,fun _ => rfl⟩

theorem dropRow_writes {mid : Nat} (h : P → idx.messages.get mid=none) :
    IndexWrites P idx (idx.dropRow mid) := by
  by_cases hP : P
  · rw [dropRow_eq (h hP)]
    exact .refl
  · exact .single ⟨false,.drop idx mid,fun h => absurd h hP⟩

theorem mirrorReadState_writes (h : P → ∀ m∈mirror,idx.HasRead m.1 m.2) :
    IndexWrites P idx (Store.mirrorReadState mirror idx) := by
  by_cases hP : P
  · rw [mirrorReadState_eq (h hP)]
    exact .refl
  · clear h
    induction mirror generalizing idx with
    | nil => exact .refl
    | cons m ms ih => exact .head ⟨false,.mirror idx m.1 m.2,fun h => absurd h hP⟩ ih

theorem appendMessage_writes (fid : Nat) (msg : MessageHead) (flags : Flags) :
    IndexWrites P s.idxdb (s.appendMessage fid msg flags).2.idxdb := by
  unfold Store.appendMessage
  simp only
  split
  · exact .refl
  · split
    · exact .refl
    · exact (IndexWrite.index (by assumption)).writes

theorem restoreMessageRow_writes (mid dest : Nat) (read : Bool) :
    IndexWrites P s.idxdb (s.restoreMessageRow mid dest read).2.idxdb := by
  unfold Store.restoreMessageRow
  split
  · exact .refl
  · split
    · exact .refl
    · exact (IndexWrite.index (by assumption)).writes

theorem softDeleteRow_writes (mid : Nat) :
    IndexWrites P s.idxdb (s.softDeleteRow mid).2.idxdb := by
  unfold Store.softDeleteRow
  split
  · exact .refl
  split
  · exact .refl
  rename_i idx hidx
  unfold IndexDB.recordVanishedAndDrop at hidx
  split at hidx
  · obtain rfl := Except.ok.inj hidx
    exact .refl
  · rename_i r hr
    exact (IndexWrite.vanish (Table.get_eq_some.mp hr).1 hidx).writes

theorem deleteMessage_writes {fid uid : Nat} (h : P → s.idxdb.byUID fid uid=none) :
    IndexWrites P s.idxdb (s.deleteMessage fid uid).2.idxdb := by
  unfold Store.deleteMessage
  split
  · exact .refl
  rename_i r hr
  apply dropRow_writes
  intro hP
  rw [h hP] at hr
  cases hr

theorem indexStep_writes (s : Store) (a : IndexStep) :
    IndexWrites (s.Traceable a) s.idxdb (s.indexStep a).idxdb := by
  cases a with
  | createMessage fid msg =>
    simp only [Store.indexStep]
    split <;> exact .refl
  | appendMessage fid msg flags => exact appendMessage_writes fid msg flags
  | recoverMessage fid mid =>
    simp only [Store.indexStep,Store.recoverMessage]
    split
    · exact .refl
    · split_ifs
      · exact .refl
      · exact restoreMessageRow_writes _ _ _
  | recoverMessageTo mid targetFID =>
    simp only [Store.indexStep,Store.recoverMessageTo]
    split
    · exact .refl
    · split_ifs
      · exact restoreMessageRow_writes _ _ _
      · exact .refl
  | setMessageFlags fid uid flags =>
    simp only [Store.indexStep,Store.setMessageFlags]
    split
    · exact .refl
    rename_i r hr
    obtain ⟨hmem,hf,-⟩ := byUID_eq_some hr
    split
    · exact .refl
    · rename_i ms idx hn
      rw [← hf] at hn
      exact (IndexWrite.flags hmem hn).writes
  | setMessageReadState mid read =>
    simp only [Store.indexStep,Store.setMessageReadState]
    split
    · exact .refl
    · rename_i obj hset
      refine mirrorReadState_writes fun h m (hm : m∈[(mid,read)]) => ?_
      rw [List.mem_singleton.mp hm]
      exact h (by simp [Store.setMessageReadState,hset,Except.toBool])
  | importReadStateChanges fid changes =>
    simp only [Store.indexStep,Store.importReadStateChanges]
    split
    · exact .refl
    · rename_i h
      exact mirrorReadState_writes fun ha => ha _ _ _ h
  | softDeleteMessage fid uid =>
    simp only [Store.indexStep,Store.softDeleteMessage]
    split
    · exact .refl
    · exact softDeleteRow_writes _
  | softDeleteObject mid =>
    simp only [Store.indexStep,Store.softDeleteObject]
    split
    · exact .refl
    · split_ifs
      · exact .refl
      · exact softDeleteRow_writes _
  | deleteMessage fid uid => exact deleteMessage_writes id
  | deleteObject mid =>
    simp only [Store.indexStep,Store.deleteObject]
    split
    · exact .refl
    · rename_i row hrow
      exact dropRow_writes fun h => h (by simp [Store.deleteObject,hrow,Except.toBool])
  | moveMessage src uid dst raw =>
    simp only [Store.indexStep,Store.moveMessage]
    split
    · exact .refl
    · exact .refl
    rename_i r msg hr
    have happend : ∀ {P},IndexWrites P s.idxdb (s.appendMessage dst msg r.flags).2.idxdb :=
      appendMessage_writes dst msg r.flags
    cases ha : s.appendMessage dst msg r.flags with
    | mk res s' =>
      rw [ha] at happend
      cases res with
      | error e => exact happend
      | ok new =>
        -- a move that gets here drops the source, unless it is gone
        have hdelete : IndexWrites (s.Traceable (.moveMessage src uid dst (.ok msg))) s'.idxdb
            (s'.deleteMessage src uid).2.idxdb := by
          apply deleteMessage_writes
          intro (hfailed : (s.moveMessage src uid dst (.ok msg)).1.toBool=false)
          cases hb : s'.idxdb.byUID src uid with
          | none => rfl
          | some r' =>
            simp [Store.moveMessage,hr,ha,Store.deleteMessage,hb,Except.toBool] at hfailed
        simp only
        split
        all_goals
          rename_i he
          rw [he] at hdelete
          exact happend.trans hdelete
  | moveMessageImport srcFolderID srcMID destFolderID dstMID =>
    simp only [Store.indexStep,Store.moveMessageImport]
    split
    · exact .refl
    · rename_i obj hok
      exact dropRow_writes fun h => h (by simp [Store.moveMessageImport,hok,Except.toBool])

theorem IndexWrites.recorded {idx' : IndexDB} (h : IndexWrites P idx idx') (hP : P) :
    Recorded idx idx' := by
  induction h with
  | refl => exact .refl idx
  | tail _ hw ih =>
    obtain ⟨seq,hw,hseq⟩ := hw
    obtain rfl := hseq hP
    refine ih.trans ?_
    cases hw with
    | index h => exact indexMessage_recorded h
    | flags hr hn => exact recorded_flags hr hn
    | vanish hr h => exact vanishIndexRow_recorded hr h

end Writes

theorem indexStep_recorded (s : Store) (a : IndexStep) (ha : s.Traceable a) :
    Recorded s.idxdb (s.indexStep a).idxdb :=
  (indexStep_writes s a).recorded ha

theorem indexInv_empty : IndexInv .empty := by
  constructor
  all_goals
    intro r hr
    exact absurd hr (Table.not_mem_empty r)

theorem messageFlags_eq_some (h : IndexInv idx) :
    idx.messageFlags fid uid=some flags ↔
      ∃ r∈idx.messages,r.folderId=fid ∧ r.uid=uid ∧ r.flags=flags := by
  unfold IndexDB.messageFlags
  constructor
  · intro hf
    obtain ⟨r,hr,rfl⟩ := Option.map_eq_some_iff.mp hf
    obtain ⟨hm,hfid,huid⟩ := byUID_eq_some hr
    exact ⟨r,hm,hfid,huid,rfl⟩
  · intro ⟨r,hr,hfid,huid,hfl⟩
    cases hb : idx.byUID fid uid with
    | none =>
      have hno := List.find?_eq_none.mp hb r hr
      simp [hfid,huid] at hno
    | some x =>
      obtain ⟨hx,hxf,hxu⟩ := byUID_eq_some hb
      rw [h.uid_inj x hx r hr (hxf.trans hfid.symm) (hxu.trans huid.symm),Option.map_some,hfl]

/-- In a traceable run the ledger and newer sequences tell every UID whose flags differ. -/
theorem condstore_complete (obj : ObjDB) (fid : Nat) (before after : List IndexStep)
    (h : Meets Store.indexStep Store.Traceable ⟨obj,.empty⟩ (before++after)) :
    let s := runSteps Store.indexStep ⟨obj,.empty⟩ before
    let s' := runSteps Store.indexStep s after
    let m := s.idxdb.folderHighestModSeq fid
    ∀ uid,s'.idxdb.messageFlags fid uid≠s.idxdb.messageFlags fid uid →
      uid∈s'.idxdb.vanishedSince fid m ∨ ∃ ms,(uid,ms)∈s'.idxdb.messageModSeqs fid ∧ m< ms := by
  intro s s' m uid hne
  obtain ⟨hb,ha⟩ := meets_append.mp h
  have hstep : ∀ (s : Store) a,IndexInv s.idxdb → s.Traceable a → IndexInv (s.indexStep a).idxdb :=
    fun s a hi hc => (indexStep_recorded s a hc hi).1
  have hs : IndexInv s.idxdb := hb.invariant hstep indexInv_empty
  have hs' : IndexInv s'.idxdb := ha.invariant hstep hs
  have ht : Tracked fid s.idxdb s'.idxdb :=
    ha.relation (R := fun a b : Store => Tracked fid a.idxdb b.idxdb)
      (fun s => .refl fid s.idxdb) (fun h k => h.trans k) hstep
      (fun s a hi hc => (indexStep_recorded s a hc hi).2 fid) hs
  have hnew : ∀ r∈s'.idxdb.messages,r.folderId=fid → m< r.modseq →
      ∃ ms,(r.uid,ms)∈s'.idxdb.messageModSeqs fid ∧ m< ms := by
    intro r hr hf hlt
    refine ⟨r.modseq,List.mem_map.mpr ⟨r,?_,rfl⟩,hlt⟩
    exact List.mem_filter.mpr ⟨hr,by simp [hf]⟩
  cases hold : s.idxdb.messageFlags fid uid with
  | some fl =>
    obtain ⟨r,hr,hf,hu,hfl⟩ := (messageFlags_eq_some hs).mp hold
    rcases ht.live r hr hf with ⟨r',hr',hf',hu',hsame | hlt⟩ | ⟨v,hv,hvf,hvu,hlt⟩
    · have hcur := (messageFlags_eq_some hs').mpr ⟨r',hr',hf',hu'.trans hu,hsame.1.trans hfl⟩
      exact absurd (hcur.trans hold.symm) hne
    · have huid : r'.uid=uid := hu'.trans hu
      exact .inr (huid ▸ hnew r' hr' hf' hlt)
    · left
      rw [IndexDB.vanishedSince,List.mem_insertionSort]
      refine List.mem_map.mpr ⟨v,?_,hvu.trans hu⟩
      exact List.mem_filter.mpr ⟨hv,by simpa [hvf] using hlt⟩
  | none =>
    cases hcur : s'.idxdb.messageFlags fid uid with
    | none => exact absurd (hcur.trans hold.symm) hne
    | some fl =>
      obtain ⟨r',hr',hf',hu',hfl'⟩ := (messageFlags_eq_some hs').mp hcur
      rcases ht.new r' hr' hf' with ⟨r,hr,hf,hu,hfl,-⟩ | hlt
      · have hrec := (messageFlags_eq_some hs).mpr ⟨r,hr,hf,hu.trans hu',hfl.trans hfl'⟩
        rw [hold] at hrec
        cases hrec
      · exact .inr (hu' ▸ hnew r' hr' hf' hlt)

def emptyInbox : Store := ⟨.ofFolders (.single ⟨13,none,1,false,0x10000,0x1FFFF,[]⟩),.empty⟩

theorem condstore_complete_expunge :
    let s' := runSteps Store.indexStep emptyInbox
      [.appendMessage 13 ⟨false,false,10⟩ ∅,.softDeleteMessage 13 1]
    s'.idxdb.messageFlags 13 1=none ∧
      (1∈s'.idxdb.vanishedSince 13 2 ∨ ∃ ms,(1,ms)∈s'.idxdb.messageModSeqs 13 ∧ 2< ms) :=
  ⟨by decide,condstore_complete emptyInbox.objdb 13 [.appendMessage 13 ⟨false,false,10⟩ ∅]
    [.softDeleteMessage 13 1] ⟨trivial,trivial,trivial⟩ 1 (by decide)⟩

/-- A hard delete leaves no trace: the client is told nothing. -/
theorem condstore_hard_delete_lost :
    let s := runSteps Store.indexStep emptyInbox [.appendMessage 13 ⟨false,false,10⟩ ∅]
    let s' := runSteps Store.indexStep s [.deleteMessage 13 1]
    s.idxdb.messageFlags 13 1=some ∅ ∧ s'.idxdb.messageFlags 13 1=none ∧
      s'.idxdb.vanishedSince 13 (s.idxdb.folderHighestModSeq 13)=[] ∧
      s'.idxdb.messageModSeqs 13=[] := by
  decide

end HermEX.Objectstore
