import HermEX.Objectstore.Folder
import HermEX.Objectstore.ModSeq

namespace HermEX.Objectstore

open Framework

/-- UIDs are below the counter and distinct. -/
structure UidInv (idx : IndexDB) : Prop where
  lt : ∀ r∈idx.messages,r.uid< idx.uidNext r.folderId
  inj : ∀ r∈idx.messages,∀ r'∈idx.messages,r.folderId=r'.folderId → r.uid=r'.uid → r=r'

/-- UIDs are given from the counter up, none twice. -/
structure UidStep (idx idx' : IndexDB) : Prop where
  inv : UidInv idx → UidInv idx'
  next : ∀ g,idx.uidNext g≤ idx'.uidNext g
  rows : ∀ r'∈idx'.messages,(∃ r∈idx.messages,r.folderId=r'.folderId ∧ r.uid=r'.uid) ∨
    idx.uidNext r'.folderId≤ r'.uid

variable {idx idx' : IndexDB} {r : IndexMessageRow} {fid : Nat} {s : Store}

theorem UidStep.refl (idx : IndexDB) : UidStep idx idx :=
  ⟨id,fun _ => Nat.le_refl _,fun r hr => .inl ⟨r,hr,rfl,rfl⟩⟩

theorem UidStep.trans {a b c : IndexDB} (h : UidStep a b) (k : UidStep b c) : UidStep a c := by
  refine ⟨fun ha => k.inv (h.inv ha),fun g => (h.next g).trans (k.next g),?_⟩
  intro r hr
  rcases k.rows r hr with ⟨r₁,hr₁,hf,hu⟩ | hn
  · rcases h.rows r₁ hr₁ with ⟨r₀,hr₀,hf₀,hu₀⟩ | hn
    · exact .inl ⟨r₀,hr₀,hf₀.trans hf,hu₀.trans hu⟩
    · exact .inr (by rw [← hf,← hu]; exact hn)
  · exact .inr ((h.next _).trans hn)

theorem uidStep_shrink (hU : ∀ g,idx.uidNext g≤ idx'.uidNext g)
    (hm : ∀ r'∈idx'.messages,∃ r∈idx.messages,r.messageId=r'.messageId ∧
      r.folderId=r'.folderId ∧ r.uid=r'.uid) : UidStep idx idx' := by
  refine ⟨fun h => ⟨?_,?_⟩,hU,?_⟩
  · intro r' hr'
    obtain ⟨r,hr,-,hf,hu⟩ := hm r' hr'
    have hlt := h.lt r hr
    rw [hf,hu] at hlt
    exact Nat.lt_of_lt_of_le hlt (hU _)
  · intro x hx y hy hf hu
    obtain ⟨x₀,hx₀,hix,hfx,hux⟩ := hm x hx
    obtain ⟨y₀,hy₀,hiy,hfy,huy⟩ := hm y hy
    have he := h.inj x₀ hx₀ y₀ hy₀ (hfx.trans (hf.trans hfy.symm)) (hux.trans (hu.trans huy.symm))
    exact Table.eq_of_key hx hy (hix.symm.trans (he ▸ hiy))
  · intro r' hr'
    obtain ⟨r,hr,-,hf,hu⟩ := hm r' hr'
    exact .inl ⟨r,hr,hf,hu⟩

theorem uidStep_counters (hm : idx'.messages=idx.messages) (hU : ∀ g,idx.uidNext g≤ idx'.uidNext g) :
    UidStep idx idx' :=
  uidStep_shrink hU fun r hr => ⟨r,hm ▸ hr,rfl,rfl,rfl⟩

theorem dropRow_uidStep (idx : IndexDB) (mid : Nat) : UidStep idx (idx.dropRow mid) :=
  uidStep_shrink (fun _ => Nat.le_refl _)
    fun r hr => ⟨r,(Table.mem_deleteWhere.mp hr).1,rfl,rfl,rfl⟩

theorem mirrorRead_uidStep (idx : IndexDB) (mid : Nat) (read : Bool) :
    UidStep idx (idx.mirrorRead mid read) := by
  refine uidStep_shrink (fun _ => Nat.le_refl _) ?_
  intro r' hr'
  obtain ⟨r,hr,rfl⟩ := IndexDB.mem_updateMessage.mp hr'
  refine ⟨r,hr,?_⟩
  split_ifs <;> exact ⟨rfl,rfl,rfl⟩

theorem vanishIndexRow_rows (h : idx.vanishIndexRow r=.ok idx') (x : IndexMessageRow) :
    x∈idx'.messages ↔ x∈idx.messages ∧ x.messageId≠r.messageId := by
  obtain ⟨⟨ms,i₁⟩,hn,he⟩ := bind_eq_ok h
  obtain rfl := Except.ok.inj he
  obtain ⟨-,hm,-⟩ := IndexDB.nextModSeq_ok hn
  simp [IndexDB.dropRow,hm]

theorem vanishIndexRow_uidStep (h : idx.vanishIndexRow r=.ok idx') : UidStep idx idx' := by
  obtain ⟨⟨ms,i₁⟩,hn,he⟩ := bind_eq_ok h
  obtain ⟨-,-,-,-,hU⟩ := IndexDB.nextModSeq_ok hn
  refine uidStep_shrink (fun g => ?_) fun x hx => ⟨x,((vanishIndexRow_rows h x).mp hx).1,rfl,rfl,rfl⟩
  obtain rfl := Except.ok.inj he
  exact Nat.le_of_eq (hU g).symm

theorem indexMessage_uidStep {obj : ObjDB} {mid uid : Nat} {flags : Flags}
    (h : idx.indexMessage obj fid mid flags=.ok (uid,idx')) : UidStep idx idx' := by
  obtain ⟨i₁,h₁,h⟩ := bind_eq_ok h
  obtain ⟨⟨u,i₂⟩,h₂,h⟩ := bind_eq_ok h
  obtain ⟨⟨ms,i₃⟩,h₃,h⟩ := bind_eq_ok h
  obtain ⟨hm₁,-,-,hU₁⟩ := IndexDB.ensureIndexFolder_ok h₁
  obtain ⟨hu,hm₂,-,-,hU₂⟩ := IndexDB.allocateUID_ok h₂
  obtain ⟨-,hm₃,-,-,hU₃⟩ := IndexDB.nextModSeq_ok h₃
  simp only at h
  split at h
  · cases h
  rename_i t ht
  obtain ⟨-,rfl⟩ := Prod.mk.inj (Except.ok.inj h)
  have hrows : ∀ r,r∈t ↔ r∈i₁.messages ∨ r=⟨mid,fid,u,flags,ms⟩ := by
    intro r
    rw [(Table.insert_eq_some ht).2,hm₃,hm₂]
  have hnext : ∀ g,i₃.uidNext g=if g=fid then u+1 else i₁.uidNext g := by
    intro g
    rw [hU₃,hU₂]
  have hup : ∀ g,i₁.uidNext g≤ i₃.uidNext g := IndexDB.le_of_bump (by omega) hnext
  refine (uidStep_counters hm₁ hU₁).trans ⟨fun hinv => ⟨?_,?_⟩,hup,?_⟩
  · intro r hr
    rcases (hrows r).mp hr with hr | rfl
    · exact Nat.lt_of_lt_of_le (hinv.lt r hr) (hup _)
    · show u< i₃.uidNext fid
      rw [hnext,if_pos rfl]
      exact Nat.lt_succ_self u
  · have hfresh : ∀ r∈i₁.messages,r.folderId=fid → r.uid≠u := by
      intro r hr hf he
      have hlt := hinv.lt r hr
      rw [hf] at hlt
      omega
    intro x hx y hy hf hxy
    rcases (hrows x).mp hx with hx | rfl <;> rcases (hrows y).mp hy with hy | rfl
    · exact hinv.inj x hx y hy hf hxy
    · exact absurd hxy (hfresh x hx hf)
    · exact absurd hxy.symm (hfresh y hy hf.symm)
    · rfl
  · intro r hr
    rcases (hrows r).mp hr with hr | rfl
    · exact .inl ⟨r,hr,rfl,rfl⟩
    · exact .inr (Nat.le_of_eq hu.symm)

theorem updateFlags_uidStep {ms : Nat} (flags : Flags)
    (hn : idx.nextModSeq r.folderId=.ok (ms,idx')) :
    UidStep idx (idx'.updateMessage r.messageId
      (fun r => {r with flags:=flags,modseq:=ms}) fun _ => rfl) := by
  obtain ⟨-,hm,-,-,hU⟩ := IndexDB.nextModSeq_ok hn
  refine uidStep_shrink (fun g => Nat.le_of_eq (hU g).symm) ?_
  intro x hx
  obtain ⟨y,hy,rfl⟩ := IndexDB.mem_updateMessage.mp hx
  refine ⟨y,hm ▸ hy,?_⟩
  split_ifs <;> exact ⟨rfl,rfl,rfl⟩

theorem IndexWrites.uidStep {P : Prop} (h : IndexWrites P idx idx') : UidStep idx idx' := by
  induction h with
  | refl => exact .refl idx
  | tail _ hw ih =>
    obtain ⟨seq,hw,-⟩ := hw
    refine ih.trans ?_
    cases hw with
    | drop => exact dropRow_uidStep _ _
    | mirror => exact mirrorRead_uidStep _ _ _
    | index h => exact indexMessage_uidStep h
    | flags _ hn => exact updateFlags_uidStep _ hn
    | vanish _ h => exact vanishIndexRow_uidStep h

theorem indexStep_uidStep (s : Store) (a : IndexStep) : UidStep s.idxdb (s.indexStep a).idxdb :=
  (indexStep_writes s a).uidStep

theorem uidInv_empty : UidInv .empty := by
  constructor
  all_goals
    intro r hr
    exact absurd hr (Table.not_mem_empty r)

theorem runSteps_uidInv (obj : ObjDB) (before : List IndexStep) :
    UidInv (runSteps Store.indexStep ⟨obj,.empty⟩ before).idxdb :=
  runSteps_invariant (I := fun s : Store => UidInv s.idxdb)
    (fun s a h => (indexStep_uidStep s a).inv h) uidInv_empty before

theorem listMessages_sorted (h : UidInv s.idxdb) (fid : Nat) :
    ((s.listMessages fid).map IndexMessageRow.uid).Pairwise (·<·) := by
  have hle : (s.listMessages fid).Pairwise fun a b => a.uid≤b.uid := by
    apply List.pairwise_insertionSort
  have hnd : (s.listMessages fid).Nodup := by
    have hrows : s.idxdb.messages.rows.Nodup := List.Nodup.of_map _ s.idxdb.messages.unique
    exact (List.perm_insertionSort _ _).nodup_iff.mpr (hrows.filter _)
  have hmem : ∀ r∈s.listMessages fid,r∈s.idxdb.messages ∧ r.folderId=fid := by
    simp [Store.listMessages,Table.mem_rows]
  rw [List.pairwise_map]
  apply (hle.and hnd).imp_of_mem
  intro a b ha hb hab
  obtain ⟨ha,hfa⟩ := hmem a ha
  obtain ⟨hb,hfb⟩ := hmem b hb
  apply Nat.lt_of_le_of_ne hab.1
  intro he
  exact hab.2 (h.inj a ha b hb (hfa.trans hfb.symm) he)

theorem mem_listMessages : r∈s.listMessages fid ↔ r∈s.idxdb.messages ∧ r.folderId=fid := by
  simp [Store.listMessages,Table.mem_rows]

theorem byUID_of_mem (h : UidInv idx) (hr : r∈idx.messages) :
    idx.byUID r.folderId r.uid=some r := by
  cases hfind : idx.byUID r.folderId r.uid with
  | none =>
    have hnone := List.find?_eq_none.mp hfind r hr
    simp at hnone
  | some x =>
    obtain ⟨hx,hf,hu⟩ := byUID_eq_some hfind
    rw [h.inj x hx r hr hf hu]

theorem UidInv.folder (h : UidInv idx) (hr : r∈idx.messages) :
    ∃ f,idx.folders.get r.folderId=some f := by
  have hlt := h.lt r hr
  unfold IndexDB.uidNext at hlt
  split at hlt
  · cases hlt
  · exact ⟨_,by assumption⟩

theorem setMessageFlags_stored {uid : Nat} {flags : Flags} (h : UidInv s.idxdb)
    (hs : s.idxdb.messageFlags fid uid=some flags) (newFlags : Flags) :
    ∃ s',s.setMessageFlags fid uid newFlags=(.ok (),s') ∧
      s'.idxdb.messageFlags fid uid=some newFlags := by
  obtain ⟨r,hr,-⟩ := Option.map_eq_some_iff.mp hs
  obtain ⟨hmem,rfl,rfl⟩ := byUID_eq_some hr
  obtain ⟨f,hf⟩ := h.folder hmem
  have hstep : UidStep s.idxdb (s.setMessageFlags r.folderId r.uid newFlags).2.idxdb :=
    indexStep_uidStep s (.setMessageFlags r.folderId r.uid newFlags)
  cases hset : s.setMessageFlags r.folderId r.uid newFlags with
  | mk res s' =>
  rw [hset] at hstep
  have hset' := hset
  simp only [Store.setMessageFlags,hr,IndexDB.nextModSeq,hf] at hset'
  obtain ⟨rfl,rfl⟩ := hset'
  refine ⟨_,rfl,?_⟩
  have hnew := byUID_of_mem (hstep.inv h) (IndexDB.mem_updateMessage.mpr ⟨r,hmem,rfl⟩)
  simp only [if_true] at hnew
  rw [IndexDB.messageFlags,hnew]
  rfl

/-- A later listing ascends, with nothing new below an earlier UIDNEXT. -/
theorem listing_grows_above (obj : ObjDB) (before after : List IndexStep) (fid : Nat) :
    let s := runSteps Store.indexStep ⟨obj,.empty⟩ before
    let uids (s : Store) := (s.listMessages fid).map IndexMessageRow.uid
    let later := uids (runSteps Store.indexStep s after)
    later.Pairwise (·<·) ∧ (later.filter (·< s.idxdb.uidNext fid)).Sublist (uids s) := by
  intro s uids later
  have hs : UidInv s.idxdb := runSteps_uidInv obj before
  have hstep : UidStep s.idxdb (runSteps Store.indexStep s after).idxdb :=
    runSteps_invariant (I := fun t : Store => UidStep s.idxdb t.idxdb)
      (fun t a h => h.trans (indexStep_uidStep t a)) (.refl _) after
  have hlater : later.Pairwise (·<·) := listMessages_sorted (hstep.inv hs) fid
  have hkept := hlater.filter (·< s.idxdb.uidNext fid)
  refine ⟨hlater,List.sublist_of_subperm_of_pairwise ?_ hkept (listMessages_sorted hs fid)⟩
  refine List.subperm_of_subset (hkept.imp Nat.ne_of_lt) ?_
  intro u hu
  obtain ⟨hu,hlt⟩ := List.mem_filter.mp hu
  obtain ⟨r,hr,rfl⟩ := List.mem_map.mp hu
  obtain ⟨hmem,rfl⟩ := mem_listMessages.mp hr
  rcases hstep.rows r hmem with ⟨x,hx,hf,hxu⟩ | hn
  · exact List.mem_map.mpr ⟨x,mem_listMessages.mpr ⟨hx,hf⟩,hxu⟩
  · exact absurd (of_decide_eq_true hlt) (Nat.not_lt.mpr hn)

end HermEX.Objectstore
