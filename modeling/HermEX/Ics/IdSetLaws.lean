import HermEX.Ics.IdSetWire

namespace HermEX.Ics

open Framework Mapi

namespace IDSet

inductive Change where
  | append (e : EID)
  | appendRange (replid : UInt16) (lo hi : Nat)
  | remove (e : EID)
  | concatenate (src : IDSet)

def change (s : IDSet) : Change → IDSet
  | .append e => (s.append e).getD s
  | .appendRange replid lo hi => (s.appendRange replid lo hi).getD s
  | .remove e => s.remove e
  | .concatenate src => (s.concatenate src).2

def Change.Fits : Change → Prop
  | .append e => e.gcValue<2^48
  | .appendRange _ lo hi => lo<2^48 ∧ hi<2^48
  | .remove e => e.gcValue<2^48
  | .concatenate src => ∀ n∈src.repls,∀ nd∈n.ranges.nodes,nd.lo<2^48 ∧ nd.hi<2^48

/-- One block for each replica, with canonical 48-bit ranges. -/
structure Neat (s : IDSet) : Prop where
  loose : s.form.packed=false
  distinct : (s.repls.map ReplNode.replid).Nodup
  canonical : ∀ n∈s.repls,RangeSet.Canonical n.ranges.nodes
  bound : ∀ n∈s.repls,∀ nd∈n.ranges.nodes,nd.hi<2^48

variable {s : IDSet}

theorem neat_new {form : Form} (h : form.packed=false) : (new form).Neat :=
  ⟨h,by simp [new],by simp [new],by simp [new]⟩

theorem insertRange_replid (replid : UInt16) (lo hi : Nat) (ns : List ReplNode) :
    (insertRange replid lo hi ns).map ReplNode.replid =
      if replid∈ns.map ReplNode.replid then ns.map ReplNode.replid
      else ns.map ReplNode.replid++[replid] := by
  induction ns with
  | nil => simp [insertRange]
  | cons n ns ih =>
    by_cases h : n.replid=replid
    · simp [insertRange,h]
    · have hne : ¬ replid=n.replid := fun heq => h heq.symm
      simp only [insertRange,if_neg h,List.map_cons,ih,List.mem_cons,hne,false_or]
      split_ifs <;> rfl

theorem mem_insertRange {replid : UInt16} {lo hi : Nat} {ns : List ReplNode} {n : ReplNode}
    (h : n∈insertRange replid lo hi ns) :
    n∈ns ∨ ∃ rs : RangeSet,n.ranges=rs.insert lo hi ∧ (rs=.empty ∨ ∃ m∈ns,m.ranges=rs) := by
  induction ns with
  | nil =>
    simp only [insertRange,List.mem_singleton] at h
    exact .inr ⟨.empty,by rw [h],.inl rfl⟩
  | cons m ns ih =>
    by_cases hm : m.replid=replid
    · simp only [insertRange,if_pos hm,List.mem_cons] at h
      rcases h with rfl | h
      · exact .inr ⟨m.ranges,rfl,.inr ⟨m,by simp,rfl⟩⟩
      · exact .inl (by simp [h])
    · simp only [insertRange,if_neg hm,List.mem_cons] at h
      rcases h with rfl | h
      · exact .inl (by simp)
      · rcases ih h with hold | ⟨rs,hrs,hsrc⟩
        · exact .inl (by simp [hold])
        · refine .inr ⟨rs,hrs,hsrc.imp_right ?_⟩
          rintro ⟨x,hx,hxr⟩
          exact ⟨x,by simp [hx],hxr⟩

theorem Neat.appendRange {s' : IDSet} (h : s.Neat) {replid : UInt16} {lo hi : Nat} (hhi : hi<2^48)
    (hs : s.appendRange replid lo hi=some s') : s'.Neat := by
  unfold IDSet.appendRange at hs
  split_ifs at hs with hbad
  cases hs
  have hle : lo≤hi := by
    by_contra hlt
    exact hbad (.inr (by omega))
  have hsource : ∀ n∈insertRange replid lo hi s.repls,
      RangeSet.Canonical n.ranges.nodes ∧ ∀ nd∈n.ranges.nodes,nd.hi<2^48 := by
    intro n hn
    rcases mem_insertRange hn with hold | ⟨rs,hrs,hsrc⟩
    · exact ⟨h.canonical n hold,h.bound n hold⟩
    · have hrsok : RangeSet.Canonical rs.nodes ∧ ∀ nd∈rs.nodes,nd.hi<2^48 := by
        rcases hsrc with rfl | ⟨m,hm,rfl⟩
        · exact ⟨RangeSet.canonical_nil,by simp [RangeSet.empty]⟩
        · exact ⟨h.canonical m hm,h.bound m hm⟩
      rw [hrs]
      exact ⟨RangeSet.canonical_insert hrsok.1 hle,RangeSet.insert_hi hrsok.2 hhi⟩
  refine ⟨h.loose,?_,fun n hn => (hsource n hn).1,fun n hn => (hsource n hn).2⟩
  rw [insertRange_replid]
  split_ifs with hin
  · exact h.distinct
  · exact List.nodup_append.mpr ⟨h.distinct,by simp,by
      rintro a ha b hb rfl
      exact hin (List.mem_singleton.mp hb ▸ ha)⟩

theorem removeFrom_replid (e : EID) (ns : List ReplNode) :
    (removeFrom e ns).map ReplNode.replid=ns.map ReplNode.replid := by
  induction ns with
  | nil => rfl
  | cons n ns ih =>
    by_cases h : n.replid=e.replID
    · simp [removeFrom,h]
    · simp [removeFrom,h,ih]

theorem mem_removeFrom {e : EID} {ns : List ReplNode} {n : ReplNode} (h : n∈removeFrom e ns) :
    n∈ns ∨ ∃ m∈ns,n.ranges=m.ranges.erase e.gcValue := by
  induction ns with
  | nil => simp [removeFrom] at h
  | cons m ns ih =>
    by_cases hm : m.replid=e.replID
    · simp only [removeFrom,if_pos hm,List.mem_cons] at h
      rcases h with rfl | h
      · exact .inr ⟨m,by simp,rfl⟩
      · exact .inl (by simp [h])
    · simp only [removeFrom,if_neg hm,List.mem_cons] at h
      rcases h with rfl | h
      · exact .inl (by simp)
      · rcases ih h with hold | ⟨x,hx,hxr⟩
        · exact .inl (by simp [hold])
        · exact .inr ⟨x,by simp [hx],hxr⟩

theorem Neat.remove (h : s.Neat) (e : EID) : (s.remove e).Neat := by
  unfold IDSet.remove
  split_ifs
  · exact h
  have hsource : ∀ n∈removeFrom e s.repls,
      RangeSet.Canonical n.ranges.nodes ∧ ∀ nd∈n.ranges.nodes,nd.hi<2^48 := by
    intro n hn
    rcases mem_removeFrom hn with hold | ⟨m,hm,hrs⟩
    · exact ⟨h.canonical n hold,h.bound n hold⟩
    · rw [hrs]
      exact ⟨RangeSet.canonical_erase (h.canonical m hm) _,
        RangeSet.erase_hi (h.canonical m hm) (h.bound m hm) _⟩
  exact ⟨h.loose,by rw [removeFrom_replid]; exact h.distinct,fun n hn => (hsource n hn).1,
    fun n hn => (hsource n hn).2⟩

theorem Neat.appendRanges {rs : List (UInt16×Nat×Nat)} (hrs : ∀ r∈rs,r.2.2<2^48)
    (h : s.Neat) : (IDSet.appendRanges rs s).2.Neat := by
  induction rs generalizing s with
  | nil => exact h
  | cons r rs ih =>
    simp only [List.mem_cons,forall_eq_or_imp] at hrs
    simp only [IDSet.appendRanges]
    cases hs : s.appendRange r.1 r.2.1 r.2.2 with
    | none => exact h
    | some s' => exact ih hrs.2 (h.appendRange hrs.1 hs)

theorem Neat.change (h : s.Neat) {c : Change} (hc : c.Fits) : (s.change c).Neat := by
  cases c with
  | append e =>
    simp only [IDSet.change,IDSet.append]
    cases hs : s.appendRange e.replID e.gcValue e.gcValue with
    | none => exact h
    | some s' => exact h.appendRange hc hs
  | appendRange replid lo hi =>
    simp only [IDSet.change]
    cases hs : s.appendRange replid lo hi with
    | none => exact h
    | some s' => exact h.appendRange hc.2 hs
  | remove e => exact h.remove e
  | concatenate src =>
    simp only [IDSet.change,concatenate]
    split_ifs
    · exact h
    apply Neat.appendRanges _ h
    intro r hr
    simp only [forEachRange,List.mem_flatMap,List.mem_map] at hr
    obtain ⟨n,hn,nd,hnd,rfl⟩ := hr
    exact (hc n hn nd hnd).2

theorem neat_of_changes {form : Form} (hloose : form.packed=false) (cs : List Change)
    (hcs : ∀ c∈cs,c.Fits) : (runSteps change (new form) cs).Neat := by
  generalize hstart : new form=s
  have hs : s.Neat := hstart ▸ neat_new hloose
  clear hstart
  induction cs generalizing s with
  | nil => exact hs
  | cons c cs ih =>
    simp only [List.mem_cons,forall_eq_or_imp] at hcs
    exact ih hcs.2 (s.change c) (hs.change hcs.1)

theorem change_form (s : IDSet) (c : Change) : (s.change c).form=s.form := by
  have happend : ∀ (s : IDSet) (replid : UInt16) (lo hi : Nat),
      ((s.appendRange replid lo hi).getD s).form=s.form := by
    intro s replid lo hi
    unfold IDSet.appendRange
    split_ifs <;> rfl
  have hranges : ∀ (rs : List (UInt16×Nat×Nat)) (s : IDSet),
      (IDSet.appendRanges rs s).2.form=s.form := by
    intro rs
    induction rs with
    | nil => exact fun s => rfl
    | cons r rs ih =>
      intro s
      have hone := happend s r.1 r.2.1 r.2.2
      simp only [IDSet.appendRanges]
      cases hs : s.appendRange r.1 r.2.1 r.2.2 with
      | none => rfl
      | some s' =>
        rw [hs,Option.getD_some] at hone
        exact (ih s').trans hone
  cases c with
  | append e => exact happend s e.replID e.gcValue e.gcValue
  | appendRange replid lo hi => exact happend s replid lo hi
  | remove e =>
    simp only [change,remove]
    split_ifs <;> rfl
  | concatenate src =>
    simp only [change,concatenate]
    split_ifs
    · rfl
    · exact hranges _ s

theorem form_of_changes (form : Form) (cs : List Change) :
    (runSteps change (new form) cs).form=form :=
  runSteps_invariant (I := fun s : IDSet => s.form=form)
    (fun s c hs => (change_form s c).trans hs) rfl cs

theorem rangesOf_blocks (s : IDSet) (replid : UInt16) : s.rangesOf replid =
    (((s.repls.map block).find? fun b => b.1=replid).map fun b => b.2.nodes).getD [] := by
  simp only [List.find?_map,Option.map_map]
  rfl

theorem rangesOf_filter (ns : List ReplNode) (hd : (ns.map ReplNode.replid).Nodup)
    (form : Form) (replid : UInt16) :
    (⟨form,ns.filter fun n => !n.ranges.isEmpty⟩ : IDSet).rangesOf replid =
      (⟨form,ns⟩ : IDSet).rangesOf replid := by
  induction ns with
  | nil => rfl
  | cons n ns ih =>
    obtain ⟨hnot,hd⟩ := List.nodup_cons.mp hd
    have hrest := ih hd
    simp only [rangesOf] at hrest ⊢
    by_cases hr : n.replid=replid
    · cases he : n.ranges.isEmpty with
      | false => simp [he,hr]
      | true =>
        have hnil : n.ranges.nodes=[] := by simpa [RangeSet.isEmpty] using he
        have hnone : ns.find? (fun n => n.replid=replid)=none := by
          rw [List.find?_eq_none]
          intro m hm
          simp only [decide_eq_true_eq]
          intro hmr
          exact hnot (hr.trans hmr.symm ▸ List.mem_map_of_mem hm)
        rw [hnone] at hrest
        simp [-List.find?_filter,he,hr,hnil,hrest]
    · cases he : n.ranges.isEmpty <;> simp [-List.find?_filter,he,hr,hrest]

theorem query_of_loose (h : s.form.packed=false) : s.form ≠ .guidPacked := by
  intro heq
  simp [heq,Form.packed] at h

theorem contains_rangesOf (h : s.form ≠ .guidPacked) (e : EID) :
    s.contains e=(⟨s.rangesOf e.replID⟩ : RangeSet).contains e.gcValue := by
  rw [contains,if_neg h,rangesOf]
  cases s.repls.find? fun n => n.replid=e.replID with
  | none => rfl
  | some n => rfl

/-- A set built here comes back with the same ranges. -/
theorem built_roundtrip (form : Form) (hloose : form.packed = false)
    (mapper : Option ReplicaMapper) (cs : List Change) (hcs : ∀ c ∈ cs,c.Fits)
    (hname : Resolvable mapper form (runSteps change (new form) cs).repls) :
    let s := runSteps change (new form) cs
    ∃ bytes packed s',s.serialize mapper = some bytes ∧
      deserialize form.pack bytes = some packed ∧ packed.convert mapper = some s' ∧
      s'.repls.map block = (s.repls.filter fun n => !n.ranges.isEmpty).map block ∧
      (∀ n ∈ s.repls,∀ rest,deserializeGlobset (serializeGlobset n.ranges ++ rest) =
        (n.ranges,(serializeGlobset n.ranges).length)) ∧
      (∀ replid,s'.rangesOf replid = s.rangesOf replid) ∧ ∀ e,s'.contains e = s.contains e := by
  intro s
  have hneat : s.Neat := neat_of_changes hloose cs hcs
  have hform : s.form=form := form_of_changes form cs
  have hfold : ∀ n∈s.repls,Foldable n.ranges.nodes := fun n hn =>
    foldable_of_canonical (hneat.canonical n hn) (hneat.bound n hn)
  have hresolve : Resolvable mapper s.form s.repls := by
    rw [hform]
    exact hname
  obtain ⟨bytes,packed,s',hbytes,hpacked,hconv,hform',hblocks⟩ := set_roundtrip hneat.loose hresolve
    fun n hn _ => hfold n hn
  have hranges : ∀ replid,s'.rangesOf replid=s.rangesOf replid := by
    intro replid
    rw [← rangesOf_filter s.repls hneat.distinct s.form replid,rangesOf_blocks,rangesOf_blocks,
      hblocks]
  have hquery := query_of_loose hneat.loose
  refine ⟨bytes,packed,s',hbytes,hform ▸ hpacked,hconv,hblocks,?_,hranges,?_⟩
  · intro n hn rest
    exact deserialize_serializeGlobset (hfold n hn) rest
  · intro e
    rw [contains_rangesOf hquery,contains_rangesOf (hform' ▸ hquery),hranges]

theorem built_roundtrip_removed :
    let cs : List Change := [.appendRange 1 5 9,.append ⟨1,0x0100⟩,.remove ⟨1,7⟩]
    ∃ bytes packed s',(runSteps change (new .guidLoose) cs).serialize
        (some (storeMapper .zero)) = some bytes ∧
      deserialize .guidPacked bytes = some packed ∧
      packed.convert (some (storeMapper .zero)) = some s' ∧
      ∀ e,s'.contains e = (runSteps change (new .guidLoose) cs).contains e := by
  intro cs
  obtain ⟨bytes,packed,s',hbytes,hpacked,hconv,-,-,-,hcontains⟩ := built_roundtrip .guidLoose rfl
    (some (storeMapper .zero)) cs
    (by simp [cs,Change.Fits])
    (fun _ => ⟨_,rfl,by
      intro n hn
      have hone : n.replid=1 := by
        revert n
        decide
      exact ⟨.zero,by simp [storeMapper,hone],by simp [storeMapper,hone]⟩⟩)
  exact ⟨bytes,packed,s',hbytes,hpacked,hconv,hcontains⟩

theorem mem_mapM {α β : Type} {f : α → Option β} {xs : List α} {ys : List β}
    (h : xs.mapM f=some ys) {y : β} (hy : y∈ys) : ∃ x∈xs,f x=some y := by
  induction xs generalizing ys with
  | nil =>
    obtain rfl : ys=[] := by simpa using h.symm
    simp at hy
  | cons x xs ih =>
    simp only [List.mapM_cons,Option.bind_eq_bind,Option.bind_eq_some_iff,Option.pure_def,
      Option.some.injEq] at h
    obtain ⟨b,hb,bs,hbs,rfl⟩ := h
    rcases List.mem_cons.mp hy with rfl | hy
    · exact ⟨x,by simp,hb⟩
    · obtain ⟨z,hz,hfz⟩ := ih hbs hy
      exact ⟨z,by simp [hz],hfz⟩

theorem convert_some {mapper : Option ReplicaMapper} {packed : IDSet}
    (h : packed.convert mapper=some s) :
    s.form.packed=false ∧ s.form.pack=packed.form ∧
      (∀ n∈s.repls,∃ p∈packed.repls,p.ranges=n.ranges) ∧
      (s.form=.guidLoose → ∃ m,mapper=some m ∧ ∀ n∈s.repls,∃ g,m.toID g=some n.replid) := by
  unfold convert at h
  split at h
  · rename_i hform
    cases h
    exact ⟨rfl,hform.symm,fun n hn => ⟨n,hn,rfl⟩,by simp⟩
  · rename_i hform
    obtain ⟨m,rfl,h⟩ := Option.bind_eq_some_iff.mp h
    obtain ⟨repls,hrepls,rfl⟩ := Option.map_eq_some_iff.mp h
    have hsource : ∀ n∈repls,∃ p∈packed.repls,m.toID p.replguid=some n.replid ∧
        p.ranges=n.ranges := by
      intro n hn
      obtain ⟨p,hp,hpn⟩ := mem_mapM hrepls hn
      obtain ⟨r,hr,rfl⟩ := Option.map_eq_some_iff.mp hpn
      exact ⟨p,hp,hr,rfl⟩
    refine ⟨rfl,hform.symm,?_,?_⟩
    · intro n hn
      obtain ⟨p,hp,-,hr⟩ := hsource n hn
      exact ⟨p,hp,hr⟩
    · intro _
      refine ⟨m,rfl,?_⟩
      intro n hn
      obtain ⟨p,-,hr,-⟩ := hsource n hn
      exact ⟨p.replguid,hr⟩
  · cases h

theorem holds_blocks (s : IDSet) (replid : UInt16) (v : Nat) :
    s.Holds replid v ↔ ∃ b∈s.repls.map block,b.1=replid ∧ b.2.contains v=true := by
  simp [Holds,block]

/-- A received set whose blocks fold comes back with the same values. -/
theorem received_roundtrip (mapper : Option ReplicaMapper)
    (hmapper : ∀ m,mapper = some m → ∀ g replid,m.toID g = some replid → m.Names replid)
    (form : Form) (data : Bytes) (packed s : IDSet) (hd : deserialize form data = some packed)
    (hc : packed.convert mapper = some s)
    (hf : ∀ n ∈ packed.repls,n.ranges.isEmpty = false → Foldable n.ranges.nodes) :
    ∃ bytes packed' s',s.serialize mapper = some bytes ∧
      deserialize form bytes = some packed' ∧ packed'.convert mapper = some s' ∧
      ∀ replid v,s'.Holds replid v ↔ s.Holds replid v := by
  obtain ⟨hloose,hform,hsource,hguid⟩ := convert_some hc
  have hpacked : packed.form=form := by
    obtain ⟨repls,-,rfl⟩ := Option.map_eq_some_iff.mp hd
    rfl
  have hname : Resolvable mapper s.form s.repls := by
    intro hg
    obtain ⟨m,hm,hids⟩ := hguid hg
    refine ⟨m,hm,?_⟩
    intro n hn
    obtain ⟨g,hg⟩ := hids n hn
    exact hmapper m hm g n.replid hg
  obtain ⟨bytes,packed',s',hbytes,hread,hconv,-,hblocks⟩ := set_roundtrip hloose hname (by
    intro n hn hne
    obtain ⟨p,hp,hr⟩ := hsource n hn
    exact hr ▸ hf p hp (hr ▸ hne))
  refine ⟨bytes,packed',s',hbytes,by rw [← hpacked,← hform]; exact hread,hconv,?_⟩
  intro replid v
  rw [holds_blocks,hblocks,← holds_blocks ⟨s.form,_⟩]
  -- A block without ranges holds nothing.
  constructor
  · rintro ⟨n,hn,hr,hv⟩
    exact ⟨n,List.mem_of_mem_filter hn,hr,hv⟩
  · rintro ⟨n,hn,hr,hv⟩
    have hne : n.ranges.isEmpty=false := by
      cases hnodes : n.ranges.nodes with
      | nil => simp [RangeSet.contains,hnodes] at hv
      | cons x xs => simp [RangeSet.isEmpty,hnodes]
    exact ⟨n,List.mem_filter.mpr ⟨hn,by simp [hne]⟩,hr,hv⟩

theorem storeMapper_names (home : GUID) :
    ∀ m,some (storeMapper home)=some m → ∀ g replid,m.toID g=some replid → m.Names replid := by
  intro m hm g replid hg
  cases hm
  simp only [storeMapper,Option.ite_none_right_eq_some,Option.some.injEq] at hg
  obtain ⟨rfl,rfl⟩ := hg
  exact ⟨g,by simp [storeMapper],by simp [storeMapper]⟩

/-- A range behind a larger value. -/
theorem received_roundtrip_descending :
    let mapper := some (storeMapper .zero)
    let data : Bytes := GUID.zero.flat ++ [0x06,0,0,0,0,2,0,0x52,0,0,0,0,0,7,0,0,0,0,0,9,0]
    let s : IDSet := ⟨.guidLoose,[⟨1,.zero,⟨[⟨0x200,0x200⟩,⟨7,9⟩]⟩⟩]⟩
    ∃ bytes packed' s',s.serialize mapper = some bytes ∧
      deserialize .guidPacked bytes = some packed' ∧ packed'.convert mapper = some s' ∧
      deserialize .guidPacked data = some ⟨.guidPacked,[⟨0,.zero,⟨[⟨0x200,0x200⟩,⟨7,9⟩]⟩⟩]⟩ ∧
      ∀ replid v,s'.Holds replid v ↔ s.Holds replid v := by
  intro mapper data s
  have hread : deserialize .guidPacked data =
      some ⟨.guidPacked,[⟨0,.zero,⟨[⟨0x200,0x200⟩,⟨7,9⟩]⟩⟩]⟩ := by decide
  have hfold : Foldable [⟨0x200,0x200⟩,⟨7,9⟩] := by
    refine ⟨by decide,?_,?_⟩
    all_goals
      intro nd x rest h
      obtain ⟨rfl,rfl,rfl⟩ := h
      decide
  obtain ⟨bytes,packed',s',hbytes,hpacked,hconv,hsame⟩ := received_roundtrip mapper
    (storeMapper_names .zero) .guidPacked data _ s hread rfl (by
      intro n hn _
      rw [List.mem_singleton.mp hn]
      exact hfold)
  exact ⟨bytes,packed',s',hbytes,hpacked,hconv,hread,hsame⟩

/-- Of three values the outer two share bytes that the middle one lacks. -/
theorem received_loses_value :
    let mapper := some (storeMapper .zero)
    let data : Bytes := GUID.zero.flat ++
      [0x06,0,0,0,0,0,5,0x06,0,0,0,0,1,0,0x06,0,0,0,0,0,6,0]
    ∃ packed s bytes packed' s',deserialize .guidPacked data = some packed ∧
      packed.convert mapper = some s ∧ s.serialize mapper = some bytes ∧
      deserialize .guidPacked bytes = some packed' ∧ packed'.convert mapper = some s' ∧
      s.contains ⟨1,0x100⟩ = true ∧ s'.contains ⟨1,0x100⟩ = false ∧
      s.contains ⟨1,0⟩ = false ∧ s'.contains ⟨1,0⟩ = true := by
  refine ⟨⟨.guidPacked,[⟨0,.zero,⟨[⟨5,5⟩,⟨0x100,0x100⟩,⟨6,6⟩]⟩⟩]⟩,
    ⟨.guidLoose,[⟨1,.zero,⟨[⟨5,5⟩,⟨0x100,0x100⟩,⟨6,6⟩]⟩⟩]⟩,
    GUID.zero.flat++[5,0,0,0,0,0,1,5,1,0,1,6,0x50,0],
    ⟨.guidPacked,[⟨0,.zero,⟨[⟨5,5⟩,⟨0,0⟩,⟨6,6⟩]⟩⟩]⟩,
    ⟨.guidLoose,[⟨1,.zero,⟨[⟨5,5⟩,⟨0,0⟩,⟨6,6⟩]⟩⟩]⟩,?_⟩
  decide

/-- What a later block of the replica has, the first has. -/
def FirstHas (s : IDSet) (e : EID) : Prop :=
  ∀ n ns,s.repls.filter (fun n => n.replid=e.replID)=n::ns →
    (∃ m∈ns,m.ranges.contains e.gcValue=true) → n.ranges.contains e.gcValue=true

/-- Membership looks at the first block, the enumeration at all. -/
theorem contains_iff_visited (mapper : Option ReplicaMapper) (packed s : IDSet)
    (hc : packed.convert mapper = some s) (e : EID) :
    (s.contains e = true ↔ ∃ x ∈ s.forEachRange,
      x.1 = e.replID ∧ x.2.1 ≤ e.gcValue ∧ e.gcValue ≤ x.2.2) ↔ s.FirstHas e := by
  have hquery := query_of_loose (convert_some hc).1
  have hvisit : (∃ x∈s.forEachRange,x.1=e.replID ∧ x.2.1≤e.gcValue ∧ e.gcValue≤x.2.2) ↔
      ∃ m∈s.repls.filter (fun n => n.replid=e.replID),m.ranges.contains e.gcValue=true := by
    simp only [forEachRange,List.mem_flatMap,List.mem_map,List.mem_filter,RangeSet.contains_iff,decide_eq_true_eq]
    constructor
    · rintro ⟨x,⟨n,hn,nd,hnd,rfl⟩,hr,hlo,hhi⟩
      exact ⟨n,⟨hn,hr⟩,nd,hnd,hlo,hhi⟩
    · rintro ⟨n,⟨hn,hr⟩,nd,hnd,hlo,hhi⟩
      exact ⟨_,⟨n,hn,nd,hnd,rfl⟩,hr,hlo,hhi⟩
  have hcontains : s.contains e=true ↔
      ∃ n∈(s.repls.filter fun n => n.replid=e.replID).head?,n.ranges.contains e.gcValue=true := by
    rw [contains,if_neg hquery,List.head?_filter]
    cases s.repls.find? fun n => n.replid=e.replID with
    | none => simp
    | some n => simp
  rw [hvisit,hcontains,FirstHas]
  cases s.repls.filter fun n => n.replid=e.replID with
  | nil => simp
  | cons n ns =>
    simp only [List.head?_cons,Option.mem_def,Option.some.injEq,exists_eq_left',List.mem_cons,
      exists_eq_or_imp,List.cons.injEq,and_imp]
    constructor
    · rintro h n' ns' rfl rfl hlater
      exact h.mpr (.inr hlater)
    · intro h
      exact ⟨.inl,fun hv => hv.elim id (h n ns rfl rfl)⟩

/-- Two blocks, with the second's value in the first, too. -/
theorem contains_iff_visited_two_blocks :
    let data : Bytes := GUID.zero.flat ++ [0x52,0,0,0,0,0,5,0,0,0,0,0,9,0] ++
      (GUID.zero.flat ++ [0x06,0,0,0,0,0,7,0])
    let packed : IDSet := ⟨.guidPacked,[⟨0,.zero,⟨[⟨5,9⟩]⟩⟩,⟨0,.zero,⟨[⟨7,7⟩]⟩⟩]⟩
    let s : IDSet := ⟨.guidLoose,[⟨1,.zero,⟨[⟨5,9⟩]⟩⟩,⟨1,.zero,⟨[⟨7,7⟩]⟩⟩]⟩
    deserialize .guidPacked data = some packed ∧ packed.convert (some (storeMapper .zero)) = some s ∧
      (s.contains ⟨1,7⟩ = true ↔ ∃ x ∈ s.forEachRange,x.1 = 1 ∧ x.2.1 ≤ 7 ∧ 7 ≤ x.2.2) := by
  intro data packed s
  have hconvert : packed.convert (some (storeMapper .zero))=some s := by decide
  refine ⟨by decide,hconvert,
    (contains_iff_visited (some (storeMapper .zero)) packed s hconvert ⟨1,7⟩).mpr ?_⟩
  intro n ns h _
  have hblocks : s.repls.filter (fun n => n.replid=1) =
      [⟨1,.zero,⟨[⟨5,9⟩]⟩⟩,⟨1,.zero,⟨[⟨7,7⟩]⟩⟩] := by decide
  obtain ⟨rfl,-⟩ := List.cons.inj (hblocks.symm.trans h)
  decide

/-- Two blocks: the second's value is enumerated and not found. -/
theorem visited_not_contained :
    let mapper := some (storeMapper .zero)
    let data : Bytes := GUID.zero.flat ++ [0x06,0,0,0,0,0,5,0] ++
      (GUID.zero.flat ++ [0x06,0,0,0,0,0,7,0])
    ∃ packed s,deserialize .guidPacked data = some packed ∧ packed.convert mapper = some s ∧
      s.contains ⟨1,7⟩ = false ∧ s.forEachRange = [(1,5,5),(1,7,7)] := by
  refine ⟨⟨.guidPacked,[⟨0,.zero,⟨[⟨5,5⟩]⟩⟩,⟨0,.zero,⟨[⟨7,7⟩]⟩⟩]⟩,
    ⟨.guidLoose,[⟨1,.zero,⟨[⟨5,5⟩]⟩⟩,⟨1,.zero,⟨[⟨7,7⟩]⟩⟩]⟩,?_⟩
  decide

end IDSet
end HermEX.Ics
