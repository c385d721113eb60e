import HermEX.Ics.IdSetLaws
import HermEX.Ics.Producer

namespace HermEX.Ics

open Framework Mapi

inductive StateType where
  | contentsDown
  | contentsUp
  | hierarchyDown
  | hierarchyUp
deriving DecidableEq

def StateType.isUp : StateType → Bool
  | .contentsUp | .hierarchyUp => true
  | .contentsDown | .hierarchyDown => false

/-- The id sets exchanged; a type has only some of them. -/
structure State where
  typ : StateType
  given : Option IDSet
  seen : Option IDSet
  seenFAI : Option IDSet
  read : Option IDSet

namespace State

def new (typ : StateType) : State :=
  let set := some (IDSet.new .guidLoose)
  match typ with
  | .contentsDown | .contentsUp => ⟨typ,set,set,set,set⟩
  | .hierarchyDown => ⟨typ,set,set,none,none⟩
  | .hierarchyUp => ⟨typ,none,set,none,none⟩

def decodeSet (mapper : Option ReplicaMapper) (serialized : Bytes) : Option IDSet :=
  (IDSet.deserialize .guidPacked serialized).bind fun set => set.convert mapper

def mergeUp (typ : StateType) (prior : Option IDSet) (incoming : IDSet) : IDSet :=
  match prior with
  | none => incoming
  | some prior => if typ.isUp && !prior.isEmpty then (incoming.concatenate prior).2 else incoming

def appendIDSet (mapper : Option ReplicaMapper) (s : State) (metaTag : UInt32)
    (serialized : Bytes) : Option State :=
  (decodeSet mapper serialized).bind fun set =>
    if metaTag=metaTagIdsetGiven ∨ metaTag=metaTagIdsetGiven1 then
      some {s with given:=some set}
    else if metaTag=metaTagCnsetSeen then
      some {s with seen:=some (mergeUp s.typ s.seen set)}
    else if metaTag=metaTagCnsetSeenFAI then
      some {s with seenFAI:=some (if s.typ=.contentsUp then mergeUp s.typ s.seenFAI set else set)}
    else if metaTag=metaTagCnsetRead then
      some {s with read:=some (if s.typ=.contentsUp then mergeUp s.typ s.read set else set)}
    else none

def upload (mapper : Option ReplicaMapper) (s : State) (x : UInt32×Bytes) : State :=
  (s.appendIDSet mapper x.1 x.2).getD s

def slot (s : State) (metaTag : UInt32) : Option IDSet :=
  if metaTag=metaTagCnsetSeen then s.seen
  else if metaTag=metaTagCnsetSeenFAI then s.seenFAI
  else if metaTag=metaTagCnsetRead then s.read
  else none

def Accumulates (typ : StateType) (metaTag : UInt32) : Prop :=
  typ.isUp=true ∧ (metaTag=metaTagCnsetSeen ∨
    typ=.contentsUp ∧ (metaTag=metaTagCnsetSeenFAI ∨ metaTag=metaTagCnsetRead))

def uploaded (mapper : Option ReplicaMapper) (metaTag : UInt32) (xs : List (UInt32×Bytes)) :
    List IDSet :=
  xs.filterMap fun x => if x.1=metaTag then decodeSet mapper x.2 else none

end State

def IDSet.Upright (s : IDSet) : Prop :=
  ∀ pre x post,s.forEachRange=pre++x::post → x.2.2<x.2.1 → ∀ y∈post,y.2.2<y.2.1

def IDSet.Within (s t : IDSet) : Prop :=
  (∀ replid v,s.Holds replid v → t.Holds replid v) ∧ ∀ e,s.contains e=true → t.contains e=true

attribute [local simp] RangeSet.contains_insert

variable {prior : IDSet}

namespace IDSet

variable {s : IDSet}

theorem Within.refl (s : IDSet) : s.Within s := ⟨fun _ _ h => h,fun _ h => h⟩

theorem Within.trans {t u : IDSet} (hst : s.Within t) (htu : t.Within u) : s.Within u :=
  ⟨fun r v h => htu.1 r v (hst.1 r v h),fun e h => htu.2 e (hst.2 e h)⟩

theorem holds_iff (s : IDSet) (replid : UInt16) (v : Nat) :
    s.Holds replid v ↔ ∃ x∈s.forEachRange,x.1=replid ∧ x.2.1≤v ∧ v≤x.2.2 := by
  simp only [Holds,forEachRange,List.mem_flatMap,List.mem_map,RangeSet.contains_iff]
  constructor
  · rintro ⟨n,hn,hr,nd,hnd,hv⟩
    exact ⟨_,⟨n,hn,nd,hnd,rfl⟩,hr,hv⟩
  · rintro ⟨x,⟨n,hn,nd,hnd,rfl⟩,hr,hv⟩
    exact ⟨n,hn,hr,nd,hnd,hv⟩

theorem holds_insertRange (form : Form) (replid : UInt16) (lo hi : Nat) (ns : List ReplNode)
    (r : UInt16) (v : Nat) :
    (⟨form,insertRange replid lo hi ns⟩ : IDSet).Holds r v ↔
      (⟨form,ns⟩ : IDSet).Holds r v ∨ (replid=r ∧ lo≤v ∧ v≤hi) := by
  induction ns with
  | nil =>
    have hempty : RangeSet.empty.contains v=false := rfl
    simp [Holds,insertRange,hempty]
  | cons n ns ih =>
    simp only [Holds] at ih ⊢
    by_cases hn : n.replid=replid
    · simp only [insertRange,if_pos hn,List.mem_cons,exists_eq_or_imp,RangeSet.contains_insert]
      constructor
      · rintro (⟨rfl,hv | hv⟩ | h)
        · exact .inl (.inl ⟨rfl,hv⟩)
        · exact .inr ⟨hn.symm,hv⟩
        · exact .inl (.inr h)
      · rintro ((⟨hr,hv⟩ | h) | ⟨hr,hv⟩)
        · exact .inl ⟨hr,.inl hv⟩
        · exact .inr h
        · exact .inl ⟨hn.trans hr,.inr hv⟩
    · simp only [insertRange,if_neg hn,List.mem_cons,exists_eq_or_imp,ih]
      exact or_assoc.symm

theorem contains_insertRange {form : Form} (hform : form ≠ .guidPacked) (replid : UInt16)
    (lo hi : Nat) (ns : List ReplNode) (e : EID) :
    (⟨form,insertRange replid lo hi ns⟩ : IDSet).contains e=true ↔
      (⟨form,ns⟩ : IDSet).contains e=true ∨ (replid=e.replID ∧ lo≤e.gcValue ∧ e.gcValue≤hi) := by
  simp only [contains,if_neg hform]
  induction ns with
  | nil =>
    have hempty : RangeSet.empty.contains e.gcValue=false := rfl
    by_cases hr : replid=e.replID
    · simp [insertRange,hr,hempty]
    · simp [insertRange,hr]
  | cons n ns ih =>
    by_cases hn : n.replid=replid
    · by_cases hr : replid=e.replID <;> simp [insertRange,hn,hr]
    · by_cases hr : n.replid=e.replID
      · have hne : replid≠e.replID := fun h => hn (hr.trans h.symm)
        simp [insertRange,hr,hne,hne.symm]
      · simpa [insertRange,hn,hr] using ih

theorem appendRanges_adds {M : List ReplNode → Prop} {r : UInt16} {v : Nat}
    (hM : ∀ replid lo hi ns,M (insertRange replid lo hi ns) ↔
      M ns ∨ (replid=r ∧ lo≤v ∧ v≤hi)) {rs : List (UInt16×Nat×Nat)}
    (hloose : s.form.packed=false)
    (hup : ∀ pre x post,rs=pre++x::post → x.2.2<x.2.1 → ∀ y∈post,y.2.2<y.2.1) :
    M (appendRanges rs s).2.repls ↔ M s.repls ∨ ∃ x∈rs,x.1=r ∧ x.2.1≤v ∧ v≤x.2.2 := by
  induction rs generalizing s with
  | nil => simp [appendRanges]
  | cons x rs ih =>
    have htail : ∀ pre y post,rs=pre++y::post → y.2.2<y.2.1 → ∀ z∈post,z.2.2<z.2.1 := by
      intro pre y post hrs
      exact hup (x::pre) y post (by simp [hrs])
    simp only [appendRanges,List.mem_cons,exists_eq_or_imp]
    by_cases hbad : x.2.2<x.2.1
    · -- The range is refused, and so would be all that follow.
      have hrefused : s.appendRange x.1 x.2.1 x.2.2=none := if_pos (.inr hbad)
      have hrest := hup [] x rs rfl hbad
      simp only [hrefused]
      constructor
      · exact .inl
      · rintro (h | ⟨-,h⟩ | ⟨y,hy,-,h⟩)
        · exact h
        · omega
        · have := hrest y hy
          omega
    · have hok : ¬ (s.form.packed=true ∨ x.2.2<x.2.1) := by simp [hloose,hbad]
      have hadded : s.appendRange x.1 x.2.1 x.2.2 =
          some {s with repls:=insertRange x.1 x.2.1 x.2.2 s.repls} := if_neg hok
      have hone := hM x.1 x.2.1 x.2.2 s.repls
      have hrest := ih (s := {s with repls:=insertRange x.1 x.2.1 x.2.2 s.repls}) hloose htail
      simp only [hadded]
      rw [hrest,hone,or_assoc]

theorem concatenate_holds (hs : s.form.packed=false) (hp : prior.form.packed=false)
    (hup : prior.Upright) (r : UInt16) (v : Nat) :
    (s.concatenate prior).2.Holds r v ↔ s.Holds r v ∨ prior.Holds r v := by
  have hok : ¬ (s.form.packed=true ∨ prior.form.packed=true) := by simp [hs,hp]
  rw [concatenate,if_neg hok,holds_iff prior]
  exact appendRanges_adds (M := fun ns => (⟨s.form,ns⟩ : IDSet).Holds r v)
    (fun replid lo hi ns => holds_insertRange s.form replid lo hi ns r v) hs hup

theorem contains_repls (h : s.form ≠ .guidPacked) {form : Form} (hform : form ≠ .guidPacked)
    (e : EID) : (⟨form,s.repls⟩ : IDSet).contains e=s.contains e := by
  simp [contains,if_neg h,if_neg hform]

theorem concatenate_contains (hs : s.form.packed=false) (hp : prior.form.packed=false)
    (hup : prior.Upright) (e : EID) :
    (s.concatenate prior).2.contains e=true ↔
      s.contains e=true ∨ prior.Holds e.replID e.gcValue := by
  have hok : ¬ (s.form.packed=true ∨ prior.form.packed=true) := by simp [hs,hp]
  have hquery := query_of_loose hs
  have hform : (s.concatenate prior).2.form=s.form := change_form s (.concatenate prior)
  rw [← contains_repls (hform ▸ hquery) hquery,concatenate,if_neg hok,holds_iff prior]
  exact appendRanges_adds (M := fun ns => (⟨s.form,ns⟩ : IDSet).contains e=true)
    (fun replid lo hi ns => contains_insertRange hquery replid lo hi ns e) hs hup

theorem holds_of_contains {e : EID} (h : s.contains e=true) : s.Holds e.replID e.gcValue := by
  unfold contains at h
  split_ifs at h
  split at h
  · rename_i n hn
    exact ⟨n,List.mem_of_find?_eq_some hn,by simpa using List.find?_some hn,h⟩
  · cases h

theorem not_holds_of_isEmpty (h : s.isEmpty=true) (r : UInt16) (v : Nat) : ¬ s.Holds r v := by
  rintro ⟨n,hn,-,hv⟩
  have hnil : n.ranges.nodes=[] := by simpa [RangeSet.isEmpty] using List.all_eq_true.mp h n hn
  simp [RangeSet.contains,hnil] at hv

end IDSet

namespace State

/-- No range with a value stands behind an inverted one. -/
def Steady (s : State) (x : UInt32×Bytes) : Prop :=
  Accumulates s.typ x.1 → ∀ prior,s.slot x.1=some prior → prior.Upright

variable {mapper : Option ReplicaMapper} {typ : StateType} {metaTag : UInt32}

theorem decodeSet_loose {b : Bytes} {set : IDSet} (h : decodeSet mapper b=some set) :
    set.form.packed=false := by
  obtain ⟨packed,-,hc⟩ := Option.bind_eq_some_iff.mp h
  exact (IDSet.convert_some hc).1

theorem mergeUp_within (hup : typ.isUp=true) {incoming : IDSet} (hi : incoming.form.packed=false)
    (hp : prior.form.packed=false) (hprior : prior.Upright) :
    prior.Within (mergeUp typ (some prior) incoming) ∧
      incoming.Within (mergeUp typ (some prior) incoming) := by
  simp only [mergeUp,hup]
  cases he : prior.isEmpty with
  | false =>
    have hholds := IDSet.concatenate_holds hi hp hprior
    have hcontains := IDSet.concatenate_contains hi hp hprior
    refine ⟨⟨?_,?_⟩,?_,?_⟩
    · exact fun r v h => (hholds r v).mpr (.inr h)
    · exact fun e h => (hcontains e).mpr (.inr (IDSet.holds_of_contains h))
    · exact fun r v h => (hholds r v).mpr (.inl h)
    · exact fun e h => (hcontains e).mpr (.inl h)
  | true =>
    have hnone := IDSet.not_holds_of_isEmpty he
    refine ⟨⟨?_,?_⟩,IDSet.Within.refl incoming⟩
    · exact fun r v h => absurd h (hnone r v)
    · exact fun e h => absurd (IDSet.holds_of_contains h) (hnone _ _)

theorem mergeUp_loose {prior : Option IDSet} {incoming : IDSet} (h : incoming.form.packed=false) :
    (mergeUp typ prior incoming).form.packed=false := by
  cases prior with
  | none => exact h
  | some prior =>
    have hform := IDSet.change_form incoming (.concatenate prior)
    simp only [mergeUp]
    split_ifs
    · exact (congrArg Form.packed hform).trans h
    · exact h

theorem upload_typ (mapper : Option ReplicaMapper) (s : State) (x : UInt32×Bytes) :
    (s.upload mapper x).typ=s.typ := by
  unfold upload appendIDSet
  cases decodeSet mapper x.2 with
  | none => rfl
  | some set => split_ifs <;> rfl

theorem upload_slot_self {s : State} {b : Bytes} {set : IDSet} (hacc : Accumulates s.typ metaTag)
    (hd : decodeSet mapper b=some set) :
    (s.upload mapper (metaTag,b)).slot metaTag = some (mergeUp s.typ (s.slot metaTag) set) := by
  unfold upload appendIDSet
  rw [hd,Option.bind_some]
  rcases hacc.2 with rfl | ⟨htyp,rfl | rfl⟩
  · rfl
  · simp [slot,htyp,metaTagCnsetSeenFAI,metaTagCnsetSeen,metaTagIdsetGiven,metaTagIdsetGiven1]
  · simp [slot,htyp,metaTagCnsetSeenFAI,metaTagCnsetSeen,metaTagCnsetRead,metaTagIdsetGiven,
      metaTagIdsetGiven1]

theorem upload_slot_other {s : State} {x : UInt32×Bytes}
    (h : x.1≠metaTag ∨ decodeSet mapper x.2=none) :
    (s.upload mapper x).slot metaTag=s.slot metaTag := by
  unfold upload appendIDSet
  cases hd : decodeSet mapper x.2 with
  | none => rfl
  | some set =>
    have hne : ∀ tag,x.1=tag → metaTag≠tag := by
      rintro tag htag rfl
      simp [hd,htag] at h
    rw [Option.bind_some]
    split
    · rfl
    split
    · next hseen => simp [slot,hne _ hseen]
    split
    · next hfai => simp [slot,hne _ hfai]
    split
    · next hread => simp [slot,hne _ hread]
    · rfl

theorem uploads_kept (mapper : Option ReplicaMapper) (metaTag : UInt32)
    (xs : List (UInt32×Bytes)) (s : State) (hacc : Accumulates s.typ metaTag) (prior : IDSet)
    (hslot : s.slot metaTag=some prior) (hloose : prior.form.packed=false)
    (hm : Meets (upload mapper) Steady s xs) :
    ∃ final,(runSteps (upload mapper) s xs).slot metaTag=some final ∧
      prior.Within final ∧ ∀ set∈uploaded mapper metaTag xs,set.Within final := by
  induction xs generalizing s prior with
  | nil => exact ⟨prior,hslot,IDSet.Within.refl prior,by simp [uploaded]⟩
  | cons x xs ih =>
    have hacc' : Accumulates (s.upload mapper x).typ metaTag := by rwa [upload_typ]
    by_cases hin : x.1=metaTag ∧ (decodeSet mapper x.2).isSome
    · obtain ⟨rfl,hsome⟩ := hin
      obtain ⟨set,hd⟩ := Option.isSome_iff_exists.mp hsome
      have hset := decodeSet_loose hd
      have hself : (s.upload mapper x).slot x.1=some (mergeUp s.typ (some prior) set) :=
        hslot ▸ upload_slot_self hacc hd
      obtain ⟨hold,hnew⟩ := mergeUp_within hacc.1 hset hloose (hm.1 hacc prior hslot)
      obtain ⟨final,hfinal,hkept,hlater⟩ := ih _ hacc' _ hself (mergeUp_loose hset) hm.2
      refine ⟨final,hfinal,hold.trans hkept,?_⟩
      intro u hu
      simp only [uploaded,List.filterMap_cons,if_true,hd,List.mem_cons] at hu
      rcases hu with rfl | hu
      · exact hnew.trans hkept
      · exact hlater u hu
    · have hskip : x.1≠metaTag ∨ decodeSet mapper x.2=none := by
        by_cases hx : x.1=metaTag
        · exact .inr (by simpa [hx] using hin)
        · exact .inl hx
      have hsame := (upload_slot_other hskip).trans hslot
      obtain ⟨final,hfinal,hkept,hlater⟩ := ih _ hacc' prior hsame hloose hm.2
      refine ⟨final,hfinal,hkept,?_⟩
      intro u hu
      apply hlater
      have hnone : (if x.1=metaTag then decodeSet mapper x.2 else none)=none := by
        rcases hskip with hx | hx
        · exact if_neg hx
        · rw [hx,ite_self]
      simpa only [uploaded,List.filterMap_cons,hnone] using hu

theorem slot_new (h : Accumulates typ metaTag) :
    (new typ).slot metaTag=some (IDSet.new .guidLoose) := by
  rcases h with ⟨hup,rfl | ⟨rfl,rfl | rfl⟩⟩
  · cases typ <;> rfl
  · rfl
  · rfl

end State

/-- The sets of an upload grow while each is steady when added to. -/
theorem upload_state_grows (typ : StateType) (mapper : Option ReplicaMapper) (metaTag : UInt32)
    (hacc : State.Accumulates typ metaTag) (xs : List (UInt32 × Bytes))
    (hm : Meets (State.upload mapper) State.Steady (State.new typ) xs) :
    ∃ final,(runSteps (State.upload mapper) (State.new typ) xs).slot metaTag = some final ∧
      ∀ set ∈ State.uploaded mapper metaTag xs,
        (∀ replid v,set.Holds replid v → final.Holds replid v) ∧
          ∀ e,set.contains e = true → final.contains e = true := by
  have htyp : State.Accumulates (State.new typ).typ metaTag := by cases typ <;> exact hacc
  obtain ⟨final,hfinal,-,hlater⟩ := State.uploads_kept mapper metaTag xs (State.new typ) htyp _
    (State.slot_new hacc) rfl hm
  exact ⟨final,hfinal,hlater⟩

theorem IDSet.upright_of_valid {s : IDSet} (h : ∀ x∈s.forEachRange,x.2.1≤x.2.2) : s.Upright := by
  intro pre x post hs hbad
  have hx := h x (by simp [hs])
  omega

theorem upload_state_grows_twice :
    let mapper := some (storeMapper .zero)
    let xs : List (UInt32 × Bytes) :=
      [(metaTagCnsetSeen,GUID.zero.flat ++ [0x06,0,0,0,0,0,7,0]),
        (metaTagCnsetSeen,GUID.zero.flat ++ [0x06,0,0,0,0,0,5,0])]
    Meets (State.upload mapper) State.Steady (State.new .contentsUp) xs ∧
      ∃ final,(runSteps (State.upload mapper) (State.new .contentsUp) xs).slot metaTagCnsetSeen =
          some final ∧
        ∀ set ∈ State.uploaded mapper metaTagCnsetSeen xs,
          (∀ replid v,set.Holds replid v → final.Holds replid v) ∧
            ∀ e,set.contains e = true → final.contains e = true := by
  intro mapper xs
  have hfirst : (State.upload mapper (State.new .contentsUp)
      (metaTagCnsetSeen,GUID.zero.flat++[0x06,0,0,0,0,0,7,0])).slot metaTagCnsetSeen =
        some ⟨.guidLoose,[⟨1,.zero,⟨[⟨7,7⟩]⟩⟩]⟩ := by decide
  have hm : Meets (State.upload mapper) State.Steady (State.new .contentsUp) xs := by
    refine ⟨?_,?_,trivial⟩
    · intro _ prior hprior
      cases hprior
      exact IDSet.upright_of_valid (by decide)
    · intro _ prior hprior
      obtain rfl := Option.some.inj (hfirst.symm.trans hprior)
      exact IDSet.upright_of_valid (by decide)
  exact ⟨hm,upload_state_grows .contentsUp mapper metaTagCnsetSeen ⟨rfl,.inl rfl⟩ xs hm⟩

/-- An inverted range in front of a value makes an upload drop it. -/
theorem upload_loses_value :
    let mapper := some (storeMapper .zero)
    let first : Bytes := GUID.zero.flat ++ [0x52,0,0,0,0,0,9,0,0,0,0,0,3,0x06,0,0,0,0,0,7,0]
    let second : Bytes := GUID.zero.flat ++ [0x06,0,0,0,0,0,5,0]
    ∃ set s₁ s₂ final,State.decodeSet mapper first = some set ∧ set.contains ⟨1,7⟩ = true ∧
      (State.new .contentsUp).appendIDSet mapper metaTagCnsetSeen first = some s₁ ∧
      s₁.appendIDSet mapper metaTagCnsetSeen second = some s₂ ∧
      s₂.slot metaTagCnsetSeen = some final ∧ final.contains ⟨1,7⟩ = false := by
  refine ⟨⟨.guidLoose,[⟨1,.zero,⟨[⟨9,3⟩,⟨7,7⟩]⟩⟩]⟩,_,_,⟨.guidLoose,[⟨1,.zero,⟨[⟨5,5⟩]⟩⟩]⟩,
    by decide,by decide,rfl,rfl,by decide,by decide⟩

end HermEX.Ics
