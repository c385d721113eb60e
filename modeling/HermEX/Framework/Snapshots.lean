import HermEX.Framework.Table

namespace HermEX.Framework

abbrev Snapshot (κ ν : Type) := Table (Prod.fst : κ×ν → κ)

inductive Delta (κ ν : Type) where
  | add (k : κ) (v : ν)
  | change (k : κ) (v : ν)
  | delete (k : κ)

namespace Delta

variable {κ ν : Type}

def key : Delta κ ν → κ
  | add k _ => k
  | change k _ => k
  | delete k => k

def isAdd : Delta κ ν → Bool
  | add _ _ => true
  | _ => false

def isChange : Delta κ ν → Bool
  | change _ _ => true
  | _ => false

def isDelete : Delta κ ν → Bool
  | delete _ => true
  | _ => false

end Delta

namespace Snapshot

variable {κ ν : Type} [DecidableEq κ] {ds : List (Delta κ ν)} {t s : Snapshot κ ν} {k : κ}

def empty : Snapshot κ ν := Table.empty

def value (s : Snapshot κ ν) (k : κ) : Option ν := (s.get k).map Prod.snd

def set (s : Snapshot κ ν) (k : κ) (v : ν) : Snapshot κ ν := s.put (k,v)

def remove (s : Snapshot κ ν) (k : κ) : Snapshot κ ν := s.deleteWhere fun e => e.1=k

def apply (s : Snapshot κ ν) : Delta κ ν → Snapshot κ ν
  | .add k v => s.set k v
  | .change k v => s.set k v
  | .delete k => s.remove k

def applyAll (s : Snapshot κ ν) (ds : List (Delta κ ν)) : Snapshot κ ν := ds.foldl apply s

def scan [DecidableEq ν] (s : Snapshot κ ν) (e : κ×ν) : Option (Delta κ ν) :=
  if s.value e.1=none then some (.add e.1 e.2)
  else if s.value e.1=some e.2 then none
  else some (.change e.1 e.2)

def gone (s : Snapshot κ ν) (live : List (κ×ν)) : List κ :=
  (s.rows.map Prod.fst).filter fun k => !(live.map Prod.fst).contains k

def diff [DecidableEq ν] (order : List κ → List κ) (s : Snapshot κ ν) (live : List (κ×ν)) :
    List (Delta κ ν) :=
  live.filterMap s.scan++(order (s.gone live)).map .delete

def Same (s t : Snapshot κ ν) : Prop := ∀ k,s.value k=t.value k

theorem value_set (s : Snapshot κ ν) (k : κ) (v : ν) (j : κ) :
    (s.set k v).value j=if j=k then some v else s.value j := by
  have hget := Table.get_put s (k,v) j
  rw [value,set,hget]
  split_ifs <;> rfl

theorem value_remove (s : Snapshot κ ν) (k j : κ) :
    (s.remove k).value j=if j=k then none else s.value j := by
  have hget := Table.get_deleteKey s k j
  rw [value,remove,hget]
  split_ifs <;> rfl

theorem value_apply_of_ne (s : Snapshot κ ν) {d : Delta κ ν} (h : d.key≠k) :
    (s.apply d).value k=s.value k := by
  cases d with
  | add j v | change j v => exact (value_set s j v k).trans (if_neg fun he => h he.symm)
  | delete j => exact (value_remove s j k).trans (if_neg fun he => h he.symm)

theorem mem_keys : k∈s.rows.map Prod.fst ↔ s.value k≠none := by
  have hget : s.value k=none ↔ s.get k=none := Option.map_eq_none_iff
  rw [Ne,hget,Table.get_eq_none,List.mem_map]
  constructor
  · rintro ⟨e,he,rfl⟩ hnone
    exact hnone e he rfl
  · intro h
    by_contra hn
    exact h fun e he hk => hn ⟨e,he,hk⟩

theorem mem_gone {live : List (κ×ν)} :
    k∈s.gone live ↔ s.value k≠none ∧ k∉live.map Prod.fst := by
  rw [gone,List.mem_filter,mem_keys]
  simp

theorem Same.refl (s : Snapshot κ ν) : Same s s := fun _ => rfl

theorem Same.apply (h : Same s t) (d : Delta κ ν) :
    Same (s.apply d) (t.apply d) := by
  intro k
  cases d with
  | add j v | change j v => simp [Snapshot.apply,value_set,h k]
  | delete j => simp [Snapshot.apply,value_remove,h k]

theorem Same.applyAll (h : Same s t) (ds : List (Delta κ ν)) :
    Same (s.applyAll ds) (t.applyAll ds) := by
  induction ds generalizing s t with
  | nil => exact h
  | cons d ds ih => exact ih (h.apply d)

theorem length_remove (s : Snapshot κ ν) (k : κ) : (s.remove k).rows.length ≤ s.rows.length :=
  List.length_filter_le _ _

theorem length_remove_lt (h : s.value k≠none) :
    (s.remove k).rows.length<s.rows.length := by
  obtain ⟨e,he,hk⟩ := List.mem_map.mp (mem_keys.mpr h)
  exact List.length_filter_lt_length_iff_exists.mpr ⟨e,he,by simp [hk]⟩

theorem length_set (s : Snapshot κ ν) (k : κ) (v : ν) :
    (s.set k v).rows.length=(s.remove k).rows.length+1 :=
  List.length_append

theorem value_applyAll_congr (h : s.value k=t.value k) (ds : List (Delta κ ν)) :
    (s.applyAll ds).value k=(t.applyAll ds).value k := by
  induction ds generalizing s t with
  | nil => exact h
  | cons d ds ih =>
    refine ih ?_
    cases d with
    | add j v | change j v => simp [Snapshot.apply,value_set,h]
    | delete j => simp [Snapshot.apply,value_remove,h]

theorem value_applyAll_filter (s : Snapshot κ ν) (ds : List (Delta κ ν)) (k : κ) :
    (s.applyAll ds).value k=(s.applyAll (ds.filter fun d => d.key=k)).value k := by
  induction ds generalizing s with
  | nil => rfl
  | cons d ds ih =>
    by_cases hk : d.key=k
    · rw [List.filter_cons_of_pos (by simpa using hk)]
      exact ih (s.apply d)
    · rw [List.filter_cons_of_neg (by simpa using hk)]
      exact (value_applyAll_congr (value_apply_of_ne s hk) ds).trans (ih s)

def grouped (ds : List (Delta κ ν)) : List (Delta κ ν) :=
  ds.filter Delta.isAdd++ds.filter Delta.isChange++ds.filter Delta.isDelete

def Uniform (ds : List (Delta κ ν)) : Prop := ∀ k,
  (∀ d∈ds,d.key=k → d.isAdd) ∨ (∀ d∈ds,d.key=k → d.isChange) ∨ ∀ d∈ds,d.key=k → d.isDelete

theorem filter_grouped (h : Uniform ds) (k : κ) :
    (grouped ds).filter (fun d => d.key=k)=ds.filter fun d => d.key=k := by
  have hgroup : ∀ p : Delta κ ν → Bool,(ds.filter p).filter (fun d => d.key=k) =
      (ds.filter fun d => d.key=k).filter p := by
    simp [Bool.and_comm]
  have hall : ∀ p : Delta κ ν → Bool,(∀ d∈ds,d.key=k → p d) →
      (ds.filter fun d => d.key=k).filter p=ds.filter fun d => d.key=k := by
    intro p hp
    refine List.filter_eq_self.mpr fun d hd => ?_
    exact hp d (List.mem_of_mem_filter hd) (by simpa using (List.mem_filter.mp hd).2)
  have hnone : ∀ p q : Delta κ ν → Bool,(∀ d,p d=true → q d=false) →
      (∀ d∈ds,d.key=k → p d) → (ds.filter fun d => d.key=k).filter q=[] := by
    intro p q hpq hp
    refine List.filter_eq_nil_iff.mpr fun d hd => ?_
    have hkey : d.key=k := by simpa using (List.mem_filter.mp hd).2
    rw [hpq d (hp d (List.mem_of_mem_filter hd) hkey)]
    exact Bool.false_ne_true
  have hadd : ∀ d : Delta κ ν,d.isAdd=true → d.isChange=false ∧ d.isDelete=false := by
    intro d
    cases d <;> simp [Delta.isAdd,Delta.isChange,Delta.isDelete]
  have hchange : ∀ d : Delta κ ν,d.isChange=true → d.isAdd=false ∧ d.isDelete=false := by
    intro d
    cases d <;> simp [Delta.isAdd,Delta.isChange,Delta.isDelete]
  have hdelete : ∀ d : Delta κ ν,d.isDelete=true → d.isAdd=false ∧ d.isChange=false := by
    intro d
    cases d <;> simp [Delta.isAdd,Delta.isChange,Delta.isDelete]
  rw [grouped,List.filter_append,List.filter_append,hgroup,hgroup,hgroup]
  rcases h k with hk | hk | hk
  · rw [hall _ hk,hnone _ _ (fun d hd => (hadd d hd).1) hk,hnone _ _ (fun d hd => (hadd d hd).2) hk,
      List.append_nil,List.append_nil]
  · rw [hall _ hk,hnone _ _ (fun d hd => (hchange d hd).1) hk,
      hnone _ _ (fun d hd => (hchange d hd).2) hk,List.append_nil,List.nil_append]
  · rw [hall _ hk,hnone _ _ (fun d hd => (hdelete d hd).1) hk,
      hnone _ _ (fun d hd => (hdelete d hd).2) hk,List.nil_append,List.nil_append]

theorem same_grouped (h : Uniform ds) (s : Snapshot κ ν) :
    Same (s.applyAll (grouped ds)) (s.applyAll ds) := by
  intro k
  rw [value_applyAll_filter s (grouped ds),filter_grouped h,← value_applyAll_filter]

section Diff

variable [DecidableEq ν] {order : List κ → List κ} {s : Snapshot κ ν} {live : List (κ×ν)}
  {d : Delta κ ν}

def Fits (s : Snapshot κ ν) (live : List (κ×ν)) : Delta κ ν → Prop
  | .add k v => s.value k=none ∧ (k,v)∈live
  | .change k v => s.value k≠none ∧ (k,v)∈live
  | .delete k => s.value k≠none ∧ k∉live.map Prod.fst

theorem fits_of_scan {e : κ×ν} (he : e∈live) (h : s.scan e=some d) : Fits s live d := by
  rw [scan] at h
  split_ifs at h with hnone hsame
  all_goals
    cases h
    exact ⟨hnone,he⟩

theorem fits_diff (horder : ∀ ks,(order ks).Perm ks) (h : d∈s.diff order live) :
    Fits s live d := by
  rcases List.mem_append.mp h with h | h
  · obtain ⟨e,he,hscan⟩ := List.mem_filterMap.mp h
    exact fits_of_scan he hscan
  · obtain ⟨k,hk,rfl⟩ := List.mem_map.mp h
    exact mem_gone.mp ((horder _).mem_iff.mp hk)

omit [DecidableEq ν] in
theorem uniform_of_fits (h : ∀ d∈ds,Fits s live d) : Uniform ds := by
  intro k
  by_cases hvalue : s.value k=none
  · refine .inl fun d hd hk => ?_
    have hfits := h d hd
    subst hk
    cases d with
    | add j v => rfl
    | change j v | delete j => exact absurd hvalue hfits.1
  · by_cases hin : k∈live.map Prod.fst
    · refine .inr (.inl fun d hd hk => ?_)
      have hfits := h d hd
      subst hk
      cases d with
      | add j v => exact absurd hfits.1 hvalue
      | change j v => rfl
      | delete j => exact absurd hin hfits.2
    · refine .inr (.inr fun d hd hk => ?_)
      have hfits := h d hd
      subst hk
      cases d with
      | add j v => exact absurd hfits.1 hvalue
      | change j v => exact absurd (List.mem_map.mpr ⟨(j,v),hfits.2,rfl⟩) hin
      | delete j => rfl

end Diff

end Snapshot
end HermEX.Framework
