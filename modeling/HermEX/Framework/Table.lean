import Mathlib.Data.List.Nodup

namespace HermEX.Framework

/-- Rows with a primary key. -/
structure Table {κ α : Type} (key : α → κ) where
  rows : List α
  unique : (rows.map key).Nodup

namespace Table

variable {κ α : Type} {key : α → κ}

instance : Membership α (Table key) := ⟨fun t r => r∈t.rows⟩

variable {t : Table key} {r : α} {p : α → Bool}

theorem mem_rows : r∈t.rows ↔ r∈t := Iff.rfl

instance [DecidableEq α] : DecidableEq (Table key) := fun a b =>
  decidable_of_iff (a.rows=b.rows) ⟨fun h => by cases a; cases b; simp_all,fun h => by rw [h]⟩

theorem eq_of_key {a b : α} (ha : a∈t) (hb : b∈t) (h : key a=key b) : a=b :=
  List.inj_on_of_nodup_map t.unique ha hb h

def empty : Table key := ⟨[],by simp⟩

def single (r : α) : Table key := ⟨[r],by simp⟩

@[simp] theorem not_mem_empty (r : α) : r∉(empty : Table key) := List.not_mem_nil

def deleteWhere (t : Table key) (p : α → Bool) : Table key :=
  ⟨t.rows.filter fun r => !p r,(List.filter_sublist.map key).nodup t.unique⟩

@[simp] theorem mem_deleteWhere : r∈t.deleteWhere p ↔ r∈t ∧ p r=false := by
  simp [deleteWhere,← mem_rows]

def updateWhere (t : Table key) (p : α → Bool) (f : α → α) (hf : ∀ r,key (f r)=key r) :
    Table key where
  rows := t.rows.map fun r => if p r then f r else r
  unique := by
    have h : (key ∘ fun r => if p r then f r else r)=key := by
      funext r
      simp only [Function.comp_apply]
      split_ifs <;> simp [hf]
    rw [List.map_map,h]
    exact t.unique

@[simp] theorem mem_updateWhere {f : α → α} {hf : ∀ r,key (f r)=key r} {x : α} :
    x∈t.updateWhere p f hf ↔ ∃ r∈t,x=if p r then f r else r := by
  simp only [updateWhere,← mem_rows,List.mem_map,eq_comm]

theorem deleteWhere_eq_self (h : ∀ r∈t,p r=false) : t.deleteWhere p=t := by
  have hrows : (t.deleteWhere p).rows=t.rows := List.filter_eq_self.mpr fun r hr => by simp [h r hr]
  simp only [deleteWhere] at hrows ⊢
  simp [hrows]

theorem updateWhere_eq_self {f : α → α} {hf : ∀ r,key (f r)=key r} (h : ∀ r∈t,p r=true → f r=r) :
    t.updateWhere p f hf=t := by
  have hrows : (t.updateWhere p f hf).rows=t.rows := by
    have hid : ∀ r∈t.rows,(if p r then f r else r)=id r := by
      intro r hr
      split_ifs with hp
      · exact h r hr hp
      · rfl
    exact (List.map_congr_left hid).trans (List.map_id _)
  simp only [updateWhere] at hrows ⊢
  simp [hrows]

variable [DecidableEq κ]

def get (t : Table key) (k : κ) : Option α := t.rows.find? fun r => key r=k

theorem get_eq_some {k : κ} : t.get k=some r ↔ r∈t ∧ key r=k := by
  constructor
  · intro h
    exact ⟨List.mem_of_find?_eq_some h,by simpa using List.find?_some h⟩
  · rintro ⟨hr,rfl⟩
    cases h : t.get (key r) with
    | none =>
      have hne := List.find?_eq_none.mp h r hr
      simp at hne
    | some x =>
      have hx : x∈t ∧ key x=key r := ⟨List.mem_of_find?_eq_some h,by simpa using List.find?_some h⟩
      rw [eq_of_key hx.1 hr hx.2]

theorem get_eq_none {k : κ} : t.get k=none ↔ ∀ r∈t,key r≠k := by simp [get,← mem_rows]

theorem get_key (h : r∈t) : t.get (key r)=some r := get_eq_some.mpr ⟨h,rfl⟩

theorem get_updateWhere (t : Table key) (p : α → Bool) (f : α → α) (hf : ∀ r,key (f r)=key r)
    (k : κ) : (t.updateWhere p f hf).get k=(t.get k).map fun r => if p r then f r else r := by
  have hk : ∀ r,key (if p r then f r else r)=key r := by
    intro r
    split_ifs <;> simp [hf]
  cases hg : t.get k with
  | none =>
    apply get_eq_none.mpr
    intro x hx
    obtain ⟨r,hr,rfl⟩ := mem_updateWhere.mp hx
    rw [hk]
    exact get_eq_none.mp hg r hr
  | some r =>
    obtain ⟨hr,rfl⟩ := get_eq_some.mp hg
    exact get_eq_some.mpr ⟨mem_updateWhere.mpr ⟨r,hr,rfl⟩,hk r⟩

theorem get_deleteKey (t : Table key) (k₀ k : κ) :
    (t.deleteWhere fun r => key r=k₀).get k=if k=k₀ then none else t.get k := by
  split_ifs with hk
  · apply get_eq_none.mpr
    rw [hk]
    simp
  · cases hg : t.get k with
    | none =>
      apply get_eq_none.mpr
      intro r hr
      exact get_eq_none.mp hg r (mem_deleteWhere.mp hr).1
    | some r =>
      obtain ⟨hr,hkr⟩ := get_eq_some.mp hg
      have hne : key r≠k₀ := hkr ▸ hk
      exact get_eq_some.mpr ⟨mem_deleteWhere.mpr ⟨hr,decide_eq_false hne⟩,hkr⟩

def insert (t : Table key) (r : α) : Option (Table key) :=
  if h : t.get (key r)=none then
    some ⟨t.rows++[r],by
      rw [List.map_append,List.nodup_append]
      refine ⟨t.unique,by simp,?_⟩
      intro a ha b hb
      obtain ⟨x,hx,rfl⟩ := List.mem_map.mp ha
      simp only [List.map_cons,List.map_nil,List.mem_singleton] at hb
      rw [hb]
      exact get_eq_none.mp h x hx⟩
  else none

theorem insert_eq_some {t' : Table key} (h : t.insert r=some t') :
    (∀ x∈t,key x≠key r) ∧ ∀ x,x∈t' ↔ x∈t ∨ x=r := by
  unfold insert at h
  split_ifs at h with hn
  cases h
  exact ⟨get_eq_none.mp hn,fun x => by simp [← mem_rows]⟩

theorem get_of_mem_insert {t' : Table key} (hn : ∀ x∈t,key x≠key r) (h : ∀ x,x∈t' ↔ x∈t ∨ x=r)
    (k : κ) : t'.get k=if k=key r then some r else t.get k := by
  split_ifs with hk
  · exact get_eq_some.mpr ⟨(h r).mpr (.inr rfl),hk.symm⟩
  · cases hg : t.get k with
    | some x =>
      obtain ⟨hx,hkx⟩ := get_eq_some.mp hg
      exact get_eq_some.mpr ⟨(h x).mpr (.inl hx),hkx⟩
    | none =>
      rw [get_eq_none] at hg ⊢
      intro x hx
      rcases (h x).mp hx with hx | rfl
      · exact hg x hx
      · exact fun he => hk he.symm

def put (t : Table key) (r : α) : Table key where
  rows := (t.deleteWhere fun x => key x=key r).rows++[r]
  unique := by
    rw [List.map_append,List.nodup_append]
    refine ⟨(t.deleteWhere _).unique,by simp,?_⟩
    intro a ha b hb
    obtain ⟨x,hx,rfl⟩ := List.mem_map.mp ha
    simp only [List.map_cons,List.map_nil,List.mem_singleton] at hb
    rw [hb]
    simpa using (mem_deleteWhere.mp hx).2

@[simp] theorem mem_put {x : α} : x∈t.put r ↔ x=r ∨ (x∈t ∧ key x≠key r) := by
  simp only [put,← mem_rows,List.mem_append,List.mem_singleton]
  rw [mem_rows,mem_deleteWhere,decide_eq_false_iff_not]
  tauto

theorem get_put (t : Table key) (r : α) (k : κ) :
    (t.put r).get k=if k=key r then some r else t.get k := by
  split_ifs with hk
  · exact get_eq_some.mpr ⟨mem_put.mpr (.inl rfl),hk.symm⟩
  · cases hg : t.get k with
    | none =>
      apply get_eq_none.mpr
      intro x hx
      rcases mem_put.mp hx with rfl | hx
      · exact fun he => hk he.symm
      · exact get_eq_none.mp hg x hx.1
    | some x =>
      obtain ⟨hx,rfl⟩ := get_eq_some.mp hg
      exact get_eq_some.mpr ⟨mem_put.mpr (.inr ⟨hx,hk⟩),rfl⟩

end Table
end HermEX.Framework
