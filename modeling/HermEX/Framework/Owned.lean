import HermEX.Framework.Table

namespace HermEX.Framework

section Owned

variable {α κ ω σ : Type} {key : α → κ} {p : α → Bool} {f : α → α} {x : α}

def Spares (owner : α → ω) (state : α → σ) (touched : List ω) (t t' : Table key) : Prop :=
  ∀ r∈t,owner r∉touched → ∃ r'∈t',key r'=key r ∧ owner r'=owner r ∧ state r'=state r

theorem owner_updateWhere {owner : α → ω} {t : Table key} (hf : ∀ r,key (f r)=key r)
    (ho : ∀ r,owner (f r)=owner r) (hx : x∈t) :
    ∀ r∈t.updateWhere p f hf,key r=key x → owner r=owner x := by
  intro r hr hk
  obtain ⟨y,hy,rfl⟩ := Table.mem_updateWhere.mp hr
  have hyx : key y=key x := by
    rw [← hk]
    split_ifs
    · exact (hf y).symm
    · rfl
  rw [Table.eq_of_key hy hx hyx]
  split_ifs
  · exact ho x
  · rfl

namespace Spares

variable {owner : α → ω} {state : α → σ} {touched : List ω} {t t' t'' : Table key}

theorem refl (touched : List ω) (t : Table key) : Spares owner state touched t t :=
  fun r hr _ => ⟨r,hr,rfl,rfl,rfl⟩

theorem trans (h : Spares owner state touched t t') (k : Spares owner state touched t' t'') :
    Spares owner state touched t t'' := by
  intro r hr hn
  obtain ⟨r',hr',hk',ho',hs'⟩ := h r hr hn
  obtain ⟨r'',hr'',hk'',ho'',hs''⟩ := k r' hr' (ho' ▸ hn)
  exact ⟨r'',hr'',hk''.trans hk',ho''.trans ho',hs''.trans hs'⟩

theorem mono {us : List ω} (h : Spares owner state touched t t') (hu : ∀ o∈touched,o∈us) :
    Spares owner state us t t' :=
  fun r hr hn => h r hr fun ho => hn (hu _ ho)

theorem updateWhere (hf : ∀ r,key (f r)=key r) (ho : ∀ r,owner (f r)=owner r)
    (hs : ∀ r∈t,p r=true → owner r∉touched → state (f r)=state r) :
    Spares owner state touched t (t.updateWhere p f hf) := by
  intro r hr hn
  refine ⟨if p r then f r else r,Table.mem_updateWhere.mpr ⟨r,hr,rfl⟩,?_⟩
  split_ifs with hp
  · exact ⟨hf r,ho r,hs r hr hp hn⟩
  · exact ⟨rfl,rfl,rfl⟩

theorem updateKey [DecidableEq κ] (hf : ∀ r,key (f r)=key r) (ho : ∀ r,owner (f r)=owner r)
    (hx : ∀ r∈t,key r=key x → owner r=owner x) (ht : owner x∈touched) :
    Spares owner state touched t (t.updateWhere (fun r => key r=key x) f hf) := by
  refine updateWhere hf ho ?_
  intro r hr hk hn
  rw [decide_eq_true_eq] at hk
  exact absurd (hx r hr hk ▸ ht) hn

theorem deleteWhere (h : ∀ r∈t,p r=true → owner r∈touched) :
    Spares owner state touched t (t.deleteWhere p) := by
  intro r hr hn
  refine ⟨r,Table.mem_deleteWhere.mpr ⟨hr,?_⟩,rfl,rfl,rfl⟩
  cases hp : p r with
  | false => rfl
  | true => exact absurd (h r hr hp) hn

theorem insert [DecidableEq κ] (h : t.insert x=some t') :
    Spares owner state touched t t' := by
  intro r hr _
  exact ⟨r,((Table.insert_eq_some h).2 r).mpr (.inl hr),rfl,rfl,rfl⟩

theorem put [DecidableEq κ] (h : ∀ r∈t,key r=key x → owner r∈touched) :
    Spares owner state touched t (t.put x) := by
  intro r hr hn
  have hne : key r≠key x := fun he => hn (h r hr he)
  exact ⟨r,Table.mem_put.mpr (.inr ⟨hr,hne⟩),rfl,rfl,rfl⟩

end Spares
end Owned
end HermEX.Framework
