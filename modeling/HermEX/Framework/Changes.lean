import HermEX.Framework.Table

namespace HermEX.Framework

section Changes

variable {α κ : Type} [DecidableEq κ] {key : α → κ}

/-- Each row became what it may, and new rows may appear. -/
structure Changes (become : α → Option α → Prop) (appear : α → Prop) (t t' : Table key) :
    Prop where
  old : ∀ r∈t,become r (t'.get (key r))
  new : ∀ r∈t',t.get (key r)=none → appear r

/-- Also through a row's going and coming back. -/
structure Composes (key : α → κ) (become : α → Option α → Prop) (appear : α → Prop) : Prop where
  refl : ∀ r,become r (some r)
  trans : ∀ {r r' o},key r'=key r → become r (some r') → become r' o → become r o
  again : ∀ {r r'},key r'=key r → become r none → appear r' → become r (some r')
  later : ∀ {r r'},key r'=key r → appear r → become r (some r') → appear r'

namespace Changes

variable {become : α → Option α → Prop} {appear : α → Prop} {t t' t'' : Table key}

theorem refl (hc : Composes key become appear) (t : Table key) : Changes become appear t t := by
  constructor
  · intro r hr
    rw [Table.get_key hr]
    exact hc.refl r
  · intro r hr hn
    exact absurd rfl (Table.get_eq_none.mp hn r hr)

theorem trans (hc : Composes key become appear) (h : Changes become appear t t')
    (k : Changes become appear t' t'') : Changes become appear t t'' := by
  constructor
  · intro r hr
    have hold := h.old r hr
    cases hg : t'.get (key r) with
    | some r' =>
      obtain ⟨hr',hk⟩ := Table.get_eq_some.mp hg
      rw [hg] at hold
      have hnext := k.old r' hr'
      rw [hk] at hnext
      exact hc.trans hk hold hnext
    | none =>
      rw [hg] at hold
      cases hg' : t''.get (key r) with
      | none => exact hold
      | some r'' =>
        obtain ⟨hr'',hk⟩ := Table.get_eq_some.mp hg'
        exact hc.again hk hold (k.new r'' hr'' (by rw [hk,hg]))
  · intro r hr hn
    cases hg : t'.get (key r) with
    | none => exact k.new r hr hg
    | some r' =>
      obtain ⟨hr',hk⟩ := Table.get_eq_some.mp hg
      have hnew := h.new r' hr' (by rw [hk,hn])
      have hnext := k.old r' hr'
      rw [hk,Table.get_key hr] at hnext
      exact hc.later hk.symm hnew hnext

theorem mono {become' : α → Option α → Prop} {appear' : α → Prop}
    (h : Changes become appear t t') (hb : ∀ r∈t,∀ o,become r o → become' r o)
    (ha : ∀ r,appear r → appear' r) : Changes become' appear' t t' :=
  ⟨fun r hr => hb r hr _ (h.old r hr),fun r hr hn => ha r (h.new r hr hn)⟩

theorem updateWhere (hc : Composes key become appear) {p : α → Bool} {f : α → α}
    (hf : ∀ r,key (f r)=key r) (h : ∀ r∈t,p r=true → become r (some (f r))) :
    Changes become appear t (t.updateWhere p f hf) := by
  constructor
  · intro r hr
    rw [Table.get_updateWhere,Table.get_key hr,Option.map_some]
    split_ifs with hp
    · exact h r hr hp
    · exact hc.refl r
  · intro r hr hn
    obtain ⟨x,hx,rfl⟩ := Table.mem_updateWhere.mp hr
    refine absurd ?_ (Table.get_eq_none.mp hn x hx)
    split_ifs
    · exact (hf x).symm
    · rfl

theorem deleteWhere (hc : Composes key become appear) {p : α → Bool}
    (h : ∀ r∈t,p r=true → become r none) : Changes become appear t (t.deleteWhere p) := by
  constructor
  · intro r hr
    by_cases hp : p r=true
    · have hnone : (t.deleteWhere p).get (key r)=none := by
        rw [Table.get_eq_none]
        intro x hx hk
        obtain ⟨hx,hpx⟩ := Table.mem_deleteWhere.mp hx
        rw [Table.eq_of_key hx hr hk,hp] at hpx
        cases hpx
      rw [hnone]
      exact h r hr hp
    · have hmem : r∈t.deleteWhere p := Table.mem_deleteWhere.mpr ⟨hr,by simpa using hp⟩
      rw [Table.get_key hmem]
      exact hc.refl r
  · intro r hr hn
    exact absurd rfl (Table.get_eq_none.mp hn r (Table.mem_deleteWhere.mp hr).1)

theorem insert (hc : Composes key become appear) {x : α} (hn : ∀ r∈t,key r≠key x)
    (hi : ∀ r,r∈t' ↔ r∈t ∨ r=x) (hx : appear x) : Changes become appear t t' := by
  constructor
  · intro r hr
    rw [Table.get_key ((hi r).mpr (.inl hr))]
    exact hc.refl r
  · intro r hr hnone
    rcases (hi r).mp hr with hr | rfl
    · exact absurd rfl (Table.get_eq_none.mp hnone r hr)
    · exact hx

end Changes

def Touched (target : α → Prop) (Q : α → Option α → Prop) (r : α) (o : Option α) : Prop :=
  o=some r ∨ (target r ∧ Q r o)

omit [DecidableEq κ] in
theorem Touched.composes {target : α → Prop} {Q : α → Option α → Prop}
    (hQ : ∀ {r r' o},key r'=key r → Q r (some r') → Q r' o → Q r o) :
    Composes key (Touched target Q) (fun _ => False) where
  refl r := .inl rfl
  trans := by
    intro r r' o hk h h'
    rcases h with h | ⟨ht,hq⟩
    · cases h
      exact h'
    · rcases h' with rfl | ⟨-,hq'⟩
      · exact .inr ⟨ht,hq⟩
      · exact .inr ⟨ht,hQ hk hq hq'⟩
  again _ _ h := h.elim
  later _ h _ := h.elim

def Keeps (S : α → α → Prop) (r : α) (o : Option α) : Prop := ∃ r',o=some r' ∧ S r r'

omit [DecidableEq κ] in
theorem Keeps.composes {S : α → α → Prop} (refl : ∀ r,S r r)
    (trans : ∀ {a b c},S a b → S b c → S a c) : Composes key (Keeps S) (fun _ => True) where
  refl r := ⟨r,rfl,refl r⟩
  trans := by
    intro r r' o _ ⟨x,hx,hs⟩ ⟨y,hy,hs'⟩
    cases hx
    exact ⟨y,hy,trans hs hs'⟩
  again _ h _ := by
    obtain ⟨x,hx,-⟩ := h
    cases hx
  later _ _ _ := trivial

end Changes
end HermEX.Framework
