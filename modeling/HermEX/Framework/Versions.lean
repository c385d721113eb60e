import Mathlib.Data.List.Basic
import Mathlib.Logic.Function.Basic

namespace HermEX.Framework

/-- An item of a collection; a deleted one is a tombstone. -/
structure Member (κ ν : Type) where
  coll : κ
  name : ν
  version : Nat
  deleted : Bool

/-- A write to one item; all but a removal give a new version. -/
inductive Edit (ι κ ν : Type) where
  | create (i : ι) (coll : κ) (name : ν)
  | touch (i : ι)
  | rename (i : ι) (name : ν)
  | flag (i : ι)
  | restore (i : ι) (coll : κ)
  | remove (i : ι)

namespace Edit

variable {ι κ ν : Type} {e : Edit ι κ ν} {v : Nat}

def target : Edit ι κ ν → ι
  | .create i _ _ => i
  | .touch i => i
  | .rename i _ => i
  | .flag i => i
  | .restore i _ => i
  | .remove i => i

def write (v : Nat) (m : Option (Member κ ν)) : Edit ι κ ν → Option (Member κ ν)
  | .create _ coll name => some ⟨coll,name,v,false⟩
  | .touch _ => m.map fun m => {m with version:=v}
  | .rename _ name => m.map fun m => {m with name:=name,version:=v}
  | .flag _ => m.map fun m => {m with version:=v,deleted:=true}
  | .restore _ coll => m.map fun m => {m with coll:=coll,version:=v,deleted:=false}
  | .remove _ => none

theorem write_version {m : Option (Member κ ν)} {m' : Member κ ν} (h : e.write v m=some m') :
    m'.version=v := by
  cases e with
  | create i coll name =>
    cases h
    rfl
  | remove i => cases h
  | _ =>
    obtain ⟨x,-,rfl⟩ := Option.map_eq_some_iff.mp h
    rfl

variable [DecidableEq ι] {s : ι → Option (Member κ ν)}

def apply (v : Nat) (e : Edit ι κ ν) (s : ι → Option (Member κ ν)) : ι → Option (Member κ ν) :=
  Function.update s e.target (e.write v (s e.target))

theorem apply_target (v : Nat) (e : Edit ι κ ν) (s : ι → Option (Member κ ν)) :
    e.apply v s e.target=e.write v (s e.target) := Function.update_self _ _ _

theorem apply_of_ne {i : ι} (h : i≠e.target) :
    e.apply v s i=s i := Function.update_of_ne h _ _

theorem apply_eq_some {i : ι} {m : Member κ ν} (h : e.apply v s i=some m) :
    (i≠e.target ∧ s i=some m) ∨ (i=e.target ∧ e.write v (s i)=some m ∧ m.version=v) := by
  by_cases hi : i=e.target
  · right
    subst hi
    rw [apply_target] at h
    exact ⟨rfl,h,write_version h⟩
  · rw [apply_of_ne hi] at h
    exact .inl ⟨hi,h⟩

end Edit

section Collection

variable {ι κ ν : Type}

/-- `m` is live as item `i`. -/
structure LiveAt (s : ι → Option (Member κ ν)) (c : κ) (i : ι) (m : Member κ ν) : Prop where
  item : s i=some m
  coll : m.coll=c
  live : m.deleted=false

def Buried (s : ι → Option (Member κ ν)) (c : κ) (τ : Nat) (h : ν) : Prop :=
  ∃ i m,s i=some m ∧ m.coll=c ∧ m.deleted=true ∧ m.name=h ∧ τ < m.version

def Named (s : ι → Option (Member κ ν)) (c : κ) (h : ν) : Prop := ∃ i m,LiveAt s c i m ∧ m.name=h

def DistinctIn (s : ι → Option (Member κ ν)) (c : κ) : Prop :=
  ∀ i j m m',LiveAt s c i m → LiveAt s c j m' → m.name=m'.name → i=j

variable [DecidableEq ι] {s : ι → Option (Member κ ν)} {c : κ} {v : Nat} {e : Edit ι κ ν}
  {m : Member κ ν} {i : ι}

theorem LiveAt.apply (h : LiveAt s c i m) (hi : i≠e.target) :
    LiveAt (e.apply v s) c i m :=
  ⟨(Edit.apply_of_ne hi).trans h.item,h.coll,h.live⟩

theorem Named.touch {h : ν} (hn : Named s c h) (i : ι) (v : Nat) :
    Named ((Edit.touch i).apply v s) c h := by
  obtain ⟨j,m,hm,rfl⟩ := hn
  by_cases hj : j=i
  · subst hj
    have hat := Edit.apply_target v (.touch j) s
    rw [show s (Edit.touch j).target=some m from hm.item] at hat
    exact ⟨j,_,⟨hat,hm.coll,hm.live⟩,rfl⟩
  · exact ⟨j,m,hm.apply hj,rfl⟩

def Edit.Keeps (s : ι → Option (Member κ ν)) : Edit ι κ ν → Prop
  | .create _ coll name => ¬Named s coll name
  | .rename i name => ∀ m,s i=some m → m.name=name
  | .restore _ _ => False
  | _ => True

theorem Edit.Keeps.origin (he : e.Keeps s) (h : LiveAt (e.apply v s) c i m) :
    (∃ m₀,LiveAt s c i m₀ ∧ m₀.name=m.name) ∨ (i=e.target ∧ ¬Named s c m.name) := by
  rcases Edit.apply_eq_some h.item with ⟨-,hm⟩ | ⟨hi,hm,-⟩
  · exact .inl ⟨m,⟨hm,h.coll,h.live⟩,rfl⟩
  · have hlive := h.live
    have hcoll := h.coll
    cases e with
    | create k coll name =>
      cases hm
      obtain rfl : coll=c := hcoll
      exact .inr ⟨hi,he⟩
    | touch k =>
      obtain ⟨x,hx,rfl⟩ := Option.map_eq_some_iff.mp hm
      exact .inl ⟨x,⟨hx,hcoll,hlive⟩,rfl⟩
    | rename k name =>
      obtain rfl : i=k := hi
      obtain ⟨x,hx,rfl⟩ := Option.map_eq_some_iff.mp hm
      exact .inl ⟨x,⟨hx,hcoll,hlive⟩,he x hx⟩
    | flag k =>
      obtain ⟨x,hx,rfl⟩ := Option.map_eq_some_iff.mp hm
      cases hlive
    | restore k coll => exact he.elim
    | remove k => cases hm

theorem DistinctIn.apply (h : DistinctIn s c) (he : e.Keeps s) : DistinctIn (e.apply v s) c := by
  intro i j m m' hi hj hn
  rcases he.origin hi with ⟨a,ha,han⟩ | ⟨hi',hfree⟩
  · rcases he.origin hj with ⟨b,hb,hbn⟩ | ⟨hj',hfree⟩
    · exact h i j a b ha hb (han.trans (hn.trans hbn.symm))
    · exact absurd ⟨i,a,ha,han.trans hn⟩ hfree
  · rcases he.origin hj with ⟨b,hb,hbn⟩ | ⟨hj',-⟩
    · exact absurd ⟨j,b,hb,hbn.trans hn.symm⟩ hfree
    · rw [hi',hj']

end Collection

section Patch

variable {ν α : Type} [DecidableEq ν] {resp : List (ν×Option α)}

def patch (M : ν → Option α) (resp : List (ν×Option α)) : ν → Option α :=
  resp.foldl (fun M p => Function.update M p.1 p.2) M

theorem patch_of_not_mem {M : ν → Option α} {h : ν} (hr : ∀ p∈resp,p.1≠h) : patch M resp h=M h := by
  induction resp generalizing M with
  | nil => rfl
  | cons p resp ih =>
    have hp := hr p List.mem_cons_self
    have hrest := ih (M := Function.update M p.1 p.2) fun q hq => hr q (List.mem_cons_of_mem p hq)
    exact hrest.trans (Function.update_of_ne (Ne.symm hp) _ _)

theorem patch_of_mem {M : ν → Option α} {h : ν} {x : Option α} (hm : (h,x)∈resp)
    (hr : ∀ p∈resp,p.1=h → p.2=x) : patch M resp h=x := by
  induction resp generalizing M with
  | nil => cases hm
  | cons p resp ih =>
    have hrest : ∀ q∈resp,q.1=h → q.2=x := fun q hq => hr q (List.mem_cons_of_mem p hq)
    by_cases hin : (h,x)∈resp
    · exact ih hin hrest
    · have hout : ∀ q∈resp,q.1≠h := by
        intro q hq he
        exact hin (by rw [← he,← hrest q hq he]; exact hq)
      have hp : p=(h,x) := by
        rcases List.mem_cons.mp hm with hp | hp
        · exact hp.symm
        · exact absurd hp hin
      have hkeep := patch_of_not_mem (M := Function.update M p.1 p.2) hout
      refine hkeep.trans ?_
      rw [hp]
      exact Function.update_self _ _ _

end Patch

section Replica

variable {ι κ ν α : Type} (tag : Nat → α) (s : ι → Option (Member κ ν)) (c : κ)

/-- The replica knows live items up to its token; its names have an item, a tombstone or a lost
removal. -/
structure Tracks (lost : ν → Prop) (τ : Nat) (M : ν → Option α) : Prop where
  known : ∀ i m,LiveAt s c i m → m.version≤τ → M m.name=some (tag m.version)
  reason : ∀ h,M h≠none → Named s c h ∨ Buried s c τ h ∨ lost h

def Mirrors (M : ν → Option α) : Prop :=
  ∀ h x,M h=some x ↔ ∃ i m,LiveAt s c i m ∧ m.name=h ∧ tag m.version=x

def Reports (τ : Nat) (resp : List (ν×Option α)) : Prop :=
  ∀ p,p∈resp ↔
    (∃ i m,LiveAt s c i m ∧ τ < m.version ∧ p=(m.name,some (tag m.version))) ∨
      (Buried s c τ p.1 ∧ p.2=none)

/-- Live names are distinct and have no tombstone past the token, and what was lost is back. -/
structure Settled (lost : ν → Prop) (τ : Nat) : Prop where
  distinct : DistinctIn s c
  unburied : ∀ h,Named s c h → ¬Buried s c τ h
  back : ∀ h,lost h → Named s c h

variable {tag s c} {lost lost' : ν → Prop} {τ : Nat} {M : ν → Option α}

section Response

variable [DecidableEq ν]

variable {resp : List (ν×Option α)}

theorem Settled.patch_live (hs : Settled s c lost τ) (ht : Tracks tag s c lost τ M)
    (hr : Reports tag s c τ resp) {i : ι} {m : Member κ ν} (hm : LiveAt s c i m) :
    patch M resp m.name=some (tag m.version) := by
  have hone : ∀ p∈resp,p.1=m.name → p.2=some (tag m.version) := by
    intro p hp hn
    rcases (hr p).mp hp with ⟨j,m',hm',-,rfl⟩ | ⟨hb,-⟩
    · obtain rfl := hs.distinct j i m' m hm' hm hn
      obtain rfl := Option.some.inj (hm'.item.symm.trans hm.item)
      rfl
    · exact absurd (hn ▸ hb) (hs.unburied m.name ⟨i,m,hm,rfl⟩)
  by_cases hv : m.version≤τ
  · by_cases hin : (m.name,some (tag m.version))∈resp
    · exact patch_of_mem hin hone
    · have hout : ∀ p∈resp,p.1≠m.name := by
        intro p hp hn
        exact hin (by rw [← hn,← hone p hp hn]; exact hp)
      rw [patch_of_not_mem hout]
      exact ht.known i m hm hv
  · exact patch_of_mem ((hr _).mpr (.inl ⟨i,m,hm,Nat.lt_of_not_le hv,rfl⟩)) hone

theorem Settled.patch_gone (hs : Settled s c lost τ) (ht : Tracks tag s c lost τ M)
    (hr : Reports tag s c τ resp) {h : ν} (hn : ¬Named s c h) : patch M resp h=none := by
  have hone : ∀ p∈resp,p.1=h → p.2=none := by
    intro p hp he
    rcases (hr p).mp hp with ⟨j,m,hm,-,rfl⟩ | ⟨-,hnone⟩
    · exact absurd ⟨j,m,hm,he⟩ hn
    · exact hnone
  by_cases hin : (h,none)∈resp
  · exact patch_of_mem hin hone
  · have hout : ∀ p∈resp,p.1≠h := by
      intro p hp he
      exact hin (by rw [← he,← hone p hp he]; exact hp)
    rw [patch_of_not_mem hout]
    by_contra hM
    rcases ht.reason h hM with hl | hb | hl
    · exact hn hl
    · exact hin ((hr _).mpr (.inr ⟨hb,rfl⟩))
    · exact hn (hs.back h hl)

theorem Settled.mirrors (hs : Settled s c lost τ) (ht : Tracks tag s c lost τ M)
    (hr : Reports tag s c τ resp) : Mirrors tag s c (patch M resp) := by
  intro h x
  constructor
  · intro hx
    by_cases hn : Named s c h
    · obtain ⟨i,m,hm,rfl⟩ := hn
      rw [hs.patch_live ht hr hm] at hx
      exact ⟨i,m,hm,rfl,Option.some.inj hx⟩
    · rw [hs.patch_gone ht hr hn] at hx
      cases hx
  · rintro ⟨i,m,hm,rfl,rfl⟩
    exact hs.patch_live ht hr hm

end Response

theorem Mirrors.tracks (h : Mirrors tag s c M) (τ : Nat) : Tracks tag s c lost τ M := by
  refine ⟨fun i m hm _ => (h m.name _).mpr ⟨i,m,hm,rfl,rfl⟩,fun n hn => ?_⟩
  obtain ⟨x,hx⟩ := Option.ne_none_iff_exists'.mp hn
  obtain ⟨i,m,hm,he,-⟩ := (h n x).mp hx
  exact .inl ⟨i,m,hm,he⟩

def Edit.Follows (s : ι → Option (Member κ ν)) (c : κ) (lost : ν → Prop) (τ : Nat) :
    Edit ι κ ν → Prop
  | .create i _ _ => s i=none
  | .rename i name => ∀ m,s i=some m → m.name=name
  | .restore i coll => ∀ m,s i=some m → m.coll=c → coll=c ∨ (m.deleted=true ∧ m.version≤τ)
  | .remove i => ∀ m,s i=some m → m.coll=c → (m.deleted=true ∧ m.version≤τ) ∨ lost m.name
  | _ => True

variable [DecidableEq ι] {v : Nat} {e : Edit ι κ ν}

theorem Edit.Follows.answers (he : e.Follows s c lost τ) (hv : τ<v) {m : Member κ ν}
    (hm : s e.target=some m) (hc : m.coll=c) (hd : m.deleted=true → τ < m.version) :
    Named (e.apply v s) c m.name ∨ Buried (e.apply v s) c τ m.name ∨ lost m.name := by
  have hat := Edit.apply_target v e s
  cases e with
  | create i coll name => cases hm.symm.trans he
  | touch i =>
    rw [hm] at hat
    cases hdel : m.deleted with
    | false => exact .inl ⟨i,_,⟨hat,hc,hdel⟩,rfl⟩
    | true => exact .inr (.inl ⟨i,_,hat,hc,hdel,rfl,hv⟩)
  | rename i name =>
    rw [hm] at hat
    have hn : m.name=name := he m hm
    cases hdel : m.deleted with
    | false => exact .inl ⟨i,_,⟨hat,hc,hdel⟩,hn.symm⟩
    | true => exact .inr (.inl ⟨i,_,hat,hc,hdel,hn.symm,hv⟩)
  | flag i =>
    rw [hm] at hat
    exact .inr (.inl ⟨i,_,hat,hc,rfl,rfl,hv⟩)
  | restore i coll =>
    rw [hm] at hat
    rcases he m hm hc with hcoll | ⟨hdel,hold⟩
    · exact .inl ⟨i,_,⟨hat,hcoll,rfl⟩,rfl⟩
    · exact absurd (hd hdel) (Nat.not_lt.mpr hold)
  | remove i =>
    rcases he m hm hc with ⟨hdel,hold⟩ | hl
    · exact absurd (hd hdel) (Nat.not_lt.mpr hold)
    · exact .inr (.inr hl)

theorem Tracks.apply (h : Tracks tag s c lost τ M) (hv : τ<v) (he : e.Follows s c lost' τ)
    (hl : ∀ n,lost n → lost' n ∨ Named (e.apply v s) c n) :
    Tracks tag (e.apply v s) c lost' τ M := by
  have hanswer : ∀ i m,s i=some m → m.coll=c → (m.deleted=true → τ < m.version) →
      Named (e.apply v s) c m.name ∨ Buried (e.apply v s) c τ m.name ∨ lost' m.name := by
    intro i m hm hc hd
    by_cases hi : i=e.target
    · exact he.answers hv (hi ▸ hm) hc hd
    · have hat := (Edit.apply_of_ne (v := v) hi).trans hm
      cases hdel : m.deleted with
      | false => exact .inl ⟨i,m,⟨hat,hc,hdel⟩,rfl⟩
      | true => exact .inr (.inl ⟨i,m,hat,hc,hdel,rfl,hd hdel⟩)
  refine ⟨fun i m hm hold => ?_,fun n hn => ?_⟩
  · rcases Edit.apply_eq_some hm.item with ⟨-,hs⟩ | ⟨-,-,hnew⟩
    · exact h.known i m ⟨hs,hm.coll,hm.live⟩ hold
    · exact absurd hv (Nat.not_lt.mpr (hnew ▸ hold))
  · rcases h.reason n hn with ⟨i,m,hm,rfl⟩ | ⟨i,m,hm,hc,hd,rfl,hv'⟩ | hlost
    · exact hanswer i m hm.item hm.coll fun hd => by rw [hm.live] at hd; cases hd
    · exact hanswer i m hm hc fun _ => hv'
    · exact (hl n hlost).elim (fun hn => .inr (.inr hn)) .inl

end Replica
end HermEX.Framework
