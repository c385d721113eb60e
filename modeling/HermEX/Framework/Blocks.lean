import Mathlib.Logic.Function.Basic
import Mathlib.Order.Nat

namespace HermEX.Framework

/-- Blocks of numbers to hand out; nothing past `ceil` is carved. -/
structure Blocks (ι : Type) where
  ceil : Nat
  block : ι → Nat×Nat

namespace Blocks

variable {ι : Type}

def Holds (b : Blocks ι) (i : ι) (x : Nat) : Prop := (b.block i).1≤x ∧ x<(b.block i).2

def Avoids (b : Blocks ι) (S : ι → Prop) (x : Nat) : Prop := x≤b.ceil ∧ ∀ i,S i → ¬b.Holds i x

/-- Each number has at most one owner, none past the ceiling. -/
structure Disjoint (b : Blocks ι) : Prop where
  under : ∀ i x,b.Holds i x → x≤b.ceil
  unique : ∀ i j x,b.Holds i x → b.Holds j x → i=j

/-- What owners hold they held before, or it was carved since. -/
structure Advance (b b' : Blocks ι) : Prop where
  ceil : b.ceil≤b'.ceil
  block : ∀ i x,b'.Holds i x → b.Holds i x ∨ b.ceil<x

variable {b : Blocks ι} {S : ι → Prop} {x lo : Nat}

theorem Advance.refl (b : Blocks ι) : Advance b b := ⟨Nat.le_refl _,fun _ _ h => .inl h⟩

theorem Advance.trans {a c : Blocks ι} (h : Advance a b) (k : Advance b c) : Advance a c := by
  refine ⟨h.ceil.trans k.ceil,?_⟩
  intro i x hx
  rcases k.block i x hx with hx | hx
  · exact h.block i x hx
  · exact .inr (Nat.lt_of_le_of_lt h.ceil hx)

theorem Avoids.advance {b' : Blocks ι} (h : b.Avoids S x) (ha : Advance b b') : b'.Avoids S x := by
  refine ⟨h.1.trans ha.ceil,?_⟩
  intro i hi hx
  rcases ha.block i x hx with hx | hx
  · exact h.2 i hi hx
  · exact absurd h.1 (Nat.not_le.mpr hx)

def raise (b : Blocks ι) (n : Nat) : Blocks ι := {b with ceil:=b.ceil+n}

theorem raise_advance (b : Blocks ι) (n : Nat) : Advance b (b.raise n) :=
  ⟨Nat.le_add_right _ _,fun _ _ h => .inl h⟩

theorem Disjoint.raise (h : b.Disjoint) (n : Nat) : (b.raise n).Disjoint :=
  ⟨fun i x hx => (h.under i x hx).trans (Nat.le_add_right _ _),h.unique⟩

variable [DecidableEq ι] {i : ι}

def setBlock (b : Blocks ι) (i : ι) (lo hi : Nat) : Blocks ι :=
  {b with block:=Function.update b.block i (lo,hi)}

theorem holds_setBlock_self {hi : Nat} : (b.setBlock i lo hi).Holds i x ↔ lo≤x ∧ x<hi := by
  simp [Holds,setBlock]

theorem holds_setBlock_ne {j : ι} {hi : Nat} (h : j≠i) :
    (b.setBlock i lo hi).Holds j x ↔ b.Holds j x := by
  simp [Holds,setBlock,h]

theorem setBlock_advance {b₀ : Blocks ι} (h : Advance b₀ b) (i : ι) (lo hi : Nat)
    (hb : ∀ x,lo≤x → x<hi → b₀.Holds i x ∨ b₀.ceil<x) : Advance b₀ (b.setBlock i lo hi) := by
  refine ⟨h.ceil,?_⟩
  intro j x hx
  by_cases hj : j=i
  · subst hj
    obtain ⟨hlo,hhi⟩ := holds_setBlock_self.mp hx
    exact hb x hlo hhi
  · exact h.block j x ((holds_setBlock_ne hj).mp hx)

theorem Disjoint.setBlock (h : b.Disjoint) (i : ι) (lo hi : Nat) (hu : ∀ x,lo≤x → x<hi → x≤b.ceil)
    (hn : ∀ x,lo≤x → x<hi → ∀ j,j≠i → ¬b.Holds j x) : (b.setBlock i lo hi).Disjoint := by
  constructor
  · intro j x hx
    by_cases hj : j=i
    · subst hj
      obtain ⟨hlo,hhi⟩ := holds_setBlock_self.mp hx
      exact hu x hlo hhi
    · exact h.under j x ((holds_setBlock_ne hj).mp hx)
  · intro j k x hx hy
    by_cases hj : j=i <;> by_cases hk : k=i
    · rw [hj,hk]
    · subst hj
      obtain ⟨hlo,hhi⟩ := holds_setBlock_self.mp hx
      exact absurd ((holds_setBlock_ne hk).mp hy) (hn x hlo hhi k hk)
    · subst hk
      obtain ⟨hlo,hhi⟩ := holds_setBlock_self.mp hy
      exact absurd ((holds_setBlock_ne hj).mp hx) (hn x hlo hhi j hj)
    · exact h.unique j k x ((holds_setBlock_ne hj).mp hx) ((holds_setBlock_ne hk).mp hy)

def narrow (b : Blocks ι) (i : ι) (lo : Nat) : Blocks ι := b.setBlock i lo (b.block i).2

theorem narrow_advance (h : (b.block i).1≤lo) : Advance b (b.narrow i lo) :=
  setBlock_advance (.refl b) i lo _ fun _ hlo hhi => .inl ⟨h.trans hlo,hhi⟩

theorem Disjoint.narrow (hd : b.Disjoint) (h : (b.block i).1≤lo) :
    (b.narrow i lo).Disjoint := by
  apply hd.setBlock
  · intro x hlo hhi
    exact hd.under i x ⟨h.trans hlo,hhi⟩
  · intro x hlo hhi j hj hx
    exact hj (hd.unique j i x hx ⟨h.trans hlo,hhi⟩)

theorem narrow_avoids (hx : x≤b.ceil) (h : ∀ j,S j → j≠i → ¬b.Holds j x) :
    (b.narrow i (x+1)).Avoids S x := by
  refine ⟨hx,?_⟩
  intro j hj hh
  by_cases he : j=i
  · subst he
    have := (holds_setBlock_self.mp hh).1
    omega
  · exact h j hj he ((holds_setBlock_ne he).mp hh)

def carve (b : Blocks ι) (n : Nat) (i : ι) : Blocks ι :=
  (b.raise n).setBlock i (b.ceil+1) (b.ceil+n)

theorem carve_advance (b : Blocks ι) (n : Nat) (i : ι) : Advance b (b.carve n i) :=
  setBlock_advance (b.raise_advance n) i _ _ fun _ hlo _ => .inr hlo

theorem Disjoint.carve (h : b.Disjoint) (n : Nat) (i : ι) : (b.carve n i).Disjoint := by
  apply (h.raise n).setBlock
  · intro x _ hhi
    exact Nat.le_of_lt hhi
  · intro x hlo _ j _ hx
    have := h.under j x hx
    omega

def take (n : Nat) (b : Blocks ι) (i : ι) : Nat×Blocks ι :=
  if (b.block i).2≤(b.block i).1 then (b.ceil+1,(b.carve n i).narrow i (b.ceil+2))
  else ((b.block i).1,b.narrow i ((b.block i).1+1))

theorem carve_start (b : Blocks ι) (n : Nat) (i : ι) : ((b.carve n i).block i).1≤b.ceil+2 := by
  simp [carve,setBlock]

theorem take_advance (n : Nat) (b : Blocks ι) (i : ι) : Advance b (b.take n i).2 := by
  unfold take
  split_ifs
  · exact (b.carve_advance n i).trans (narrow_advance (b.carve_start n i))
  · exact narrow_advance (Nat.le_succ _)

theorem Disjoint.take (h : b.Disjoint) (n : Nat) (i : ι) : (b.take n i).2.Disjoint := by
  unfold Blocks.take
  split_ifs
  · exact (h.carve n i).narrow (b.carve_start n i)
  · exact h.narrow (Nat.le_succ _)

theorem take_ne {n : Nat} (hi : S i) (h : b.Avoids S x) : x≠(b.take n i).1 := by
  unfold take
  split_ifs with hc
  · have := h.1
    omega
  · intro he
    exact h.2 i hi ⟨he.ge,by omega⟩

theorem take_avoids {n : Nat} (hn : 0<n) (h : b.Disjoint) (S : ι → Prop) (i : ι) :
    (b.take n i).2.Avoids S (b.take n i).1 := by
  unfold take
  split_ifs with hc
  · apply narrow_avoids
    · change b.ceil+1≤b.ceil+n
      omega
    · intro j _ hj hx
      have := h.under j _ ((holds_setBlock_ne hj).mp hx)
      omega
  · have hown : b.Holds i (b.block i).1 := ⟨Nat.le_refl _,by omega⟩
    apply narrow_avoids (h.under i _ hown)
    intro j _ hj hx
    exact hj (h.unique j i _ hx hown)

end Blocks
end HermEX.Framework
