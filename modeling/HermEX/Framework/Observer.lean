import HermEX.Framework.Runs
import HermEX.Framework.Table

namespace HermEX.Framework

section Answers

variable {σ α β : Type}

def answers (step : σ → α → β×σ) : σ → List α → List β
  | _,[] => []
  | s,x::xs => (step s x).1::answers step (step s x).2 xs

def abreast (step : σ → α → β×σ) (p : σ×σ) (x : α) : σ×σ := ((step p.1 x).2,(step p.2 x).2)

theorem answers_eq {step : σ → α → β×σ} {R : σ → σ → Prop} {C : σ×σ → α → Prop}
    (hstep : ∀ s t x,R s t → C (s,t) x → (step s x).1=(step t x).1 ∧ R (step s x).2 (step t x).2)
    {s t : σ} {xs : List α} (hst : R s t) (h : Meets (abreast step) C (s,t) xs) :
    answers step s xs=answers step t xs := by
  induction xs generalizing s t with
  | nil => simp [answers]
  | cons x xs ih =>
    obtain ⟨hout,hnext⟩ := hstep s t x hst h.1
    have htail := ih hnext h.2
    simp [answers,hout,htail]

end Answers

namespace Table

variable {κ α : Type} {key : α → κ} {p : α → Bool}

def AgreeOn (p : α → Bool) (t t' : Table key) : Prop := t.rows.filter p=t'.rows.filter p

variable {t t' : Table key}

theorem AgreeOn.symm (h : AgreeOn p t t') : AgreeOn p t' t := Eq.symm h

theorem AgreeOn.mem (h : AgreeOn p t t') {r : α} (hp : p r=true) (hr : r∈t) : r∈t' := by
  have hmem : r∈t.rows.filter p := List.mem_filter.mpr ⟨hr,hp⟩
  rw [h] at hmem
  exact (List.mem_filter.mp hmem).1

theorem AgreeOn.filter (h : AgreeOn p t t') {q : α → Bool} (hq : ∀ r,q r=true → p r=true) :
    t.rows.filter q=t'.rows.filter q := by
  have hsub : ∀ xs : List α,xs.filter q=(xs.filter p).filter q := by
    intro xs
    rw [List.filter_filter]
    apply List.filter_congr
    intro r _
    cases hr : q r with
    | false => simp
    | true => simp [hq r hr]
  rw [hsub,hsub t'.rows,h]

theorem AgreeOn.get [DecidableEq κ] (h : AgreeOn p t t') {k : κ}
    (ht : ∀ r,t.get k=some r → p r=true) (ht' : ∀ r,t'.get k=some r → p r=true) :
    t.get k=t'.get k := by
  cases hg : t.get k with
  | some r =>
    obtain ⟨hr,hk⟩ := get_eq_some.mp hg
    have hr' := h.mem (ht r hg) hr
    exact (get_eq_some.mpr ⟨hr',hk⟩).symm
  | none =>
    cases hg' : t'.get k with
    | none => rfl
    | some r =>
      obtain ⟨hr,hk⟩ := get_eq_some.mp hg'
      have hr' := h.symm.mem (ht' r hg') hr
      exact absurd hk (get_eq_none.mp hg r hr')

end Table
end HermEX.Framework
