import Mathlib.Data.List.Basic

namespace HermEX.Framework

/-- A read into `n` bytes gives data and an error; `size` bounds the pieces. -/
structure Source (σ α ε : Type) where
  read : σ → Nat → (List α×Option ε)×σ
  size : σ → Nat

namespace Source

variable {σ α ε τ : Type}

def pump (R : Source σ α ε) (n : Nat) : Nat → σ → (List α×Option ε)×σ
  | 0,s => (([],none),s)
  | k+1,s =>
    match R.read s n with
    | ((b,some e),s') => ((b,some e),s')
    | ((b,none),s') => ((b++(pump R n k s').1.1,(pump R n k s').1.2),(pump R n k s').2)

def readAll (R : Source σ α ε) (n : Nat) (s : σ) : (List α×Option ε)×σ := R.pump n (R.size s+1) s

/-- What reading `s` gives, the error that ends it and the rest. -/
structure Delivers (R : Source σ α ε) (rest : σ → τ) (view : σ → List α×ε×τ) : Prop where
  more {s s' : σ} {n : Nat} {b : List α} (h : R.read s n=((b,none),s')) :
    view s=(b++(view s').1,(view s').2) ∧ b.length≤n ∧ (0<n → R.size s'<R.size s)
  stop {s s' : σ} {n : Nat} {b : List α} {e : ε} (h : R.read s n=((b,some e),s')) :
    b=[] ∧ view s=([],e,rest s') ∧ view s'=view s

variable {R : Source σ α ε} {rest : σ → τ} {view : σ → List α×ε×τ}

theorem Delivers.pump (h : Delivers R rest view) {n : Nat} (hn : 0<n) (k : Nat) (s : σ)
    (hk : R.size s<k) :
    (R.pump n k s).1=((view s).1,some (view s).2.1) ∧
      rest (R.pump n k s).2=(view s).2.2 ∧ view (R.pump n k s).2=([],(view s).2) := by
  induction k generalizing s with
  | zero => omega
  | succ k ih =>
    cases hr : R.read s n with
    | mk p s' =>
      obtain ⟨b,o⟩ := p
      cases o with
      | none =>
        obtain ⟨hv,-,hlt⟩ := h.more hr
        have hsize : R.size s'<k := by have := hlt hn; omega
        obtain ⟨hall,hrest,hview⟩ := ih s' hsize
        simp only [Source.pump,hr,hv,hall]
        exact ⟨trivial,hrest,hview⟩
      | some e =>
        obtain ⟨hb,hv,hv'⟩ := h.stop hr
        simp [Source.pump,hr,hb,hv',hv]

theorem Delivers.readAll (h : Delivers R rest view) {n : Nat} (hn : 0<n) (s : σ) :
    (R.readAll n s).1=((view s).1,some (view s).2.1) ∧
      rest (R.readAll n s).2=(view s).2.2 ∧ view (R.readAll n s).2=([],(view s).2) :=
  h.pump hn _ s (Nat.lt_succ_self _)

def reads (R : Source σ α ε) : List Nat → σ → Option ε
  | [],_ => none
  | n::ns,s => (R.read s n).1.2.or (reads R ns (R.read s n).2)

theorem Delivers.reads (h : Delivers R rest view) {ns : List Nat} (hns : ∀ n∈ns,0<n) {s : σ}
    (hlen : R.size s<ns.length) : R.reads ns s=some (view s).2.1 := by
  induction ns generalizing s with
  | nil => cases hlen
  | cons n ns ih =>
    rw [List.length_cons] at hlen
    cases hr : R.read s n with
    | mk p s' =>
      obtain ⟨b,o⟩ := p
      cases o with
      | some e => simp [Source.reads,hr,(h.stop hr).2.1]
      | none =>
        obtain ⟨hv,-,hlt⟩ := h.more hr
        have hsize : R.size s'<R.size s := hlt (hns n (by simp))
        simp [Source.reads,hr,hv,ih (fun k hk => hns k (by simp [hk])) (show R.size s'<ns.length by omega)]

def after (R : Source σ α ε) : Source (List α×σ) α ε where
  read s n :=
    match s.1 with
    | [] => ((R.read s.2 n).1,([],(R.read s.2 n).2))
    | a::as => (((a::as).take n,none),((a::as).drop n,s.2))
  size s := s.1.length+R.size s.2

theorem Delivers.after (h : Delivers R rest view) :
    Delivers R.after (fun s => rest s.2) fun s => (s.1++(view s.2).1,(view s.2).2) where
  more {s s' n b} hr := by
    obtain ⟨pre,t⟩ := s
    cases pre with
    | nil =>
      simp only [Source.after,Prod.mk.injEq] at hr
      obtain ⟨hr,rfl⟩ := hr
      obtain ⟨hv,hlen,hlt⟩ := h.more (Prod.ext hr rfl)
      simp only [List.length_nil,Nat.zero_add,Source.after]
      exact ⟨hv,hlen,hlt⟩
    | cons a as =>
      obtain ⟨rfl,rfl⟩ := hr
      refine ⟨by rw [← List.append_assoc,List.take_append_drop],List.length_take_le _ _,
        fun hn => ?_⟩
      simp only [Source.after,List.length_drop,List.length_cons]
      omega
  stop {s s' n b e} hr := by
    obtain ⟨pre,t⟩ := s
    cases pre with
    | nil =>
      simp only [Source.after,Prod.mk.injEq] at hr
      obtain ⟨hr,rfl⟩ := hr
      obtain ⟨hb,hv,hv'⟩ := h.stop (Prod.ext hr rfl)
      exact ⟨hb,hv,hv'⟩
    | cons a as => simp [Source.after] at hr

end Source
end HermEX.Framework
