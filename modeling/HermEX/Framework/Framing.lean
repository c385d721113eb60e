import Mathlib.Data.List.Basic

namespace HermEX.Framework

/-- The complete words, and the inputs that wait for more. -/
structure Frame (β : Type) where
  whole : List β → Prop
  part : List β → Prop

namespace Frame

variable {β : Type} {F : Frame β}

def empty : Frame β := ⟨fun w => w=[],fun _ => False⟩

def stuck : Frame β := ⟨fun _ => False,fun _ => True⟩

def refused : Frame β := ⟨fun _ => False,fun _ => False⟩

def head (k : Nat) (G : List β → Frame β) : Frame β where
  whole w := k≤w.length ∧ (G (w.take k)).whole (w.drop k)
  part t := t.length<k ∨ (k≤t.length ∧ (G (t.take k)).part (t.drop k))

def fixed (k : Nat) : Frame β := head k (fun _ => empty)

def seq (F G : Frame β) : Frame β where
  whole w := ∃ u v,w=u++v ∧ F.whole u ∧ G.whole v
  part t := F.part t ∨ ∃ u v,t=u++v ∧ F.whole u ∧ G.part v

def times (F : Frame β) : Nat → Frame β
  | 0 => empty
  | n+1 => F.seq (F.times n)

def Framed (F : Frame β) (b : List β) : Prop :=
  ∃ ws t,b=List.flatten ws++t ∧ (∀ w∈ws,F.whole w) ∧ F.part t

theorem framed_of_part {t : List β} (h : F.part t) : F.Framed t :=
  ⟨[],t,by simp,by simp,h⟩

theorem framed_append {w b : List β} (hw : F.whole w) (hb : F.Framed b) :
    F.Framed (w++b) := by
  obtain ⟨ws,t,rfl,hws,ht⟩ := hb
  refine ⟨w::ws,t,by simp,?_,ht⟩
  intro x hx
  rcases List.mem_cons.mp hx with rfl | hx
  · exact hw
  · exact hws x hx

theorem times_whole_length {k : Nat} (hk : ∀ w,F.whole w → k≤w.length) (n : Nat) (w : List β)
    (hw : (F.times n).whole w) : k*n≤w.length := by
  induction n generalizing w with
  | zero => simp
  | succ n ih =>
    obtain ⟨u,v,rfl,hu,hv⟩ := hw
    have h1 := hk u hu
    have h2 := ih v hv
    rw [List.length_append,Nat.mul_succ]
    omega

end Frame

/-- The reader takes the words; a short read is an unfinished one. -/
structure Reads {β α : Type} (F : Frame β) (r : List β → Option (α×List β)) : Prop where
  whole : ∀ w,F.whole w → ∃ a,∀ t,r (w++t)=some (a,t)
  part : ∀ t,F.part t → r t=none
  some_inv : ∀ b a t,r b=some (a,t) → ∃ w,b=w++t ∧ F.whole w
  none_inv : ∀ b,r b=none → F.part b

namespace Reads

variable {β α γ : Type} {r : List β → Option (α×List β)}

theorem empty (a : α) : Reads (Frame.empty : Frame β) (fun b => some (a,b)) where
  whole w hw := ⟨a,by rintro t; rw [show w=[] from hw]; rfl⟩
  part _ h := h.elim
  some_inv b x t h := by
    have ht : b=t := (Prod.mk.inj (Option.some.inj h)).2
    exact ⟨[],by simp [ht],rfl⟩
  none_inv b h := by simp at h

theorem stuck : Reads (Frame.stuck : Frame β) (fun _ => (none : Option (α×List β))) where
  whole _ h := h.elim
  part _ _ := rfl
  some_inv b a t h := by simp at h
  none_inv _ _ := trivial

theorem head {k : Nat} {G : List β → Frame β} {r : List β → List β → Option (α×List β)}
    (h : ∀ x,x.length=k → Reads (G x) (r x)) :
    Reads (Frame.head k G) (fun b => if k≤b.length then r (b.take k) (b.drop k) else none) where
  whole w hw := by
    obtain ⟨hk,hw⟩ := hw
    obtain ⟨a,ha⟩ := (h (w.take k) (by simp [hk])).whole _ hw
    refine ⟨a,fun t => ?_⟩
    have hl : k≤(w++t).length := by rw [List.length_append]; omega
    rw [if_pos hl,List.take_append_of_le_length hk,List.drop_append_of_le_length hk]
    exact ha t
  part t ht := by
    rcases ht with ht | ⟨hk,ht⟩
    · rw [if_neg (by omega)]
    · rw [if_pos hk]
      exact (h (t.take k) (by simp [hk])).part _ ht
  some_inv b a t hb := by
    by_cases hk : k≤b.length
    · rw [if_pos hk] at hb
      obtain ⟨w,hw,hG⟩ := (h (b.take k) (by simp [hk])).some_inv _ a t hb
      have hlen : (b.take k).length=k := by simp [hk]
      refine ⟨b.take k++w,?_,?_,?_⟩
      · rw [List.append_assoc,← hw,List.take_append_drop]
      · rw [List.length_append,hlen]; omega
      · rw [List.take_append_of_le_length (by omega),List.drop_append_of_le_length (by omega),
          List.take_of_length_le (by omega),List.drop_of_length_le (by omega)]
        exact hG
    · rw [if_neg hk] at hb
      simp at hb
  none_inv b hb := by
    by_cases hk : k≤b.length
    · rw [if_pos hk] at hb
      exact .inr ⟨hk,(h (b.take k) (by simp [hk])).none_inv _ hb⟩
    · exact .inl (by omega)

theorem seq {F G : Frame β} {q : α → List β → Option (γ×List β)} (hr : Reads F r)
    (hq : ∀ a,Reads G (q a)) :
    Reads (F.seq G) (fun b => (r b).bind fun x => q x.1 x.2) where
  whole w hw := by
    obtain ⟨u,v,rfl,hu,hv⟩ := hw
    obtain ⟨a,ha⟩ := hr.whole u hu
    obtain ⟨c,hc⟩ := (hq a).whole v hv
    exact ⟨c,fun t => by simp [ha,hc]⟩
  part t ht := by
    rcases ht with ht | ⟨u,v,rfl,hu,hv⟩
    · simp [hr.part t ht]
    · obtain ⟨a,ha⟩ := hr.whole u hu
      simp [ha,(hq a).part v hv]
  some_inv b c t hb := by
    obtain ⟨⟨a,m⟩,hm,hc⟩ := Option.bind_eq_some_iff.mp hb
    obtain ⟨u,rfl,hu⟩ := hr.some_inv b a m hm
    obtain ⟨v,rfl,hv⟩ := (hq a).some_inv m c t hc
    exact ⟨u++v,by simp,u,v,rfl,hu,hv⟩
  none_inv b hb := by
    cases hm : r b with
    | none => exact .inl (hr.none_inv b hm)
    | some x =>
      obtain ⟨a,m⟩ := x
      obtain ⟨u,rfl,hu⟩ := hr.some_inv b a m hm
      rw [hm] at hb
      exact .inr ⟨u,m,rfl,hu,(hq a).none_inv m hb⟩

theorem map {F : Frame β} (hr : Reads F r) (f : α → γ) :
    Reads F (fun b => (r b).map fun x => (f x.1,x.2)) where
  whole w hw := by
    obtain ⟨a,ha⟩ := hr.whole w hw
    exact ⟨f a,fun t => by simp [ha]⟩
  part t ht := by simp [hr.part t ht]
  some_inv b c t hb := by
    obtain ⟨⟨a,m⟩,hm,hc⟩ := Option.map_eq_some_iff.mp hb
    obtain ⟨-,rfl⟩ := Prod.mk.inj hc
    exact hr.some_inv b a m hm
  none_inv b hb := hr.none_inv b (by simpa using hb)

end Reads

inductive Outcome (ε α : Type) where
  | more
  | fail (e : ε)
  | done (a : α) (n : Nat)
deriving DecidableEq

namespace Outcome

variable {ε α γ : Type}

def ofRead {β : Type} (b : List β) : Option (α×List β) → Outcome ε α
  | none => more
  | some x => done x.1 (b.length-x.2.length)

def map (f : α → γ) : Outcome ε α → Outcome ε γ
  | more => more
  | fail e => fail e
  | done a n => done (f a) n

def after (k : Nat) : Outcome ε α → Outcome ε α
  | more => more
  | fail e => fail e
  | done a n => done a (k+n)

def seq {β : Type} (b : List β) (r : Option (γ×List β)) (d : γ → List β → Outcome ε α) :
    Outcome ε α :=
  match r with
  | none => more
  | some x => (d x.1 x.2).after (b.length-x.2.length)

end Outcome

/-- Words are taken, unfinished ones wait, all else is refused. -/
structure Decodes {β ε α : Type} (F : Frame β) (d : List β → Outcome ε α) : Prop where
  whole : ∀ w,F.whole w → ∃ a,∀ t,d (w++t)=.done a w.length
  part : ∀ t,F.part t → d t=.more
  done_inv : ∀ b a n,d b=.done a n → ∃ w t,b=w++t ∧ n=w.length ∧ F.whole w
  more_inv : ∀ b,d b=.more → F.part b

attribute [local simp] Outcome.after Outcome.map

namespace Decodes

variable {β ε α γ : Type} {F : Frame β} {r : List β → Option (γ×List β)}
  {d : γ → List β → Outcome ε α}

theorem refused (e : ε) : Decodes (Frame.refused : Frame β)
    (fun _ => (.fail e : Outcome ε α)) where
  whole _ h := h.elim
  part _ h := h.elim
  done_inv b a n h := by simp at h
  more_inv b h := by simp at h

theorem of_reads {r : List β → Option (α×List β)} (hr : Reads F r) :
    Decodes F (fun b => (.ofRead b (r b) : Outcome ε α)) where
  whole w hw := by
    obtain ⟨a,ha⟩ := hr.whole w hw
    exact ⟨a,fun t => by simp [ha,Outcome.ofRead]⟩
  part t ht := by simp [hr.part t ht,Outcome.ofRead]
  done_inv b a n h := by
    cases hb : r b with
    | none => simp [hb,Outcome.ofRead] at h
    | some x =>
      obtain ⟨w,hw,hF⟩ := hr.some_inv b x.1 x.2 hb
      simp only [hb,Outcome.ofRead,Outcome.done.injEq] at h
      refine ⟨w,x.2,hw,?_,hF⟩
      rw [← h.2,hw,List.length_append]
      omega
  more_inv b h := by
    cases hb : r b with
    | none => exact hr.none_inv b hb
    | some x => simp [hb,Outcome.ofRead] at h

theorem map {d : List β → Outcome ε α} (hd : Decodes F d) (f : α → γ) :
    Decodes F (fun b => (d b).map f) where
  whole w hw := by
    obtain ⟨a,ha⟩ := hd.whole w hw
    exact ⟨f a,fun t => by simp [ha]⟩
  part t ht := by simp [hd.part t ht]
  done_inv b c n h := by
    cases he : d b with
    | more | fail e => simp [he] at h
    | done a m =>
      simp only [he,Outcome.map,Outcome.done.injEq] at h
      exact hd.done_inv b a n (h.2 ▸ he)
  more_inv b h := by
    cases he : d b with
    | more => exact hd.more_inv b he
    | fail e | done a m => simp [he] at h

theorem head {k : Nat} {G : List β → Frame β}
    {f : List β → γ}
    (hr : ∀ b,r b=if k≤b.length then some (f (b.take k),b.drop k) else none)
    (h : ∀ x,x.length=k → Decodes (G x) (d (f x))) :
    Decodes (Frame.head k G) (fun b => .seq b (r b) d) := by
  have hlong (b : List β) (hk : k≤b.length) :
      Outcome.seq b (r b) d=(d (f (b.take k)) (b.drop k)).after k := by
    rw [hr,if_pos hk]
    simp only [Outcome.seq,List.length_drop]
    rw [Nat.sub_sub_self hk]
  have hshort (b : List β) (hk : ¬k≤b.length) : Outcome.seq b (r b) d=.more := by
    rw [hr,if_neg hk]
    rfl
  constructor
  · rintro w ⟨hk,hw⟩
    obtain ⟨a,ha⟩ := (h (w.take k) (by simp [hk])).whole _ hw
    refine ⟨a,fun t => ?_⟩
    rw [hlong _ (by rw [List.length_append]; omega),List.take_append_of_le_length hk,
      List.drop_append_of_le_length hk,ha t]
    simp only [Outcome.after,List.length_drop,Outcome.done.injEq,true_and]
    omega
  · rintro t (ht | ⟨hk,ht⟩)
    · exact hshort t (by omega)
    · rw [hlong t hk,(h (t.take k) (by simp [hk])).part _ ht]
      rfl
  · intro b a n hb
    by_cases hk : k≤b.length
    · rw [hlong b hk] at hb
      cases hd : d (f (b.take k)) (b.drop k) with
      | more | fail e => simp [hd] at hb
      | done c m =>
        obtain ⟨w,t,hw,rfl,hG⟩ := (h (b.take k) (by simp [hk])).done_inv _ c m hd
        simp only [hd,Outcome.after,Outcome.done.injEq] at hb
        have hlen : (b.take k).length=k := by simp [hk]
        refine ⟨b.take k++w,t,?_,?_,?_,?_⟩
        · rw [List.append_assoc,← hw,List.take_append_drop]
        · rw [List.length_append,hlen,hb.2]
        · rw [List.length_append,hlen]; omega
        · rw [List.take_append_of_le_length (by omega),
            List.drop_append_of_le_length (by omega),
            List.take_of_length_le (by omega),List.drop_of_length_le (by omega)]
          exact hG
    · rw [hshort b hk] at hb
      simp at hb
  · intro b hb
    by_cases hk : k≤b.length
    · refine .inr ⟨hk,(h (b.take k) (by simp [hk])).more_inv _ ?_⟩
      cases hd : d (f (b.take k)) (b.drop k) <;> simp_all
    · exact .inl (by omega)

theorem seq {G : Frame β} (hr : Reads F r) (hd : ∀ c,Decodes G (d c)) :
    Decodes (F.seq G) (fun b => .seq b (r b) d) where
  whole w hw := by
    obtain ⟨u,v,rfl,hu,hv⟩ := hw
    obtain ⟨a,ha⟩ := hr.whole u hu
    obtain ⟨c,hc⟩ := (hd a).whole v hv
    refine ⟨c,fun t => ?_⟩
    simp only [List.append_assoc,ha,hc,Outcome.seq,Outcome.after,List.length_append,
      Outcome.done.injEq,true_and]
    omega
  part t ht := by
    rcases ht with ht | ⟨u,v,rfl,hu,hv⟩
    · simp [hr.part t ht,Outcome.seq]
    · obtain ⟨a,ha⟩ := hr.whole u hu
      simp [ha,(hd a).part v hv,Outcome.seq]
  done_inv b c n hb := by
    cases hm : r b with
    | none => simp [hm,Outcome.seq] at hb
    | some x =>
      obtain ⟨u,rfl,hu⟩ := hr.some_inv b x.1 x.2 hm
      simp only [hm,Outcome.seq] at hb
      cases he : d x.1 x.2 with
      | more | fail e => simp [he] at hb
      | done a m =>
        obtain ⟨v,t,hv,rfl,hG⟩ := (hd x.1).done_inv _ a m he
        simp only [he,Outcome.after,Outcome.done.injEq,List.length_append] at hb
        refine ⟨u++v,t,by rw [hv]; simp,?_,u,v,rfl,hu,hG⟩
        rw [List.length_append]
        omega
  more_inv b hb := by
    cases hm : r b with
    | none => exact .inl (hr.none_inv b hm)
    | some x =>
      obtain ⟨u,rfl,hu⟩ := hr.some_inv b x.1 x.2 hm
      simp only [Outcome.seq] at hb
      refine .inr ⟨u,x.2,rfl,hu,(hd x.1).more_inv _ ?_⟩
      cases he : d x.1 x.2 <;> simp_all

end Decodes
end HermEX.Framework
