import Mathlib.Data.List.Induction
import HermEX.Framework.Framing

namespace HermEX.Framework

/-- The items, the refusal that stopped it, and the bytes held. -/
@[ext] structure Drained (β ε α : Type) where
  items : List α
  err : Option ε
  rest : List β

section

variable {β ε α : Type}

def drainFuel (d : List β → Outcome ε α) : Nat → List β → Drained β ε α
  | 0,b => ⟨[],none,b⟩
  | fuel+1,b => match d b with
    | .more => ⟨[],none,b⟩
    | .fail e => ⟨[],some e,b⟩
    | .done a n =>
      let r := drainFuel d fuel (b.drop n)
      ⟨a::r.items,r.err,r.rest⟩

def drain (d : List β → Outcome ε α) (b : List β) : Drained β ε α := drainFuel d b.length b

def feedChunk (d : List β → Outcome ε α) (r : Drained β ε α) (chunk : List β) :
    Drained β ε α :=
  match r.err with
  | some _ => r
  | none =>
    let s := drain d (r.rest++chunk)
    ⟨r.items++s.items,s.err,s.rest⟩

def feedAll (d : List β → Outcome ε α) (chunks : List (List β)) : Drained β ε α :=
  chunks.foldl (feedChunk d) ⟨[],none,[]⟩

variable {F : Frame β} {d : List β → Outcome ε α}

variable {b : List β} {a : α} {n : Nat}

theorem feedAll_append_singleton (d : List β → Outcome ε α) (cs : List (List β))
    (c : List β) : feedAll d (cs++[c])=feedChunk d (feedAll d cs) c := by
  simp [feedAll]

theorem drain_more (h : d b=.more) : drain d b=⟨[],none,b⟩ := by
  rw [drain]
  cases b.length <;> simp [drainFuel,h]

theorem err_of_append {cs : List (List β)} {c : List β} (h : (feedAll d (cs++[c])).err=none) :
    (feedAll d cs).err=none := by
  rw [feedAll_append_singleton] at h
  cases he : (feedAll d cs).err with
  | none => rfl
  | some e => simp [feedChunk,he] at h

variable (hd : Decodes F d)

include hd

theorem Decodes.done_append (h : d b=.done a n) (c : List β) :
    d (b++c)=.done a n := by
  obtain ⟨w,t,rfl,rfl,hw⟩ := hd.done_inv b a n h
  obtain ⟨a',ha⟩ := hd.whole w hw
  have ha' : a'=a := by
    have := (ha t).symm.trans h
    simpa using this
  rw [List.append_assoc,ha,ha']

variable (hne : ∀ w,F.whole w → w≠[])

include hne

theorem Decodes.done_length (h : d b=.done a n) :
    0<n ∧ n≤b.length := by
  obtain ⟨w,t,rfl,rfl,hw⟩ := hd.done_inv b a n h
  have := List.length_pos_iff.mpr (hne w hw)
  rw [List.length_append]
  omega

variable (h0 : F.part []) (cs : List (List β))

include h0

theorem drainFuel_eq
    (fuel : Nat) (b : List β) (hb : b.length≤fuel) : drainFuel d fuel b=drain d b := by
  induction fuel using Nat.strongRecOn generalizing b with
  | ind fuel ih =>
    cases hf : b.length with
    | zero =>
      have hb : b=[] := List.length_eq_zero_iff.mp hf
      subst hb
      cases fuel with
      | zero => rfl
      | succ f => simp [drain,drainFuel,hd.part [] h0]
    | succ m =>
      obtain ⟨f,rfl⟩ : ∃ f,fuel=f+1 := ⟨fuel-1,by omega⟩
      rw [drain,hf]
      simp only [drainFuel]
      cases h : d b with
      | more => rfl
      | fail e => rfl
      | done a n =>
        have hn := hd.done_length hne h
        have h1 := ih f (by omega) (b.drop n) (by rw [List.length_drop]; omega)
        have h2 := ih m (by omega) (b.drop n) (by rw [List.length_drop]; omega)
        simp [h1,h2]

theorem drain_done (h : d b=.done a n) :
    drain d b=⟨a::(drain d (b.drop n)).items,(drain d (b.drop n)).err,
      (drain d (b.drop n)).rest⟩ := by
  have hn := hd.done_length hne h
  obtain ⟨m,hm⟩ : ∃ m,b.length=m+1 := ⟨b.length-1,by omega⟩
  have hr := drainFuel_eq hd hne h0 m (b.drop n) (by rw [List.length_drop]; omega)
  rw [drain,hm]
  simp [drainFuel,h,hr]

theorem drain_append (b c : List β) (hb : (drain d b).err=none) :
    drain d (b++c)=feedChunk d (drain d b) c := by
  induction hl : b.length using Nat.strongRecOn generalizing b with
  | ind n ih =>
    cases h : d b with
    | more => simp [feedChunk,drain_more h]
    | fail e =>
      cases b with
      | nil => rw [hd.part [] h0] at h; simp at h
      | cons x xs => simp [drain,drainFuel,h] at hb
    | done a n =>
      have hn := hd.done_length hne h
      rw [drain_done hd hne h0 h] at hb ⊢
      have hr := ih (b.drop n).length (by rw [List.length_drop]; omega) (b.drop n) hb rfl
      rw [drain_done hd hne h0 (hd.done_append h c),List.drop_append_of_le_length hn.2,hr]
      simp only [feedChunk] at hb ⊢
      simp [hb]

theorem drain_ok_iff (b : List β) : (drain d b).err=none ↔ F.Framed b := by
  constructor
  · intro hb
    induction hl : b.length using Nat.strongRecOn generalizing b with
    | ind n ih =>
      cases h : d b with
      | more => exact Frame.framed_of_part (hd.more_inv b h)
      | fail e =>
        cases b with
        | nil => exact Frame.framed_of_part h0
        | cons x xs => simp [drain,drainFuel,h] at hb
      | done a n =>
        have hn := hd.done_length hne h
        rw [drain_done hd hne h0 h] at hb
        have hr := ih (b.drop n).length (by rw [List.length_drop]; omega) (b.drop n) hb rfl
        obtain ⟨w,t,rfl,rfl,hw⟩ := hd.done_inv b a n h
        rw [List.drop_left] at hr
        exact Frame.framed_append hw hr
  · rintro ⟨ws,t,rfl,hws,ht⟩
    induction ws with
    | nil => simpa using congrArg Drained.err (drain_more (hd.part t ht))
    | cons w ws ih =>
      obtain ⟨a,ha⟩ := hd.whole w (hws w (by simp))
      have h : d ((w::ws).flatten++t)=.done a w.length := by simp [ha]
      rw [drain_done hd hne h0 h]
      simpa using ih fun x hx => hws x (by simp [hx])

theorem feedAll_eq_drain (h : (feedAll d cs).err=none) :
    feedAll d cs=drain d cs.flatten := by
  induction cs using List.reverseRecOn with
  | nil => rfl
  | append_singleton cs c ih =>
    have hp := err_of_append h
    have hr := ih hp
    rw [feedAll_append_singleton,hr]
    rw [hr] at hp
    rw [List.flatten_append,← drain_append hd hne h0 _ _ hp]
    simp

theorem feedAll_ok_iff :
    (feedAll d cs).err=none ↔ ∀ k,F.Framed (cs.take k).flatten := by
  induction cs using List.reverseRecOn with
  | nil => simp [feedAll,Frame.framed_of_part h0]
  | append_singleton cs c ih =>
    constructor
    · intro h k
      have hf := feedAll_eq_drain hd hne h0 _ h
      have hp := err_of_append h
      by_cases hk : k≤ cs.length
      · rw [List.take_append_of_le_length hk]
        exact ih.mp hp k
      · rw [List.take_of_length_le (by simp; omega)]
        rw [← drain_ok_iff hd hne h0,← hf]
        exact h
    · intro h
      have hp : (feedAll d cs).err=none := ih.mpr fun k => by
        have hk := h (min k cs.length)
        rw [List.take_append_of_le_length (by omega)] at hk
        rcases Nat.le_total k cs.length with hle | hle
        · rwa [Nat.min_eq_left hle] at hk
        · rw [Nat.min_eq_right hle,List.take_of_length_le (Nat.le_refl _)] at hk
          rwa [List.take_of_length_le hle]
      have hw := h (cs.length+1)
      rw [List.take_of_length_le (by simp),← drain_ok_iff hd hne h0,List.flatten_append,
        drain_append hd hne h0] at hw
      · rw [feedAll_append_singleton,feedAll_eq_drain hd hne h0 cs hp]
        simpa using hw
      · rw [← feedAll_eq_drain hd hne h0 cs hp]
        exact hp

theorem reassembly_iff :
    ((feedAll d cs).err=none ∧ (feedAll d cs).items=(feedAll d [cs.flatten]).items) ↔
      ∀ k,F.Framed (cs.take k).flatten := by
  rw [← feedAll_ok_iff hd hne h0]
  refine ⟨fun h => h.1,fun h => ⟨h,?_⟩⟩
  have hw : feedAll d [cs.flatten]=drain d cs.flatten := by simp [feedAll,feedChunk]
  rw [hw,feedAll_eq_drain hd hne h0 cs h]

end
end HermEX.Framework
