import HermEX.Framework.Bytes

namespace HermEX.Framework

def put (out : Bytes) (i : Nat) (w : Bytes) : Option Bytes :=
  if i+w.length≤out.length then some (out.take i++w++out.drop (i+w.length)) else none

def StandsAt (b : Bytes) (i : Nat) (w : Bytes) : Prop := ∀ j,j<w.length → b[i+j]?=w[j]?

variable {b w : Bytes} {i : Nat}

theorem put_of_le (out : Bytes) (i : Nat) (w : Bytes) (h : i+w.length≤out.length) :
    ∃ out',put out i w=some out' ∧ out'.length=out.length ∧ StandsAt out' i w ∧
      ∀ j,j < i ∨ i+w.length≤j → out'[j]?=out[j]? := by
  have hi : i≤out.length := by omega
  refine ⟨_,if_pos h,?_,?_,?_⟩
  · simp only [List.length_append,List.length_take,List.length_drop]
    omega
  · intro j hj
    have hlen : (out.take i).length=i := List.length_take_of_le hi
    rw [List.append_assoc,List.getElem?_append_right (by omega),hlen,Nat.add_sub_cancel_left,
      List.getElem?_append_left hj]
  · intro j hj
    have hlen : (out.take i++w).length=i+w.length := by
      rw [List.length_append,List.length_take_of_le hi]
    rcases hj with hj | hj
    · rw [List.append_assoc,List.getElem?_append_left (by rw [List.length_take_of_le hi]; exact hj),
        List.getElem?_take_of_lt hj]
    · rw [List.getElem?_append_right (by omega),hlen,List.getElem?_drop]
      congr 1
      omega

theorem StandsAt.read (h : StandsAt b i w) : (b.drop i).take w.length=w := by
  apply List.ext_getElem?
  intro j
  by_cases hj : j<w.length
  · rw [List.getElem?_take_of_lt hj,List.getElem?_drop,h j hj]
  · rw [List.getElem?_eq_none (by rw [List.length_take]; omega),List.getElem?_eq_none (by omega)]

theorem StandsAt.length_le (h : StandsAt b i w) (hw : w≠[]) : i+w.length≤b.length := by
  have hpos : 0<w.length := List.length_pos_of_ne_nil hw
  have hlast := h (w.length-1) (by omega)
  rw [List.getElem?_eq_getElem (show w.length-1<w.length by omega)] at hlast
  have hlt := (List.getElem?_eq_some_iff.mp hlast).1
  omega

theorem StandsAt.congr {b' : Bytes} (h : StandsAt b i w)
    (heq : ∀ j,i≤j → j < i+w.length → b'[j]?=b[j]?) : StandsAt b' i w := by
  intro j hj
  rw [heq (i+j) (by omega) (by omega),h j hj]

end HermEX.Framework
