import Mathlib.Data.List.Sort
import HermEX.Framework.Bytes
import HermEX.Framework.Forest

namespace HermEX.Imap

open Framework

/-- The date is the Date header's, or the internal one. -/
structure Mail where
  uid : UInt32
  date : Int
  messageID : Bytes
  references : Bytes
  inReplyTo : Bytes

structure Selected where
  msgs : List Mail
  distinct : (msgs.map Mail.uid).Nodup

structure ThreadMsg where
  idx : Nat
  date : Int
  msgID : Bytes
  refs : List Bytes

def angle? (s : Bytes) : Option (Bytes×Bytes) :=
  let t := s.dropWhile (· ≠ 60)
  let tail := t.dropWhile (· ≠ 62)
  tail.head?.map fun c => (t.takeWhile (· ≠ 62)++[c],tail.tail)

def firstAngle (s : Bytes) : Bytes := (angle? s).elim [] Prod.fst

def allAnglesFrom : Nat → Bytes → List Bytes
  | 0,_ => []
  | n+1,s => (angle? s).elim [] fun x => x.1::allAnglesFrom n x.2

def allAngles (s : Bytes) : List Bytes := allAnglesFrom s.length s

def threadMsg (x : Mail×Nat) : ThreadMsg :=
  ⟨x.2,x.1.date,firstAngle x.1.messageID,allAngles (x.1.references++32::x.1.inReplyTo)⟩

section Threads

variable (msgs : List ThreadMsg)

def byMsgID (v : Bytes) : Option Nat :=
  (msgs.reverse.find? fun mm => mm.msgID≠[] && mm.msgID=v).map ThreadMsg.idx

def threadParent (mm : ThreadMsg) : Option Nat :=
  mm.refs.reverse.findSome? fun v => (byMsgID msgs v).filter (· ≠ mm.idx)

def sortedUnder (parent : Option Nat) : List Nat :=
  ((msgs.filter fun mm => threadParent msgs mm=parent).insertionSort
    fun a b => a.date≤b.date).map ThreadMsg.idx

def threadLinks : Links Nat := msgs.map fun mm => (mm.idx,threadParent msgs mm)

theorem sortedUnder_perm (parent : Option Nat) :
    (sortedUnder msgs parent).Perm
      (((threadLinks msgs).filter fun x => x.2=parent).map Prod.fst) := by
  have hlinks : ((threadLinks msgs).filter fun x => x.2=parent).map Prod.fst =
      (msgs.filter fun mm => threadParent msgs mm=parent).map ThreadMsg.idx := by
    simp [threadLinks,List.filter_map,Function.comp_def]
  rw [hlinks]
  exact (List.perm_insertionSort _ _).map _

end Threads

inductive Piece where
  | number (n : Nat)
  | space
  | open_
  | close
deriving DecidableEq

def renderThread (children : Nat → List Nat) (threadID : Nat → Nat) : Nat → Nat → List Piece
  | 0,_ => []
  | fuel+1,n => .number (threadID n)::match children n with
    | [] => []
    | [ch] => .space::renderThread children threadID fuel ch
    | chs => .space::chs.flatMap fun ch =>
      .open_::(renderThread children threadID fuel ch++[.close])

section Count

variable {threadID : Nat → Nat} {k : Nat}

theorem count_branches {render : Nat → List Piece} {visit : Nat → List Nat}
    (h : ∀ n,(render n).count (.number k)=((visit n).map threadID).count k) (chs : List Nat) :
    (chs.flatMap fun ch => Piece.open_::(render ch++[.close])).count (.number k) =
      ((chs.flatMap visit).map threadID).count k := by
  induction chs with
  | nil => rfl
  | cons ch chs ih => simp [h,ih]

theorem count_renderThread (children : Nat → List Nat) (fuel n : Nat) :
    (renderThread children threadID fuel n).count (.number k) =
      ((Links.visits children fuel n).map threadID).count k := by
  induction fuel generalizing n with
  | zero => rfl
  | succ fuel ih =>
    rw [renderThread,Links.visits,List.map_cons,List.count_cons,List.count_cons]
    congr 1
    · cases hc : children n with
      | nil => simp
      | cons ch chs =>
        cases chs with
        | nil => simp [ih]
        | cons ch' chs => simpa using count_branches ih (ch::ch'::chs)
    · simp

theorem count_map_of_inj (threadID : Nat → Nat) {l : List Nat} {x : Nat}
    (h : ∀ y∈l,threadID y=threadID x → y=x) :
    (l.map threadID).count (threadID x)=l.count x := by
  induction l with
  | nil => rfl
  | cons y ys ih =>
    rw [List.map_cons,List.count_cons,List.count_cons,
      ih fun z hz => h z (List.mem_cons_of_mem y hz)]
    have hy : (threadID y == threadID x)=(y == x) := by
      rw [Bool.eq_iff_iff,beq_iff_eq,beq_iff_eq]
      exact ⟨h y List.mem_cons_self,congrArg threadID⟩
    rw [hy]

end Count

namespace Selected

variable (box : Selected)

def threadID (byUID : Bool) (idx : Nat) : Nat :=
  if byUID then (box.msgs[idx]?).elim 0 (·.uid.toNat) else idx+1

def matched (key : Mail×Nat → Bool) : List (Mail×Nat) := box.msgs.zipIdx.filter key

def threadMsgs (key : Mail×Nat → Bool) : List ThreadMsg := (box.matched key).map threadMsg

def threadReferences (key : Mail×Nat → Bool) (byUID : Bool) : List Piece :=
  let msgs := box.threadMsgs key
  (sortedUnder msgs none).flatMap fun r => .open_::(renderThread
    (fun n => sortedUnder msgs (some n)) (box.threadID byUID) msgs.length r++[.close])

variable {box} {key : Mail×Nat → Bool}

theorem threadLinks_idx : (threadLinks (box.threadMsgs key)).map Prod.fst =
    (box.matched key).map Prod.snd := by
  simp [threadLinks,threadMsgs,threadMsg]

theorem threadLinks_functional : (threadLinks (box.threadMsgs key)).Functional := by
  have hall : (box.msgs.zipIdx.map Prod.snd).Nodup := by
    rw [List.zipIdx_map_snd]
    exact List.nodup_range'
  rw [Links.Functional,threadLinks_idx]
  exact hall.sublist (List.filter_sublist.map Prod.snd)

theorem threadID_inj {byUID : Bool} {i j : Nat} (hi : i<box.msgs.length)
    (hj : j<box.msgs.length) (h : box.threadID byUID i=box.threadID byUID j) : i=j := by
  cases byUID with
  | false => simpa [threadID] using h
  | true =>
    have hlength : i<(box.msgs.map Mail.uid).length := by simpa using hi
    apply (List.getElem?_inj hlength box.distinct).mp
    simp only [threadID,List.getElem?_eq_getElem hi,List.getElem?_eq_getElem hj] at h
    rw [List.getElem?_map,List.getElem?_map,List.getElem?_eq_getElem hi,
      List.getElem?_eq_getElem hj,Option.map_some,Option.map_some,UInt32.toNat_inj.mp h]

open Classical in
theorem count_threadReferences (byUID : Bool) {x : Mail×Nat} (hx : x∈box.matched key) :
    (box.threadReferences key byUID).count (.number (box.threadID byUID x.2)) =
      if (threadLinks (box.threadMsgs key)).Rooted x.2 then 1 else 0 := by
  have hlinks : (threadLinks (box.threadMsgs key)).length=(box.threadMsgs key).length := by
    simp [threadLinks]
  have hcount := Links.count_visits_roots threadLinks_functional
    (fun p => sortedUnder_perm (box.threadMsgs key) (some p)) (sortedUnder_perm _ none)
  rw [hlinks] at hcount
  have hbound : ∀ y∈(box.matched key).map Prod.snd,y<box.msgs.length := by
    intro y hy
    obtain ⟨z,hz,rfl⟩ := List.mem_map.mp hy
    have hz := List.mem_zipIdx (List.mem_filter.mp hz).1
    omega
  rw [← hcount x.2,← count_map_of_inj (box.threadID byUID)]
  · exact count_branches (count_renderThread _ _) _
  · intro y hy heq
    have hrooted : (threadLinks (box.threadMsgs key)).Rooted y := by
      by_contra hno
      have hzero := hcount y
      rw [if_neg hno] at hzero
      exact List.count_eq_zero.mp hzero hy
    obtain ⟨e,he⟩ := hrooted.depth
    have hy := he.mem
    rw [threadLinks_idx] at hy
    exact threadID_inj (hbound y hy) (hbound x.2 (List.mem_map_of_mem hx)) heq

/-- Every message is answered once just when each climbs to one without a parent. -/
theorem thread_complete_iff (box : Selected) (key : Mail × Nat → Bool) (byUID : Bool) :
    (∀ x ∈ box.matched key,
      (box.threadReferences key byUID).count (.number (box.threadID byUID x.2)) = 1) ↔
        (threadLinks (box.threadMsgs key)).Forest := by
  classical
  constructor
  · intro h y p hy
    have hmem : y∈(threadLinks (box.threadMsgs key)).map Prod.fst := List.mem_map_of_mem hy
    rw [threadLinks_idx] at hmem
    obtain ⟨x,hx,rfl⟩ := List.mem_map.mp hmem
    have hone := h x hx
    rw [count_threadReferences byUID hx] at hone
    by_contra hno
    rw [if_neg hno] at hone
    cases hone
  · intro h x hx
    rw [count_threadReferences byUID hx]
    apply if_pos
    apply h x.2 (threadParent (box.threadMsgs key) (threadMsg x))
    exact List.mem_map_of_mem (f := fun mm => (mm.idx,threadParent (box.threadMsgs key) mm))
      (List.mem_map_of_mem hx)

def circle : Selected := ⟨[⟨1,0,[60,97,62],[60,98,62],[]⟩,⟨2,1,[60,98,62],[60,97,62],[]⟩],by decide⟩

/-- Both are found, and the answer is empty. -/
theorem circle_lost : (circle.matched fun _ => true).length = 2 ∧
    circle.threadReferences (fun _ => true) false = [] := by
  decide

end Selected
end HermEX.Imap
