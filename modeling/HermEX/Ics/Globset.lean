import HermEX.Ics.IdSet
import HermEX.Mapi.Props

namespace HermEX.Ics

open Framework Mapi

def glbEnd : UInt8 := 0x00
def glbBitmask : UInt8 := 0x42
def glbPop : UInt8 := 0x50
def glbRange : UInt8 := 0x52

def commonPrefixLen : Bytes → Bytes → Nat
  | a::as,b::bs => if a=b then commonPrefixLen as bs+1 else 0
  | _,_ => 0

def pushCmd (common : Bytes) : Bytes := UInt8.ofNat common.length::common

def rangeCmd (lo hi : Bytes) : Bytes := glbRange::(lo++hi)

def appendNodeUnder (stackLen : Nat) (nd : RangeNode) : Bytes :=
  let lo := (valueToGC nd.lo).drop stackLen
  if nd.hi=nd.lo then pushCmd lo
  else
    let hi := (valueToGC nd.hi).drop stackLen
    let inner := commonPrefixLen lo hi
    if inner=0 then rangeCmd lo hi
    else pushCmd (lo.take inner)++rangeCmd (lo.drop inner) (hi.drop inner)++[glbPop]

def globalPrefix (nd : RangeNode) (rest : List RangeNode) : Bytes :=
  let front := valueToGC nd.lo
  front.take (commonPrefixLen front (valueToGC (rest.getLastD nd).hi))

def serializeGlobset (rs : RangeSet) : Bytes :=
  match rs.nodes with
  | [] => [glbEnd]
  | [nd] => (if nd.hi=nd.lo then pushCmd (valueToGC nd.lo)
      else rangeCmd (valueToGC nd.lo) (valueToGC nd.hi))++[glbEnd]
  | nd::rest =>
    let common := globalPrefix nd rest
    (if common.isEmpty then [] else pushCmd common) ++
      (nd::rest).flatMap (appendNodeUnder common.length) ++
      (if common.isEmpty then [] else [glbPop])++[glbEnd]

/-- The unread bytes, the frames, innermost first, and the ranges. -/
structure GlobsetDecoder where
  unread : Bytes
  stack : List Bytes
  rs : RangeSet

namespace GlobsetDecoder

def common (d : GlobsetDecoder) : Bytes := d.stack.reverse.flatten

def pop (d : GlobsetDecoder) : GlobsetDecoder := {d with stack:=d.stack.tail}

def push (d : GlobsetDecoder) (n : Nat) : Bool×GlobsetDecoder :=
  if d.unread.length<n ∨ 6<d.common.length+n then (true,d)
  else
    let d' := {d with unread:=d.unread.drop n,stack:=d.unread.take n::d.stack}
    if d.common.length+n=6 then
      let x := gcToValue d'.common
      (false,{d' with rs:=d'.rs.appendRaw x x}.pop)
    else (false,d')

def bitmaskFrom (low : Nat) (mask : UInt8) : List Nat → Option (Nat×Nat) → RangeSet → RangeSet
  | [],none,rs => rs
  | [],some (lo,hi),rs => rs.appendRaw lo hi
  | i::is,open',rs =>
    if (mask >>> UInt8.ofNat i) &&& 1=0 then
      match open' with
      | none => bitmaskFrom low mask is none rs
      | some (lo,hi) => bitmaskFrom low mask is none (rs.appendRaw lo hi)
    else match open' with
      | some (lo,hi) => bitmaskFrom low mask is (some (lo,hi+1)) rs
      | none => bitmaskFrom low mask is (some (low+i+1,low+i+1)) rs

def appendBitmask (rs : RangeSet) (low : Nat) (mask : UInt8) : RangeSet :=
  bitmaskFrom low mask (List.range 8) (some (low,low)) rs

def bitmask (d : GlobsetDecoder) : Bool×GlobsetDecoder :=
  if d.common.length≠5 then (true,d)
  else match d.unread with
    | low::mask::unread => (false,{d with
        unread:=unread
        rs:=appendBitmask d.rs (gcToValue (d.common++[low])) mask})
    | _ => (true,d)

def readRange (d : GlobsetDecoder) : Bool×GlobsetDecoder :=
  let cnt := 6-d.common.length
  if 6<d.common.length ∨ d.unread.length<2*cnt then (true,d)
  else
    let lo := d.common++d.unread.take cnt
    let hi := d.common++(d.unread.drop cnt).take cnt
    (false,{d with
      unread:=d.unread.drop (2*cnt)
      rs:=d.rs.appendRaw (gcToValue lo) (gcToValue hi)})

def command (d : GlobsetDecoder) (cmd : UInt8) : Bool×GlobsetDecoder :=
  if 0x01 ≤ cmd ∧ cmd≤0x06 then d.push cmd.toNat
  else if cmd=glbBitmask then d.bitmask
  else if cmd=glbPop then (false,d.pop)
  else if cmd=glbRange then d.readRange
  else (true,d)

def loop : Nat → GlobsetDecoder → GlobsetDecoder
  | 0,d => d
  | n+1,d => match d.unread with
    | [] => d
    | cmd::unread => match {d with unread:=unread}.command cmd with
      | (true,d) => d
      | (false,d) => loop n d

end GlobsetDecoder

def deserializeGlobset (data : Bytes) : RangeSet×Nat :=
  let d := GlobsetDecoder.loop data.length ⟨data,[],.empty⟩
  (d.rs,data.length-d.unread.length)

@[simp] theorem valueToGC_length (v : Nat) : (valueToGC v).length=6 := by simp [valueToGC]

theorem gcToValue_valueToGC {v : Nat} (h : v<2^48) : gcToValue (valueToGC v)=v := by
  exact leNat_leBytes 6 v (by simpa using h)

attribute [local simp] commonPrefixLen

theorem commonPrefixLen_take (a b : Bytes) :
    a.take (commonPrefixLen a b)=b.take (commonPrefixLen a b) := by
  induction a generalizing b with
  | nil => cases b <;> simp
  | cons x xs ih =>
    cases b with
    | nil => simp
    | cons y ys =>
      by_cases hxy : x=y
      · simp [hxy,ih ys]
      · simp [hxy]

theorem commonPrefixLen_le (a b : Bytes) : commonPrefixLen a b≤a.length := by
  induction a generalizing b with
  | nil => cases b <;> simp
  | cons x xs ih =>
    cases b with
    | nil => simp
    | cons y ys =>
      have hrest := ih ys
      simp only [commonPrefixLen,List.length_cons]
      split_ifs <;> omega

theorem commonPrefixLen_lt {a b : Bytes} (hlen : a.length=b.length) (hne : a≠b) :
    commonPrefixLen a b<a.length := by
  have hle := commonPrefixLen_le a b
  have htake := commonPrefixLen_take a b
  rcases Nat.lt_or_eq_of_le hle with hlt | heq
  · exact hlt
  · rw [heq,List.take_length] at htake
    rw [hlen,List.take_length] at htake
    exact absurd htake hne

namespace GlobsetDecoder

variable (d : GlobsetDecoder) (frame rest : Bytes) (stack : List Bytes) (rs : RangeSet)

theorem command_unread (cmd : UInt8) : (d.command cmd).2.unread.length≤d.unread.length := by
  unfold command
  split_ifs
  · unfold push
    split_ifs <;> simp [pop]
  · unfold bitmask
    split_ifs
    · simp
    split
    · rename_i heq
      simp only [heq,List.length_cons]
      omega
    · simp
  · simp [pop]
  · unfold readRange
    dsimp only
    split_ifs <;> simp
  · simp

theorem loop_fuel (n m : Nat) (d : GlobsetDecoder) (hn : d.unread.length≤n)
    (hm : d.unread.length ≤ m) : loop n d=loop m d := by
  induction n generalizing m d with
  | zero =>
    have hnil : d.unread=[] := List.length_eq_zero_iff.mp (by omega)
    cases m <;> simp [loop,hnil]
  | succ n ih =>
    cases hu : d.unread with
    | nil => cases m <;> simp [loop,hu]
    | cons cmd unread =>
      have hle := command_unread {d with unread:=unread} cmd
      simp only [hu,List.length_cons] at hn hm
      obtain ⟨m,rfl⟩ : ∃ k,m=k+1 := ⟨m-1,by omega⟩
      simp only [loop,hu]
      rcases hc : {d with unread:=unread}.command cmd with ⟨stop,d'⟩
      rw [hc] at hle
      simp only at hle
      cases stop with
      | true => simp [hc]
      | false =>
        simp only [hc]
        exact ih m d' (by omega) (by omega)

def run (d : GlobsetDecoder) : GlobsetDecoder := loop d.unread.length d

theorem run_stop {d d' : GlobsetDecoder} {cmd : UInt8} {unread : Bytes}
    (hu : d.unread=cmd::unread) (hc : {d with unread:=unread}.command cmd=(true,d')) :
    d.run=d' := by
  simp [run,hu,loop,hc]

theorem run_next {d d' : GlobsetDecoder} {cmd : UInt8} {unread : Bytes}
    (hu : d.unread=cmd::unread) (hc : {d with unread:=unread}.command cmd=(false,d')) :
    d.run=d'.run := by
  have hle := command_unread {d with unread:=unread} cmd
  rw [hc] at hle
  simp only [run,hu,List.length_cons,loop,hc]
  exact loop_fuel _ _ d' hle (Nat.le_refl _)

theorem run_end : run ⟨glbEnd::rest,stack,rs⟩=⟨rest,stack,rs⟩ := run_stop rfl rfl

theorem run_pop :
    run ⟨glbPop::rest,frame::stack,rs⟩=run ⟨rest,stack,rs⟩ :=
  run_next rfl rfl

theorem command_push {n : Nat} (h0 : 0<n) (h6 : n≤6) :
    d.command (UInt8.ofNat n)=d.push n := by
  have hn : (UInt8.ofNat n).toNat=n := by
    rw [UInt8.toNat_ofNat']
    omega
  have hrange : 0x01≤UInt8.ofNat n ∧ UInt8.ofNat n≤0x06 := by
    simp only [UInt8.le_iff_toNat_le,hn]
    exact ⟨h0,h6⟩
  rw [command,if_pos hrange,hn]

theorem push_frame (h : stack.reverse.flatten.length+frame.length<6) :
    push ⟨frame++rest,stack,rs⟩ frame.length=(false,⟨rest,frame::stack,rs⟩) := by
  have hfits : ¬ ((frame++rest).length<frame.length ∨
      6<stack.reverse.flatten.length+frame.length) := by
    rw [List.length_append]
    omega
  have hopen : stack.reverse.flatten.length+frame.length≠6 := by omega
  simp only [push,common,hfits,hopen,if_false,List.take_left,List.drop_left]

theorem run_pushCmd (h0 : frame≠[]) (hle : frame.length≤6) {d : GlobsetDecoder}
    (h : push ⟨frame++rest,stack,rs⟩ frame.length=(false,d)) :
    run ⟨pushCmd frame++rest,stack,rs⟩=run d := by
  have hunread : (⟨pushCmd frame++rest,stack,rs⟩ : GlobsetDecoder).unread =
      UInt8.ofNat frame.length::(frame++rest) := rfl
  apply run_next hunread
  rw [command_push _ (List.length_pos_iff.mpr h0) hle]
  exact h

theorem run_push (h0 : frame≠[]) (h : stack.reverse.flatten.length+frame.length<6) :
    run ⟨pushCmd frame++rest,stack,rs⟩=run ⟨rest,frame::stack,rs⟩ := by
  exact run_pushCmd frame rest stack rs h0 (by omega) (push_frame frame rest stack rs h)

theorem push_value (h : stack.reverse.flatten.length+frame.length=6) :
    push ⟨frame++rest,stack,rs⟩ frame.length =
      (false,⟨rest,stack,rs.appendRaw (gcToValue (stack.reverse.flatten++frame))
        (gcToValue (stack.reverse.flatten++frame))⟩) := by
  have hfits : ¬ ((frame++rest).length<frame.length ∨ 6<6) := by
    rw [List.length_append]
    omega
  simp only [push,common,pop,h,hfits,if_false,if_true,List.take_left,List.drop_left,List.tail_cons,
    List.reverse_cons,List.flatten_append,List.flatten_singleton]

theorem run_value (h0 : frame≠[]) (h : stack.reverse.flatten.length+frame.length=6) :
    run ⟨pushCmd frame++rest,stack,rs⟩ =
      run ⟨rest,stack,rs.appendRaw (gcToValue (stack.reverse.flatten++frame))
        (gcToValue (stack.reverse.flatten++frame))⟩ := by
  exact run_pushCmd frame rest stack rs h0 (by omega) (push_value frame rest stack rs h)

theorem run_range (lo hi rest : Bytes) (stack : List Bytes) (rs : RangeSet)
    (hlo : stack.reverse.flatten.length+lo.length=6)
    (hhi : stack.reverse.flatten.length+hi.length=6) :
    run ⟨rangeCmd lo hi++rest,stack,rs⟩ =
      run ⟨rest,stack,rs.appendRaw (gcToValue (stack.reverse.flatten++lo))
        (gcToValue (stack.reverse.flatten++hi))⟩ := by
  have hunread : (⟨rangeCmd lo hi++rest,stack,rs⟩ : GlobsetDecoder).unread =
      glbRange::(lo++hi++rest) := rfl
  apply run_next hunread
  have hcmd : ∀ d : GlobsetDecoder,d.command glbRange=d.readRange := fun d => rfl
  have hcnt : 6-stack.reverse.flatten.length=lo.length := by omega
  have hsame : hi.length=lo.length := by omega
  have hfits : ¬ (6<stack.reverse.flatten.length ∨
      (lo++hi++rest).length<2*lo.length) := by
    simp only [List.length_append]
    omega
  have htake : (lo++hi++rest).take lo.length=lo := by rw [List.append_assoc,List.take_left]
  have hdrop : ((lo++hi++rest).drop lo.length).take lo.length=hi := by
    rw [List.append_assoc,List.drop_left,← hsame,List.take_left]
  have hrest : (lo++hi++rest).drop (2*lo.length)=rest := by
    apply List.drop_left'
    rw [List.length_append]
    omega
  rw [hcmd]
  simp only [readRange,common,hcnt,hfits,if_false,htake,hdrop,hrest]

theorem run_appendNodeUnder {nd : RangeNode} {stack : List Bytes}
    (hdepth : stack.reverse.flatten.length<6) (hlo : nd.lo<2^48) (hhi : nd.hi<2^48)
    (hplo : (valueToGC nd.lo).take stack.reverse.flatten.length=stack.reverse.flatten)
    (hphi : (valueToGC nd.hi).take stack.reverse.flatten.length=stack.reverse.flatten)
    (rest : Bytes) (rs : RangeSet) :
    run ⟨appendNodeUnder stack.reverse.flatten.length nd++rest,stack,rs⟩ =
      run ⟨rest,stack,rs.appendRaw nd.lo nd.hi⟩ := by
  generalize hcommon : stack.reverse.flatten=common at hdepth hplo hphi ⊢
  generalize hl : (valueToGC nd.lo).drop common.length=lo
  generalize hh : (valueToGC nd.hi).drop common.length=hi
  have hlolen : common.length+lo.length=6 := by
    rw [← hl,List.length_drop,valueToGC_length]
    omega
  have hhilen : common.length+hi.length=6 := by
    rw [← hh,List.length_drop,valueToGC_length]
    omega
  have hlovalue : gcToValue (common++lo)=nd.lo := by
    rw [← hl]
    nth_rewrite 1 [← hplo]
    rw [List.take_append_drop,gcToValue_valueToGC hlo]
  have hhivalue : gcToValue (common++hi)=nd.hi := by
    rw [← hh]
    nth_rewrite 1 [← hphi]
    rw [List.take_append_drop,gcToValue_valueToGC hhi]
  simp only [appendNodeUnder,hl,hh]
  by_cases hone : nd.hi=nd.lo
  · have hne : lo≠[] := List.length_pos_iff.mp (by omega)
    rw [if_pos hone,run_value lo rest stack rs hne (by rw [hcommon]; exact hlolen),hcommon,hlovalue,
      hone]
  · have hdiff : lo≠hi := by
      rintro rfl
      exact hone (hhivalue.symm.trans hlovalue)
    have hinner := commonPrefixLen_lt (by omega) hdiff
    have htake := commonPrefixLen_take lo hi
    generalize commonPrefixLen lo hi=inner at hinner htake ⊢
    split_ifs with hzero
    · rw [run_range lo hi rest stack rs (by rw [hcommon]; exact hlolen)
        (by rw [hcommon]; exact hhilen),hcommon,hlovalue,hhivalue]
    · have hframe : (lo.take inner).length=inner := by
        rw [List.length_take]
        omega
      have hne : lo.take inner≠[] := List.length_pos_iff.mp (by omega)
      have hstack : (lo.take inner::stack).reverse.flatten=common++lo.take inner := by
        rw [List.reverse_cons,List.flatten_append,List.flatten_singleton,hcommon]
      rw [List.append_assoc,List.append_assoc,run_push _ _ _ _ hne (by rw [hcommon]; omega),
        run_range _ _ _ _ _
          (by rw [hstack,List.length_append,hframe,List.length_drop]; omega)
          (by rw [hstack,List.length_append,hframe,List.length_drop]; omega),
        hstack,List.append_assoc,List.take_append_drop,hlovalue,List.append_assoc,htake,
        List.take_append_drop,hhivalue]
      exact run_pop _ rest stack _

theorem run_nodes {nodes : List RangeNode} (hdepth : stack.reverse.flatten.length<6)
    (hbound : ∀ nd∈nodes,nd.lo<2^48 ∧ nd.hi<2^48) (hfold : ∀ nd∈nodes,
      (valueToGC nd.lo).take stack.reverse.flatten.length=stack.reverse.flatten ∧
      (valueToGC nd.hi).take stack.reverse.flatten.length=stack.reverse.flatten) (rest : Bytes)
    (rs : RangeSet) :
    run ⟨nodes.flatMap (appendNodeUnder stack.reverse.flatten.length)++rest,stack,rs⟩ =
      run ⟨rest,stack,⟨rs.nodes++nodes⟩⟩ := by
  induction nodes generalizing rs with
  | nil => simp
  | cons nd nodes ih =>
    simp only [List.mem_cons,forall_eq_or_imp] at hbound hfold
    rw [List.flatMap_cons,List.append_assoc,run_appendNodeUnder hdepth hbound.1.1 hbound.1.2
      hfold.1.1 hfold.1.2,ih hbound.2 hfold.2]
    simp [RangeSet.appendRaw]

end GlobsetDecoder

/-- The prefix of first start and last end begins every range. -/
structure Foldable (nodes : List RangeNode) : Prop where
  bound : ∀ nd∈nodes,nd.lo<2^48 ∧ nd.hi<2^48
  depth : ∀ nd x rest,nodes=nd::x::rest → (globalPrefix nd (x::rest)).length<6
  fold : ∀ nd x rest,nodes=nd::x::rest → ∀ y∈nodes,
    (valueToGC y.lo).take (globalPrefix nd (x::rest)).length=globalPrefix nd (x::rest) ∧
    (valueToGC y.hi).take (globalPrefix nd (x::rest)).length=globalPrefix nd (x::rest)

open GlobsetDecoder in
theorem run_serializeGlobset {rs : RangeSet} (h : Foldable rs.nodes) (rest : Bytes) :
    run ⟨serializeGlobset rs++rest,[],.empty⟩=⟨rest,[],rs⟩ := by
  obtain ⟨nodes⟩ := rs
  rcases nodes with _ | ⟨nd,_ | ⟨x,xs⟩⟩
  · exact run_end rest [] .empty
  · have hb := h.bound nd (by simp)
    have hne : valueToGC nd.lo≠[] := List.length_pos_iff.mp (by simp)
    have hwritten : serializeGlobset ⟨[nd]⟩++rest =
        (if nd.hi=nd.lo then pushCmd (valueToGC nd.lo)
          else rangeCmd (valueToGC nd.lo) (valueToGC nd.hi))++glbEnd::rest := by
      simp [serializeGlobset]
    rw [hwritten]
    split_ifs with hone
    · rw [run_value _ _ _ _ hne (by simp),run_end]
      have hnode : (⟨nd.lo,nd.lo⟩ : RangeNode)=nd := by rw [RangeNode.mk.injEq]; exact ⟨rfl,hone.symm⟩
      simp [gcToValue_valueToGC hb.1,RangeSet.appendRaw,RangeSet.empty,hnode]
    · rw [run_range _ _ _ _ _ (by simp) (by simp),run_end]
      simp [gcToValue_valueToGC hb.1,gcToValue_valueToGC hb.2,RangeSet.appendRaw,RangeSet.empty]
  · have hdepth := h.depth nd x xs rfl
    have hfold := h.fold nd x xs rfl
    have hwritten : serializeGlobset ⟨nd::x::xs⟩++rest =
        (if (globalPrefix nd (x::xs)).isEmpty then [] else pushCmd (globalPrefix nd (x::xs))) ++
          ((nd::x::xs).flatMap (appendNodeUnder (globalPrefix nd (x::xs)).length) ++
            ((if (globalPrefix nd (x::xs)).isEmpty then [] else [glbPop])++glbEnd::rest)) := by
      simp [serializeGlobset]
    rw [hwritten]
    generalize globalPrefix nd (x::xs)=common at hdepth hfold ⊢
    cases common with
    | nil =>
      have hnodes := run_nodes [] (by simp) h.bound (by simp) (glbEnd::rest) .empty
      simp only [List.isEmpty_nil,if_true,List.nil_append,List.length_nil]
      simp only [List.reverse_nil,List.flatten_nil,List.length_nil] at hnodes
      rw [hnodes,run_end]
      simp [RangeSet.empty]
    | cons c cs =>
      have hflat : ([c::cs] : List Bytes).reverse.flatten=c::cs := by simp
      have hnodes := run_nodes [c::cs] (by rw [hflat]; exact hdepth) h.bound
        (by rw [hflat]; exact hfold) (glbPop::glbEnd::rest) .empty
      rw [hflat] at hnodes
      simp only [List.isEmpty_cons,Bool.false_eq_true,if_false,List.singleton_append]
      rw [run_push _ _ _ _ (by simp) (by simpa using hdepth),hnodes,run_pop,run_end]
      simp [RangeSet.empty]

theorem deserialize_serializeGlobset {rs : RangeSet} (h : Foldable rs.nodes) (rest : Bytes) :
    deserializeGlobset (serializeGlobset rs++rest)=(rs,(serializeGlobset rs).length) := by
  have hrun : GlobsetDecoder.loop (serializeGlobset rs++rest).length
      ⟨serializeGlobset rs++rest,[],.empty⟩=⟨rest,[],rs⟩ := run_serializeGlobset h rest
  rw [deserializeGlobset,hrun,List.length_append,Nat.add_sub_cancel]

theorem serializeGlobset_ne_nil (rs : RangeSet) : (serializeGlobset rs).length≠0 := by
  unfold serializeGlobset
  split <;> simp

theorem leBytes_drop (a b v : Nat) : (leBytes (a+b) v).drop a=leBytes b (v/256^a) := by
  induction a generalizing v with
  | zero => simp
  | succ a ih =>
    have hlen : a+1+b=a+b+1 := by omega
    rw [hlen,leBytes,List.drop_succ_cons,ih,Nat.div_div_eq_div_mul,← Nat.pow_succ']

theorem valueToGC_take {k : Nat} (hk : k≤6) (v : Nat) :
    (valueToGC v).take k=(leBytes k (v/256^(6-k))).reverse := by
  have hsplit : 6=6-k+k := by omega
  rw [valueToGC,List.take_reverse,leBytes_length]
  nth_rewrite 2 [hsplit]
  rw [leBytes_drop]

theorem prefix_between {a v b k : Nat} (hk : k≤6) (hav : a≤v) (hvb : v≤b) (hb : b<2^48)
    (h : (valueToGC a).take k=(valueToGC b).take k) :
    (valueToGC v).take k=(valueToGC a).take k := by
  rw [valueToGC_take hk,valueToGC_take hk,List.reverse_inj] at h ⊢
  have hfits : ∀ x,x≤b → x/256^(6-k)<256^k := by
    intro x hx
    rw [Nat.div_lt_iff_lt_mul (Nat.pow_pos (by omega)),← Nat.pow_add]
    have hsix : k+(6-k)=6 := by omega
    rw [hsix]
    omega
  have hab : a/256^(6-k)=b/256^(6-k) := by
    rw [← leNat_leBytes k _ (hfits a (by omega)),h,leNat_leBytes k _ (hfits b (by omega))]
  have hva : v/256^(6-k)=a/256^(6-k) := by
    apply Nat.le_antisymm
    · rw [hab]
      exact Nat.div_le_div_right hvb
    · exact Nat.div_le_div_right hav
  rw [hva]

theorem canonical_between {nd : RangeNode} {rest : List RangeNode}
    (h : RangeSet.Canonical (nd::rest)) :
    ∀ y∈nd::rest,nd.lo≤y.lo ∧ y.lo≤y.hi ∧ y.hi≤(rest.getLastD nd).hi := by
  induction rest generalizing nd with
  | nil =>
    intro y hy
    rw [List.mem_singleton.mp hy]
    exact ⟨Nat.le_refl _,h.valid nd (by simp),Nat.le_refl _⟩
  | cons x rest ih =>
    obtain ⟨hapart,htail⟩ := List.pairwise_cons.mp h.apart
    have hrest := ih ⟨fun y hy => h.valid y (List.mem_cons_of_mem nd hy),htail⟩
    have hnd := h.valid nd (by simp)
    have hx := hapart x (by simp)
    have hxlast := hrest x (by simp)
    intro y hy
    rw [List.getLastD_cons]
    rcases List.mem_cons.mp hy with rfl | hy
    · exact ⟨Nat.le_refl _,hnd,by omega⟩
    · have hy' := hrest y hy
      exact ⟨by omega,hy'.2.1,hy'.2.2⟩

theorem foldable_of_canonical {nodes : List RangeNode} (h : RangeSet.Canonical nodes)
    (hb : ∀ nd∈nodes,nd.hi<2^48) : Foldable nodes := by
  have hshare : ∀ nd x rest,nodes=nd::x::rest →
      (globalPrefix nd (x::rest)).length=commonPrefixLen (valueToGC nd.lo)
        (valueToGC ((x::rest).getLastD nd).hi) := by
    intro nd x rest _
    have hle := commonPrefixLen_le (valueToGC nd.lo) (valueToGC ((x::rest).getLastD nd).hi)
    rw [globalPrefix,List.length_take]
    omega
  constructor
  · intro nd hnd
    exact ⟨(h.valid nd hnd).trans_lt (hb nd hnd),hb nd hnd⟩
  · rintro nd x rest rfl
    rw [hshare nd x rest rfl]
    have hapart := (List.pairwise_cons.mp h.apart).1 x (by simp)
    have hnd := h.valid nd (by simp)
    have hx := canonical_between h x (by simp)
    have hlast : ((x::rest).getLastD nd).hi<2^48 := by
      apply hb
      rw [List.getLastD_cons]
      exact List.mem_cons_of_mem nd List.getLastD_mem_cons
    have hne : valueToGC nd.lo≠valueToGC ((x::rest).getLastD nd).hi := by
      intro heq
      have hvalue := congrArg gcToValue heq
      rw [gcToValue_valueToGC (by omega),gcToValue_valueToGC hlast] at hvalue
      omega
    simpa using commonPrefixLen_lt (by simp) hne
  · rintro nd x rest rfl y hy
    have hbetween := canonical_between h y hy
    have hlast : ((x::rest).getLastD nd).hi<2^48 := by
      apply hb
      rw [List.getLastD_cons]
      exact List.mem_cons_of_mem nd List.getLastD_mem_cons
    have hk := commonPrefixLen_le (valueToGC nd.lo) (valueToGC ((x::rest).getLastD nd).hi)
    have htake := commonPrefixLen_take (valueToGC nd.lo) (valueToGC ((x::rest).getLastD nd).hi)
    rw [hshare nd x rest rfl,globalPrefix]
    exact ⟨prefix_between hk hbetween.1 (by omega) hlast htake,
      prefix_between hk (by omega) hbetween.2.2 hlast htake⟩

end HermEX.Ics
