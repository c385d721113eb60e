import Mathlib.Data.List.DropRight
import HermEX.Framework.Bytes
import HermEX.Framework.Stream

namespace HermEX.Smtp

open Framework

def cr : UInt8 := 0x0D
def lf : UInt8 := 0x0A
def dot : UInt8 := 0x2E

inductive ReadErr where
  | eof
  | failed
  | tooLarge
deriving DecidableEq

/-- The bytes still to come and the error past them. -/
structure Wire where
  pending : Bytes
  ends : ReadErr
deriving DecidableEq

def cutLine : Bytes → Bytes×Bytes
  | [] => ([],[])
  | b::bs => if b=lf then ([b],bs) else (b::(cutLine bs).1,(cutLine bs).2)

def readString (w : Wire) : (Bytes×Option ReadErr)×Wire :=
  (((cutLine w.pending).1,if lf∈w.pending then none else some w.ends),
    {w with pending:=(cutLine w.pending).2})

structure DotReader where
  r : Wire
  buf : Bytes
  done : Bool

def newDotReader (r : Wire) : DotReader := ⟨r,[],false⟩

def trimRight (line : Bytes) : Bytes := line.rdropWhile fun b => b=cr || b=lf

def unstuff : Bytes → Bytes
  | [] => []
  | b::bs => if b=dot then bs else b::bs

namespace DotReader

def fill (d : DotReader) : Option ReadErr×DotReader :=
  let ((line,err),r) := readString d.r
  if line=[] then (some .eof,{d with r:=r,done:=true})
  else if trimRight line=[dot] then (none,{d with r:=r,done:=true})
  else (none,⟨r,d.buf++unstuff line,d.done || err.isSome⟩)

def await : Nat → DotReader → Option ReadErr×DotReader
  | 0,d => (none,d)
  | k+1,d =>
    if d.buf≠[] then (none,d)
    else if d.done then (some .eof,d)
    else match d.fill with
      | (some e,d') => (some e,d')
      | (none,d') => await k d'

def read (d : DotReader) (n : Nat) : (Bytes×Option ReadErr)×DotReader :=
  match d.await (d.r.pending.length+2) with
  | (some e,d') => (([],some e),d')
  | (none,d') => ((d'.buf.take n,none),{d' with buf:=d'.buf.drop n})

end DotReader

def dotReader : Source DotReader UInt8 ReadErr where
  read := DotReader.read
  size d := d.buf.length+d.r.pending.length

def limitedReader {σ : Type} (R : Source σ UInt8 ReadErr) : Source (σ×Nat) UInt8 ReadErr where
  read lr n :=
    if lr.2=0 then (([],some .tooLarge),lr)
    else ((R.read lr.1 (min n lr.2)).1,
      ((R.read lr.1 (min n lr.2)).2,lr.2-(R.read lr.1 (min n lr.2)).1.1.length))
  size lr := R.size lr.1

def readAllErr : Option ReadErr → Option ReadErr
  | some .eof => none
  | e => e

def consumeData (maxSize : Nat) (trace : Bytes) (r : Wire) : (Bytes×Option ReadErr)×Wire :=
  if maxSize > 0 then
    let ((raw,err),(_,(d,_))) :=
      (limitedReader dotReader).after.readAll 512 (trace,(newDotReader r,maxSize))
    ((raw,readAllErr err),(dotReader.readAll 8192 d).2.r)
  else
    let ((raw,err),(_,d)) := dotReader.after.readAll 512 (trace,newDotReader r)
    ((raw,readAllErr err),(dotReader.readAll 8192 d).2.r)

section Limited

variable {σ τ : Type} {R : Source σ UInt8 ReadErr} {rest : σ → τ} {view : σ → Bytes×ReadErr×τ}

theorem limitedReader_delivers (h : Source.Delivers R rest view) :
    Source.Delivers (limitedReader R) (fun lr => (view lr.1).2) fun lr =>
      if lr.2≤(view lr.1).1.length then ((view lr.1).1.take lr.2,.tooLarge,(view lr.1).2)
      else ((view lr.1).1,(view lr.1).2.1,(view lr.1).2) where
  more {s s' n b} hr := by
    obtain ⟨s,k⟩ := s
    by_cases hk : k=0
    · simp [limitedReader,hk] at hr
    simp only [limitedReader,hk,if_false,Prod.mk.injEq] at hr
    obtain ⟨hr,rfl⟩ := hr
    obtain ⟨hv,hlen,hlt⟩ := h.more (Prod.ext hr rfl)
    have hb : (R.read s (min n k)).1.1=b := by rw [hr]
    have hbk : b.length≤k := hlen.trans (Nat.min_le_right n k)
    refine ⟨?_,hlen.trans (Nat.min_le_left n k),fun hn => hlt (by omega)⟩
    simp only [hv,hb,List.length_append]
    by_cases hle : k≤b.length+(view (R.read s (min n k)).2).1.length
    · have hle' : k-b.length≤(view (R.read s (min n k)).2).1.length := by omega
      rw [if_pos hle,if_pos hle',List.take_append,List.take_of_length_le hbk]
    · have hle' : ¬k-b.length≤(view (R.read s (min n k)).2).1.length := by omega
      rw [if_neg hle,if_neg hle']
  stop {s s' n b e} hr := by
    obtain ⟨s,k⟩ := s
    by_cases hk : k=0
    · simp only [hk] at hr
      obtain ⟨⟨rfl,rfl⟩,rfl⟩ := hr
      simp [hk]
    simp only [limitedReader,hk,if_false,Prod.mk.injEq] at hr
    obtain ⟨hr,rfl⟩ := hr
    obtain ⟨hb,hv,hv'⟩ := h.stop (Prod.ext hr rfl)
    have hb' : (R.read s (min n k)).1.1=[] := by rw [hr,hb]
    simp [hb,hb',hv',hv,hk]

end Limited

def lines : Bytes → List Bytes
  | [] => []
  | b::bs =>
    if b=lf then [b]::lines bs
    else match lines bs with
      | [] => [[b]]
      | l::ls => (b::l)::ls

variable {bs body : Bytes}

attribute [local simp] cutLine

theorem lines_cutLine (h : bs≠[]) : lines bs=(cutLine bs).1::lines (cutLine bs).2 := by
  induction bs with
  | nil => exact absurd rfl h
  | cons b bs ih =>
    by_cases hb : b=lf
    · simp [lines,hb]
    cases bs with
    | nil => simp [lines]
    | cons c cs =>
      have hih := ih (List.cons_ne_nil c cs)
      simp only [lines,hb,if_false,cutLine] at hih ⊢
      rw [hih]

theorem cutLine_append (bs : Bytes) : (cutLine bs).1++(cutLine bs).2=bs := by
  induction bs with
  | nil => rfl
  | cons b bs ih =>
    by_cases hb : b=lf
    · simp [hb]
    · simp [hb,ih]

theorem cutLine_eq_nil : (cutLine bs).1=[] ↔ bs=[] := by
  cases bs with
  | nil => simp
  | cons b bs => by_cases hb : b=lf <;> simp [hb]

theorem cutLine_rest (h : lf∉bs) : (cutLine bs).2=[] := by
  induction bs with
  | nil => rfl
  | cons b bs ih =>
    simp only [List.mem_cons,not_or] at h
    obtain ⟨hb,hbs⟩ := h
    simp [Ne.symm hb,ih hbs]

theorem lines_flatten (bs : Bytes) : (lines bs).flatten=bs := by
  induction h : bs.length using Nat.strong_induction_on generalizing bs with
  | _ n ih =>
    by_cases hbs : bs=[]
    · simp [hbs,lines]
    have hcut := cutLine_append bs
    have hne : (cutLine bs).1≠[] := fun he => hbs (cutLine_eq_nil.mp he)
    have hpos := List.length_pos_of_ne_nil hne
    have hlen : (cutLine bs).1.length+(cutLine bs).2.length=n := by rw [← List.length_append,hcut,h]
    rw [lines_cutLine hbs,List.flatten_cons,ih _ (by omega) _ rfl,hcut]

def undotLines : List Bytes → Bytes×List Bytes
  | [] => ([],[])
  | l::ls =>
    if trimRight l=[dot] then ([],ls)
    else (unstuff l++(undotLines ls).1,(undotLines ls).2)

def undot (w : Wire) : Bytes×Wire :=
  ((undotLines (lines w.pending)).1,{w with pending:=(undotLines (lines w.pending)).2.flatten})

def DotReader.view (d : DotReader) : Bytes×ReadErr×Wire :=
  if d.done then (d.buf,.eof,d.r) else (d.buf++(undot d.r).1,.eof,(undot d.r).2)

theorem undot_cutLine {w : Wire} (h : w.pending≠[]) :
    undot w=if trimRight (cutLine w.pending).1=[dot] then ([],(readString w).2)
      else (unstuff (cutLine w.pending).1++(undot (readString w).2).1,
        (undot (readString w).2).2) := by
  unfold undot
  rw [lines_cutLine h]
  simp only [undotLines,readString]
  split
  · simp [lines_flatten]
  · rfl

theorem unstuff_ne_nil {line : Bytes} (h : line≠[]) (hdot : trimRight line≠[dot]) :
    unstuff line≠[] := by
  cases line with
  | nil => exact absurd rfl h
  | cons b bs =>
    by_cases hb : b=dot
    · subst hb
      intro he
      simp only [unstuff,if_true] at he
      exact hdot (by rw [he]; decide)
    · simp [unstuff,hb]

theorem unstuff_length (line : Bytes) : (unstuff line).length≤line.length := by
  cases line with
  | nil => rfl
  | cons b bs => by_cases hb : b=dot <;> simp [unstuff,hb]

attribute [local simp] readString

namespace DotReader

theorem fill_view {d : DotReader} (hbuf : d.buf=[]) (hdone : d.done=false) :
    d.fill.2.view=d.view ∧ dotReader.size d.fill.2≤dotReader.size d ∧
      (d.fill.1=none → d.fill.2.buf≠[] ∨ d.fill.2.done=true) ∧
      ∀ e,d.fill.1=some e → e=.eof ∧ d.view=([],.eof,d.fill.2.r) := by
  have hsplit := congrArg List.length (cutLine_append d.r.pending)
  rw [List.length_append] at hsplit
  by_cases hnil : d.r.pending=[]
  · have hfill : d.fill=(some .eof,{d with done:=true}) := by
      simp [fill,hnil]
      rw [← hnil]
    have hundot : undot d.r=([],d.r) := by
      simp [undot,hnil,lines,undotLines]
      rw [← hnil]
    simp [hfill,view,hbuf,hundot,dotReader]
  · have hne : (cutLine d.r.pending).1≠[] := fun he => hnil (cutLine_eq_nil.mp he)
    by_cases hterm : trimRight (cutLine d.r.pending).1=[dot]
    · have hfill : d.fill=(none,{d with r:=(readString d.r).2,done:=true}) := by
        simp [fill,hne,hterm]
      have hundot : undot d.r=([],(readString d.r).2) := by rw [undot_cutLine hnil,if_pos hterm]
      simp only [hfill,view,hdone,hundot,dotReader]
      simp
      omega
    · have hfill : d.fill=(none,⟨(readString d.r).2,unstuff (cutLine d.r.pending).1,
          (readString d.r).1.2.isSome⟩) := by
        simp [fill,hne,hterm,hbuf,hdone]
      have hundot := undot_cutLine hnil
      rw [if_neg hterm] at hundot
      have hlen := unstuff_length (cutLine d.r.pending).1
      refine ⟨?_,?_,fun _ => .inl ?_,fun e he => ?_⟩
      · simp only [hfill,view,hdone,hbuf,hundot]
        by_cases hlf : lf∈d.r.pending
        · simp [hlf]
        · have hrest := cutLine_rest hlf
          simp [hrest,undot,lines,undotLines]
      · simp only [hfill,dotReader,readString]
        omega
      · rw [hfill]
        exact unstuff_ne_nil hne hterm
      · rw [hfill] at he
        cases he

theorem await_view (d : DotReader) (k : Nat) :
    (d.await (k+2)).2.view=d.view ∧ dotReader.size (d.await (k+2)).2≤dotReader.size d ∧
      ((d.await (k+2)).1=none → (d.await (k+2)).2.buf≠[]) ∧
      ∀ e,(d.await (k+2)).1=some e → d.view=([],e,(d.await (k+2)).2.r) := by
  by_cases hbuf : d.buf≠[]
  · simp [await,hbuf]
  rw [not_not] at hbuf
  cases hdone : d.done with
  | true => simp [await,hbuf,hdone,view]
  | false =>
    obtain ⟨hview,hsize,hgot,hend⟩ := fill_view hbuf hdone
    rw [await]
    simp only [hbuf,hdone,ne_eq,not_true_eq_false,if_false,Bool.false_eq_true]
    cases hf : d.fill with
    | mk o d' =>
      simp only [hf] at hview hsize hgot hend
      cases o with
      | some e =>
        obtain ⟨rfl,hv⟩ := hend e rfl
        simp only [reduceCtorEq,false_implies,Option.some.injEq,true_and]
        exact ⟨hview,hsize,fun e he => he ▸ hv⟩
      | none =>
        by_cases hbuf' : d'.buf=[]
        · have hdone' : d'.done=true := (hgot rfl).resolve_left (not_not.mpr hbuf')
          have hv : d.view=([],.eof,d'.r) := by rw [← hview]; simp [view,hdone',hbuf']
          simp only [await,hbuf',hdone',ne_eq,not_true_eq_false,if_false,if_true,reduceCtorEq,
            false_implies,Option.some.injEq,true_and]
          exact ⟨hview,hsize,fun e he => he ▸ hv⟩
        · simp only [await,hbuf',ne_eq,not_false_eq_true,if_true,reduceCtorEq,false_implies,
            implies_true,and_true]
          exact ⟨hview,hsize⟩

end DotReader

theorem dotReader_delivers : Source.Delivers dotReader DotReader.r DotReader.view where
  more {d d' n b} hr := by
    obtain ⟨hview,hsize,hgot,-⟩ := d.await_view d.r.pending.length
    simp only [dotReader,DotReader.read] at hr hsize
    cases ha : d.await (d.r.pending.length+2) with
    | mk o a =>
      rw [ha] at hr hview hsize hgot
      cases o with
      | some e => cases hr
      | none =>
        obtain ⟨rfl,rfl⟩ := hr
        have hne : 0<a.buf.length := List.length_pos_of_ne_nil (hgot rfl)
        refine ⟨?_,List.length_take_le _ _,fun hn => ?_⟩
        · rw [← hview]
          unfold DotReader.view
          cases a.done <;> simp [← List.append_assoc]
        · simp only [dotReader,List.length_drop] at hsize ⊢
          omega
  stop {d d' n b e} hr := by
    obtain ⟨hview,-,-,hend⟩ := d.await_view d.r.pending.length
    simp only [dotReader,DotReader.read] at hr
    cases ha : d.await (d.r.pending.length+2) with
    | mk o a =>
      rw [ha] at hr hview hend
      cases o with
      | none => cases hr
      | some e =>
        obtain ⟨⟨rfl,rfl⟩,rfl⟩ := hr
        exact ⟨rfl,hend _ rfl,hview⟩

theorem consumeData_eq (maxSize : Nat) (trace : Bytes) (w : Wire) :
    consumeData maxSize trace w =
      if 0 < maxSize ∧ maxSize≤(undot w).1.length then
        ((trace++(undot w).1.take maxSize,some .tooLarge),(undot w).2)
      else ((trace++(undot w).1,none),(undot w).2) := by
  have hdot : (newDotReader w).view=((undot w).1,.eof,(undot w).2) := by
    simp [newDotReader,DotReader.view]
  have hdrain (d : DotReader) (h : d.view.2=(.eof,(undot w).2)) :
      (dotReader.readAll 8192 d).2.r=(undot w).2 := by
    rw [(dotReader_delivers.readAll (by omega) d).2.1,h]
  by_cases hmax : 0 < maxSize
  · obtain ⟨hall,hrest,-⟩ := (limitedReader_delivers dotReader_delivers).after.readAll
      (n := 512) (by omega) (trace,(newDotReader w,maxSize))
    simp only [hdot] at hall hrest
    simp only [consumeData,hmax,true_and,hall]
    split_ifs at hrest ⊢ with hle
    all_goals simp only [readAllErr,Prod.mk.injEq,true_and]; exact hdrain _ hrest
  · obtain ⟨hall,hrest,hview⟩ := dotReader_delivers.after.readAll (n := 512) (by omega)
      (trace,newDotReader w)
    simp only [hdot] at hall hrest hview
    simp only [consumeData,hmax,if_false,false_and,hall,readAllErr,Prod.mk.injEq,true_and]
    exact hdrain _ (congrArg Prod.snd hview)

def stuffFrom : Bool → Bool → Bytes → Bytes
  | _,_,[] => []
  | start,wasCR,b::bs =>
    (if start && b=dot then [dot] else [])++b::stuffFrom (wasCR && b=lf) (b=cr) bs

def stuff (m : Bytes) : Bytes := stuffFrom true false m

def terminator : Bytes := [dot,cr,lf]

/-- No dot follows a bare LF. -/
def NoBareDot (m : Bytes) : Prop := ∀ p s,m=p++lf::dot::s → p.getLast?=some cr

theorem stuffFrom_line (h : lf∉body) (start wasCR : Bool) (m : Bytes) :
    stuffFrom start wasCR (body++lf::m) =
      (if start && (body++[lf]).head?=some dot then [dot] else [])++
        (body++lf::stuffFrom ((body.getLast?.map fun b => decide (b=cr)).getD wasCR) false m) := by
  induction body generalizing start wasCR with
  | nil => simp [stuffFrom,lf,cr]
  | cons b bs ih =>
    simp only [List.mem_cons,not_or] at h
    have hb : b≠lf := Ne.symm h.1
    have hlast : ((b::bs).getLast?.map fun c => decide (c=cr)).getD wasCR =
        (bs.getLast?.map fun c => decide (c=cr)).getD (decide (b=cr)) := by
      cases bs with
      | nil => simp
      | cons c cs => simp [List.getLast?_cons]
    rw [List.cons_append,stuffFrom,ih h.2,hlast]
    simp [hb]

theorem cutLine_line (h : lf∉body) (t : Bytes) : cutLine (body++lf::t)=(body++[lf],t) := by
  induction body with
  | nil => simp
  | cons b bs ih =>
    simp only [List.mem_cons,not_or] at h
    simp [Ne.symm h.1,ih h.2]

def CleanFrom (start : Bool) (m : Bytes) : Prop := (start=false → m.head?≠some dot) ∧ NoBareDot m

theorem cleanFrom_line (h : lf∉body) (start : Bool) (m : Bytes) :
    CleanFrom start (body++lf::m) ↔ (start=false → (body++[lf]).head?≠some dot) ∧
      CleanFrom (decide (body.getLast?=some cr)) m := by
  have hhead : (body++lf::m).head?=(body++[lf]).head? := by cases body <;> rfl
  unfold CleanFrom
  rw [hhead,and_congr_right_iff]
  intro _
  constructor
  · intro hn
    refine ⟨fun hlast hm => ?_,fun p s hp => ?_⟩
    · obtain ⟨s,rfl⟩ : ∃ s,m=dot::s := by
        cases m with
        | nil => cases hm
        | cons c s => exact ⟨s,by simpa using hm⟩
      exact of_decide_eq_false hlast (hn body s rfl)
    · have hlast := hn (body++lf::p) s (by simp [hp])
      cases p with
      | nil => simp [lf,cr] at hlast
      | cons c cs => simpa using hlast
  · rintro ⟨hhead,hn⟩ p s hp
    -- the LF in question is the one that ends the line, or a later one
    rcases List.append_eq_append_iff.mp hp with ⟨a,rfl,ha⟩ | ⟨a,rfl,ha⟩
    · cases a with
      | nil =>
        obtain ⟨-,rfl⟩ := ha
        by_contra hlast
        rw [List.append_nil] at hlast
        exact hhead (decide_eq_false hlast) rfl
      | cons c a =>
        obtain ⟨rfl,rfl⟩ := ha
        have hlast := hn a s rfl
        rw [List.getLast?_append,List.getLast?_cons]
        simp [hlast]
    · cases a with
      | nil =>
        obtain ⟨-,rfl⟩ := ha
        by_contra hlast
        rw [List.append_nil] at hhead
        exact hhead (decide_eq_false hlast) rfl
      | cons c a =>
        simp only [List.cons_append,List.cons.injEq] at ha
        exact absurd (by simp [← ha.1]) h

theorem eq_dot_of_trimRight {line : Bytes} (h : trimRight line=[dot]) :
    ∃ t,line=dot::t ∧ dot∉t := by
  have hsplit := congrArg List.reverse
    (List.takeWhile_append_dropWhile (p := fun b => b=cr || b=lf) (l := line.reverse))
  rw [List.reverse_append,List.reverse_reverse] at hsplit
  have htrim : (line.reverse.dropWhile fun b => b=cr || b=lf).reverse=[dot] := h
  rw [htrim] at hsplit
  rw [List.singleton_append] at hsplit
  refine ⟨_,hsplit.symm,fun hd => ?_⟩
  rw [List.mem_reverse] at hd
  have hp := List.mem_takeWhile_imp hd
  revert hp
  decide

theorem undot_stuff_line (h : lf∉body) (start : Bool) (m t : Bytes) (e : ReadErr) :
    let d := undot ⟨stuffFrom (decide (body.getLast?=some cr)) false m++t,e⟩
    let w := undot ⟨stuffFrom start false (body++lf::m)++t,e⟩
    ((start=false → (body++[lf]).head?≠some dot) → w=(body++lf::d.1,d.2)) ∧
      (¬(start=false → (body++[lf]).head?≠some dot) → w.1.length≤body.length+d.1.length) := by
  intro d w
  have hlast : (body.getLast?.map fun b => decide (b=cr)).getD false =
      decide (body.getLast?=some cr) := by cases body.getLast? <;> simp
  have hline (l : Bytes) (hl : lf∉l) :
      undot ⟨l++lf::(stuffFrom (decide (body.getLast?=some cr)) false m++t),e⟩ =
        if trimRight (l++[lf])=[dot] then
          ([],⟨stuffFrom (decide (body.getLast?=some cr)) false m++t,e⟩)
        else (unstuff (l++[lf])++d.1,d.2) := by
    rw [undot_cutLine (by simp)]
    simp [cutLine_line hl,d]
  have hw : w=undot ⟨(if start && (body++[lf]).head?=some dot then [dot] else [])++
      (body++lf::(stuffFrom (decide (body.getLast?=some cr)) false m++t)),e⟩ := by
    simp [w,stuffFrom_line h,hlast]
  by_cases hdot : (body++[lf]).head?=some dot
  · obtain ⟨b,rfl⟩ : ∃ b,body=dot::b := by
      cases body with
      | nil => simp [lf,dot] at hdot
      | cons c b => exact ⟨b,by simpa using hdot⟩
    cases start with
    | true =>
      have hstuffed := hline (dot::dot::b) (by simpa using h)
      have hterm : trimRight (dot::dot::b++[lf])≠[dot] := by
        intro ht
        obtain ⟨x,hx,hnot⟩ := eq_dot_of_trimRight ht
        simp only [List.cons_append,List.cons.injEq,true_and] at hx
        exact hnot (by simp [← hx])
      rw [if_neg hterm] at hstuffed
      rw [hw]
      simpa [unstuff] using hstuffed
    | false =>
      have hraw := hline (dot::b) h
      rw [hw]
      simp only [Bool.false_and,Bool.false_eq_true,if_false,List.nil_append,hraw]
      split
      · simp
      · simp [unstuff]
        omega
  · refine ⟨fun _ => ?_,fun hc => absurd (fun _ => hdot) hc⟩
    have hraw := hline body h
    have hterm : trimRight (body++[lf])≠[dot] := by
      intro ht
      obtain ⟨x,hx,-⟩ := eq_dot_of_trimRight ht
      exact hdot (by rw [hx]; rfl)
    have hkeep : unstuff (body++[lf])=body++[lf] := by
      cases body with
      | nil => decide
      | cons c b =>
        have hc : c≠dot := by simpa using hdot
        simp [unstuff,hc]
    rw [if_neg hterm,hkeep] at hraw
    have hplain : (start && decide ((body++[lf]).head?=some dot))=false := by
      rw [decide_eq_false hdot,Bool.and_false]
    rw [hw,hplain]
    simpa using hraw

theorem undot_terminator (rest : Bytes) (e : ReadErr) :
    undot ⟨terminator++rest,e⟩=([],⟨rest,e⟩) := by
  have hbody : lf∉[dot,cr] := by decide
  have hline : cutLine (terminator++rest)=(terminator,rest) := cutLine_line hbody rest
  have hterm : trimRight terminator=[dot] := by decide
  rw [undot_cutLine (by simp [terminator])]
  simp [hline,hterm]

theorem undot_stuffFrom (rest : Bytes) (e : ReadErr) (m : Bytes)
    (hm : m=[] ∨ m.getLast?=some lf) (start : Bool) :
    (undot ⟨stuffFrom start false m++(terminator++rest),e⟩).1.length ≤ m.length ∧
      (undot ⟨stuffFrom start false m++(terminator++rest),e⟩=(m,⟨rest,e⟩) ↔ CleanFrom start m) := by
  induction hlen : m.length using Nat.strong_induction_on generalizing m start with
  | _ n ih =>
    rcases hm with rfl | hlast
    · simp only [stuffFrom,List.nil_append,undot_terminator,CleanFrom,NoBareDot]
      simp
    · obtain ⟨body,m',rfl,hbody⟩ := List.eq_append_cons_of_mem (List.mem_of_getLast? hlast)
      have hm' : m'=[] ∨ m'.getLast?=some lf := by
        rcases List.eq_nil_or_concat m' with rfl | ⟨p,c,rfl⟩
        · exact .inl rfl
        · simpa [List.getLast?_cons] using hlast
      simp only [List.length_append,List.length_cons] at hlen
      obtain ⟨hshort,hiff⟩ := ih m'.length (by omega) m' hm' (decide (body.getLast?=some cr)) rfl
      obtain ⟨hkeep,hlose⟩ := undot_stuff_line hbody start m' (terminator++rest) e
      rw [cleanFrom_line hbody]
      by_cases hstart : start=false → (body++[lf]).head?≠some dot
      · rw [hkeep hstart,← hiff]
        refine ⟨by simp only [List.length_append,List.length_cons]; omega,?_⟩
        simp only [Prod.ext_iff,List.append_cancel_left_eq,List.cons.injEq,true_and]
        exact ⟨fun h => ⟨hstart,h⟩,fun h => h.2⟩
      · have hlt := hlose hstart
        refine ⟨by omega,fun h => ?_,fun h => absurd h.1 hstart⟩
        rw [h,List.length_append,List.length_cons] at hlt
        omega

/-- A message comes through just when no dot follows a bare LF. -/
theorem consumeData_frames_body (trace m rest : Bytes) (ends : ReadErr)
    (hm : m = [] ∨ ∃ p,m = p++[cr,lf]) :
    consumeData 0 trace ⟨stuff m++terminator++rest,ends⟩ = ((trace++m,none),⟨rest,ends⟩) ↔
      NoBareDot m := by
  have hlast : m=[] ∨ m.getLast?=some lf := by
    rcases hm with h | ⟨p,rfl⟩
    · exact .inl h
    · exact .inr (by simp)
  obtain ⟨-,hiff⟩ := undot_stuffFrom rest ends m hlast true
  have hclean : CleanFrom true m ↔ NoBareDot m := by simp [CleanFrom]
  rw [consumeData_eq,if_neg (by simp),← hclean,← hiff,List.append_assoc]
  simp [stuff,Prod.ext_iff]

theorem consumeData_frames_body_dot :
    consumeData 0 [] ⟨stuff [dot,cr,lf]++terminator++[0x51],.eof⟩ =
      (([]++[dot,cr,lf],none),⟨[0x51],.eof⟩) :=
  (consumeData_frames_body [] [dot,cr,lf] [0x51] .eof (.inr ⟨[dot],rfl⟩)).mpr
    fun p s h => by
      have hmem : lf::dot::s <:+ [dot,cr,lf] := ⟨p,h.symm⟩
      have hlen := hmem.length_le
      rcases List.suffix_cons_iff.mp hmem with he | hmem
      · cases he
      · rcases List.suffix_cons_iff.mp hmem with he | hmem
        · cases he
        · have := hmem.length_le
          simp at this

/-- `a LF . CR LF b CR LF` is cut at its bare LF. -/
theorem consumeData_splits_body :
    let m : Bytes := [0x61,lf,dot,cr,lf,0x62,cr,lf]
    stuff m = m ∧ consumeData 0 [] ⟨stuff m++terminator++[0x51],.eof⟩ =
      (([0x61,lf],none),⟨[0x62,cr,lf]++terminator++[0x51],.eof⟩) := by
  decide

end HermEX.Smtp
