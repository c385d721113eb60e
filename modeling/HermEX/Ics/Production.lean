import HermEX.Framework.Runs
import HermEX.Ics.Producer

namespace HermEX.Ics

open Framework Mapi

/-- The header goes out whole, the body from `bodyPos` on. -/
structure QueuedElement where
  header : Bytes
  body : Bytes
  headerDone : Bool
  bodyPos : Nat

/-- The elements since the last drain; before `head` they are drained. -/
structure ElementQueue where
  queue : List QueuedElement
  head : Nat
  bound : head≤queue.length

attribute [local simp] Producer.fill

namespace ElementQueue

def empty : ElementQueue := ⟨[],0,Nat.le_refl 0⟩

def append (pr : ElementQueue) (header body : Bytes) : ElementQueue where
  queue := pr.queue++[⟨header,body,false,0⟩]
  head := pr.head
  bound := pr.bound.trans (by simp)

def update (pr : ElementQueue) (e : QueuedElement) (head : Nat) (h : head≤pr.queue.length) :
    ElementQueue :=
  ⟨pr.queue.set pr.head e,head,by rwa [List.length_set]⟩

def writeMarker (pr : ElementQueue) (m : UInt32) : ElementQueue := pr.append (leBytes 4 m.toNat) []

def writeProp (pr : ElementQueue) (p : StreamProp) : Except FxError ElementQueue :=
  if PropTag.type p.tag=ptSvrEID then .ok pr
  else (encodeProp p).map fun x => pr.append x.1 x.2

def pendingLen (pr : ElementQueue) : Nat :=
  ((pr.queue.drop pr.head).map fun e =>
    (if e.headerDone then 0 else e.header.length)+(e.body.length-e.bodyPos)).sum

def drain (maxLen : Nat) (pr : ElementQueue) (out : Bytes) : Bytes×ElementQueue :=
  if h : pr.head<pr.queue.length then
    let e := pr.queue[pr.head]
    if !e.headerDone && !out.isEmpty && decide (maxLen<out.length+e.header.length) then (out,pr)
    else
      let out := if e.headerDone then out else out++e.header
      let e := {e with headerDone:=true}
      let avail := maxLen-out.length
      if e.body.length-e.bodyPos≤avail then
        drain maxLen (pr.update e (pr.head+1) h) (out++e.body.drop e.bodyPos)
      else (out++(e.body.drop e.bodyPos).take avail,
        pr.update {e with bodyPos:=e.bodyPos+avail} pr.head pr.bound)
  else (out,pr)
termination_by pr.queue.length-pr.head
decreasing_by
  simp only [update,List.length_set]
  omega

def readBuffer (pr : ElementQueue) (maxLen : Nat) : (Bytes×Bool)×ElementQueue :=
  let (out,pr) := drain maxLen pr []
  if pr.queue.length≤pr.head then ((out,true),empty) else ((out,false),pr)

def pending (e : QueuedElement) : PendingElement := ⟨e.header,e.body.drop e.bodyPos,e.headerDone⟩

def rest (pr : ElementQueue) : Producer := ⟨(pr.queue.drop pr.head).map pending⟩

variable (pr : ElementQueue)

theorem rest_cons {pr : ElementQueue} (h : pr.head<pr.queue.length) :
    pr.rest.queue=pending pr.queue[pr.head]::((pr.queue.drop (pr.head+1)).map pending) := by
  simp only [rest,List.drop_eq_getElem_cons h,List.map_cons]

theorem rest_append (header body : Bytes) :
    (pr.append header body).rest=⟨pr.rest.queue++[⟨header,body,false⟩]⟩ := by
  simp [rest,append,List.drop_append_of_le_length pr.bound,pending]

theorem pendingLen_eq : pr.pendingLen=pr.rest.pendingLen := by
  simp only [pendingLen,rest,Producer.pendingLen,List.map_map]
  congr 2
  funext e
  cases hdone : e.headerDone <;> simp [pending,PendingElement.left,hdone]

theorem drain_fill (maxLen : Nat) (pr : ElementQueue) (out : Bytes) :
    (drain maxLen pr out).1=(Producer.fill maxLen out pr.rest.queue).1 ∧
      (drain maxLen pr out).2.rest.queue=(Producer.fill maxLen out pr.rest.queue).2 := by
  induction pr,out using drain.induct maxLen with
  | case1 pr out h e hwait =>
    have hleft : (drain maxLen pr out)=(out,pr) := by rw [drain,dif_pos h,if_pos hwait]
    have hright : Producer.fill maxLen out pr.rest.queue=(out,pr.rest.queue) := by
      rw [rest_cons h,Producer.fill]
      exact if_pos hwait
    simp [hleft,hright]
  | case2 pr out h e hwait out' e' avail hfit ih =>
    have hleft : drain maxLen pr out =
        drain maxLen (pr.update e' (pr.head+1) h) (out'++e'.body.drop e'.bodyPos) := by
      rw [drain,dif_pos h,if_neg hwait]
      exact if_pos hfit
    have hnext : (pr.update e' (pr.head+1) h).rest.queue =
        (pr.queue.drop (pr.head+1)).map pending := by
      simp [rest,update,List.drop_set]
    have hfit' : (pending e).body.length≤avail := by
      rw [← List.length_drop] at hfit
      exact hfit
    have hright : Producer.fill maxLen out pr.rest.queue =
        Producer.fill maxLen (out'++e'.body.drop e'.bodyPos)
          ((pr.queue.drop (pr.head+1)).map pending) := by
      rw [rest_cons h,Producer.fill]
      exact (if_neg hwait).trans (if_pos hfit')
    rw [hleft,hright,← hnext]
    exact ih
  | case3 pr out h e hwait out' e' avail hfit =>
    have hleft : drain maxLen pr out=(out'++(e'.body.drop e'.bodyPos).take avail,
        pr.update {e' with bodyPos:=e'.bodyPos+avail} pr.head pr.bound) := by
      rw [drain,dif_pos h,if_neg hwait]
      exact if_neg hfit
    have hnext : (pr.update {e' with bodyPos:=e'.bodyPos+avail} pr.head pr.bound).rest.queue =
        ⟨e.header,(e.body.drop e.bodyPos).drop avail,true⟩::
          (pr.queue.drop (pr.head+1)).map pending := by
      rw [rest_cons (by simpa [update] using h)]
      simp [pending,update,List.drop_set,e']
    have hfit' : ¬ (pending e).body.length≤avail := by
      rw [← List.length_drop] at hfit
      exact hfit
    have hright : Producer.fill maxLen out pr.rest.queue =
        (out'++(e'.body.drop e'.bodyPos).take avail,
          ⟨e.header,(e.body.drop e.bodyPos).drop avail,true⟩::
            (pr.queue.drop (pr.head+1)).map pending) := by
      rw [rest_cons h,Producer.fill]
      exact (if_neg hwait).trans (if_neg hfit')
    rw [hleft,hright]
    exact ⟨rfl,hnext⟩
  | case4 pr out h =>
    have hnil : pr.rest.queue=[] := by simp [rest,List.drop_eq_nil_of_le (Nat.le_of_not_lt h)]
    have hleft : drain maxLen pr out=(out,pr) := by rw [drain,dif_neg h]
    simp [hleft,hnil]

theorem drained_iff : pr.queue.length≤pr.head ↔ pr.rest.queue=[] := by simp [rest]

theorem readBuffer_rest (maxLen : Nat) : (pr.readBuffer maxLen).1=(pr.rest.readBuffer maxLen).1 ∧
      (pr.readBuffer maxLen).2.rest=(pr.rest.readBuffer maxLen).2 := by
  obtain ⟨hout,hrest⟩ := drain_fill maxLen pr []
  unfold readBuffer
  simp only [Producer.readBuffer,← hout,← hrest]
  split_ifs with hdone
  · have hnil := (drained_iff _).mp hdone
    rw [hnil]
    exact ⟨rfl,rfl⟩
  · have hne : (drain maxLen pr []).2.rest.queue≠[] := fun h => hdone ((drained_iff _).mpr h)
    simp [hne]

end ElementQueue

def stream (elements : List (Bytes×Bytes)) : Bytes := elements.flatMap fun e => e.1++e.2

variable (maxLen : Nat) {written : List (Bytes×Bytes)}

@[simp] theorem stream_nil : stream []=[] := rfl

@[simp] theorem stream_cons (e : Bytes×Bytes) (es : List (Bytes×Bytes)) :
    stream (e::es)=e.1++e.2++stream es := rfl

@[simp] theorem stream_append (xs ys : List (Bytes×Bytes)) :
    stream (xs++ys)=stream xs++stream ys := List.flatMap_append

def unsent (e : Bytes×Bytes) : PendingElement := ⟨e.1,e.2,false⟩

def Sent (written : List (Bytes×Bytes)) (sent : Bytes) (queue : List PendingElement) : Prop :=
  ∃ done waiting,written=done++waiting ∧
    (sent=stream done ∧ queue=waiting.map unsent ∨
      ∃ e es k,waiting=e::es ∧ sent=stream done++(e.1++e.2.take k) ∧
        queue=⟨e.1,e.2.drop k,true⟩::es.map unsent)

def Boundary (written : List (Bytes×Bytes)) (n : Nat) : Prop :=
  ∀ pre e post,written=pre++e::post → n≤(stream pre).length ∨ (stream pre).length+e.1.length≤n

namespace Sent

variable {written : List (Bytes×Bytes)} {sent : Bytes} {queue : List PendingElement}

theorem fill (maxLen : Nat) (before out : Bytes) (queue : List PendingElement)
    (h : Sent written (before++out) queue) :
    Sent written (before++(Producer.fill maxLen out queue).1) (Producer.fill maxLen out queue).2 := by
  induction queue generalizing out with
  | nil => simpa using h
  | cons p ps ih =>
    rw [Producer.fill]
    split
    · exact h
    obtain ⟨done,waiting,hw,⟨hsent,hq⟩ | ⟨e,es,k,rfl,hsent,hq⟩⟩ := h
    · -- Nothing of the element was sent.
      cases waiting with
      | nil => simp at hq
      | cons e es =>
        obtain ⟨rfl,rfl⟩ := List.cons.inj hq
        simp only [unsent,Bool.false_eq_true,if_false]
        split_ifs with hfit
        · apply ih
          refine ⟨done++[e],es,by simp [hw],.inl ⟨?_,rfl⟩⟩
          simp [← List.append_assoc,hsent]
        · refine ⟨done,e::es,hw,.inr ⟨e,es,_,rfl,?_,rfl⟩⟩
          simp [← List.append_assoc,hsent]
    · obtain ⟨rfl,rfl⟩ := List.cons.inj hq
      simp only [if_true]
      split_ifs with hfit
      · apply ih
        refine ⟨done++[e],es,by simp [hw],.inl ⟨?_,rfl⟩⟩
        rw [← List.append_assoc,hsent]
        simp
      · refine ⟨done,e::es,hw,.inr ⟨e,es,k+(maxLen-out.length),rfl,?_,by simp⟩⟩
        rw [← List.append_assoc,hsent]
        simp [List.take_add]

variable (h : Sent written sent queue)

include h

theorem write (e : Bytes×Bytes) :
    Sent (written++[e]) sent (queue++[unsent e]) := by
  obtain ⟨done,waiting,rfl,⟨hsent,rfl⟩ | ⟨x,es,k,rfl,hsent,rfl⟩⟩ := h
  · exact ⟨done,waiting++[e],by simp,.inl ⟨hsent,by simp⟩⟩
  · exact ⟨done,x::(es++[e]),by simp,.inr ⟨x,es++[e],k,rfl,hsent,by simp⟩⟩

theorem bytes :
    sent++queue.flatMap PendingElement.left=stream written := by
  have hwait : ∀ es : List (Bytes×Bytes),(es.map unsent).flatMap PendingElement.left=stream es := by
    simp [List.flatMap_map,stream,unsent,PendingElement.left]
  obtain ⟨done,waiting,rfl,⟨rfl,rfl⟩ | ⟨x,es,k,rfl,rfl,rfl⟩⟩ := h
  · simp [hwait]
  · simp [hwait,PendingElement.left,Producer.torn]

theorem boundary : Boundary written sent.length := by
  obtain ⟨done,waiting,rfl,hcase⟩ := h
  intro pre e post heq
  rcases List.append_eq_append_iff.mp heq with ⟨xs,rfl,hxs⟩ | ⟨xs,rfl,hxs⟩
  · -- The element waits.
    rcases hcase with ⟨rfl,-⟩ | ⟨x,es,k,rfl,rfl,-⟩
    · simp
    · cases xs with
      | nil =>
        obtain ⟨rfl,-⟩ := List.cons.inj hxs
        simp only [List.append_nil,List.length_append]
        omega
      | cons y ys =>
        obtain ⟨rfl,-⟩ := List.cons.inj hxs
        simp only [stream_append,stream_cons,List.length_append,List.length_take]
        omega
  · cases xs with
    | nil =>
      rcases hcase with ⟨rfl,-⟩ | ⟨x,es,k,rfl,rfl,-⟩
      · simp
      · obtain ⟨rfl,-⟩ := List.cons.inj hxs
        simp only [List.append_nil,List.length_append]
        omega
    | cons y ys =>
      obtain ⟨rfl,-⟩ := List.cons.inj hxs
      rcases hcase with ⟨rfl,-⟩ | ⟨x,es,k,rfl,rfl,-⟩ <;>
        simp only [stream_append,stream_cons,List.length_append] <;> omega

theorem length_le : sent.length≤(stream written).length := by
  rw [← h.bytes,List.length_append]
  omega

end Sent

theorem fill_length_le (out : Bytes) (queue : List PendingElement) (hne : out≠[])
    (h : out.length ≤ maxLen) : (Producer.fill maxLen out queue).1.length ≤ maxLen := by
  induction queue generalizing out with
  | nil => simpa using h
  | cons p ps ih =>
    rw [Producer.fill]
    split
    · exact h
    rename_i hwait
    dsimp only
    generalize hout : (if p.headerDone then out else out++p.header)=out'
    have hle : out'.length ≤ maxLen := by
      rw [← hout]
      split_ifs with hdone
      · exact h
      · simpa [hdone,hne] using hwait
    have hne' : out'≠[] := by
      rw [← hout]
      split_ifs <;> simp [hne]
    split_ifs with hfit
    · apply ih
      · simp [hne']
      · rw [List.length_append]
        omega
    · simp only [List.length_append,List.length_take]
      omega

theorem fill_too_long (out : Bytes) (es : List (Bytes×Bytes)) (h : maxLen<out.length) :
    Producer.fill maxLen out (es.map unsent)=(out,es.map unsent) := by
  cases es with
  | nil => rfl
  | cons e es =>
    have hne : out≠[] := by
      rintro rfl
      simp at h
    have hlong : maxLen<out.length+e.1.length := by omega
    simp [unsent,hne,hlong]

theorem fill_unsent_too_long (es : List (Bytes×Bytes))
    (h : maxLen<(Producer.fill maxLen [] (es.map unsent)).1.length) :
    ∃ pre e post,es=pre++e::post ∧ stream pre=[] ∧
      (Producer.fill maxLen [] (es.map unsent)).1=e.1 := by
  induction es with
  | nil => simp at h
  | cons e es ih =>
    have hfirst : Producer.fill maxLen [] ((e::es).map unsent) =
        if e.2.length ≤ maxLen-e.1.length then Producer.fill maxLen (e.1++e.2) (es.map unsent)
        else (e.1++e.2.take (maxLen-e.1.length),
          ⟨e.1,e.2.drop (maxLen-e.1.length),true⟩::es.map unsent) := by
      simp [unsent]
    rw [hfirst] at h ⊢
    by_cases hlong : maxLen<e.1.length
    · have hzero : maxLen-e.1.length=0 := by omega
      refine ⟨[],e,es,rfl,rfl,?_⟩
      simp only [hzero]
      split_ifs with hfit
      · have hempty : e.2=[] := List.length_eq_zero_iff.mp (Nat.le_zero.mp hfit)
        rw [hempty,List.append_nil,fill_too_long maxLen e.1 es hlong]
      · simp
    · split_ifs at h ⊢ with hfit
      · by_cases hempty : e.1++e.2=[]
        · rw [hempty] at h ⊢
          obtain ⟨pre,x,post,rfl,hpre,hx⟩ := ih h
          exact ⟨e::pre,x,post,rfl,by rw [stream_cons,hempty,hpre,List.append_nil],hx⟩
        · have hle := fill_length_le maxLen (e.1++e.2) (es.map unsent) hempty (by
            rw [List.length_append]
            omega)
          omega
      · simp only [List.length_append,List.length_take] at h
        omega

theorem Sent.too_long {sent : Bytes} {queue : List PendingElement} (h : Sent written sent queue)
    (maxLen : Nat) (hlong : maxLen<(Producer.fill maxLen [] queue).1.length) :
    ∃ pre e post,written=pre++e::post ∧ sent=stream pre ∧
      (Producer.fill maxLen [] queue).1=e.1 := by
  obtain ⟨done,waiting,rfl,⟨rfl,rfl⟩ | ⟨x,es,k,rfl,rfl,rfl⟩⟩ := h
  · obtain ⟨pre,e,post,rfl,hpre,hchunk⟩ := fill_unsent_too_long maxLen waiting hlong
    exact ⟨done++pre,e,post,by simp,by simp [hpre],hchunk⟩
  · have hfirst : Producer.fill maxLen [] (⟨x.1,x.2.drop k,true⟩::es.map unsent) =
        if (x.2.drop k).length ≤ maxLen then Producer.fill maxLen (x.2.drop k) (es.map unsent)
        else ((x.2.drop k).take maxLen,⟨x.1,(x.2.drop k).drop maxLen,true⟩::es.map unsent) := by
      simp
    rw [hfirst] at hlong ⊢
    split_ifs at hlong ⊢ with hfit
    · by_cases hempty : x.2.drop k=[]
      · rw [hempty] at hlong ⊢
        obtain ⟨pre,e,post,rfl,hpre,hchunk⟩ := fill_unsent_too_long maxLen es hlong
        have hwhole : x.2.take k=x.2 := List.take_of_length_le (List.drop_eq_nil_iff.mp hempty)
        exact ⟨done++x::pre,e,post,by simp,by simp [hpre,hwhole],hchunk⟩
      · have hle := fill_length_le maxLen _ (es.map unsent) hempty hfit
        omega
    · simp only [List.length_take] at hlong
      omega

inductive ProducerCall where
  | writeMarker (m : UInt32)
  | writeProp (p : StreamProp)
  | readBuffer (maxLen : Nat)

/-- A producer with what was written and the chunks returned. -/
structure Transfer where
  producer : ElementQueue
  written : List (Bytes×Bytes)
  chunks : List Bytes

namespace Transfer

def fresh : Transfer := ⟨.empty,[],[]⟩

def elementOf (p : StreamProp) : List (Bytes×Bytes) :=
  if PropTag.type p.tag=ptSvrEID then [] else match encodeProp p with
    | .error _ => []
    | .ok e => [e]

def step (t : Transfer) : ProducerCall → Transfer
  | .writeMarker m => {t with
      producer:=t.producer.writeMarker m
      written:=t.written++[(leBytes 4 m.toNat,[])]}
  | .writeProp p => match t.producer.writeProp p with
    | .error _ => t
    | .ok producer => {t with producer:=producer,written:=t.written++elementOf p}
  | .readBuffer maxLen => {t with
      producer:=(t.producer.readBuffer maxLen).2
      chunks:=t.chunks++[(t.producer.readBuffer maxLen).1.1]}

/-- The chunks are what was sent, each ending outside the headers. -/
structure Whole (t : Transfer) : Prop where
  sent : Sent t.written t.chunks.flatten t.producer.rest.queue
  cuts : ∀ i,Boundary t.written (t.chunks.take i).flatten.length

theorem take_flatten_length_le (chunks : List Bytes) (i : Nat) :
    (chunks.take i).flatten.length ≤ chunks.flatten.length := by
  have hsplit : chunks.flatten=(chunks.take i).flatten++(chunks.drop i).flatten := by
    rw [← List.flatten_append,List.take_append_drop]
  rw [hsplit,List.length_append]
  omega

theorem boundary_append {n : Nat} (h : Boundary written n) (hn : n≤(stream written).length)
    (x : Bytes×Bytes) : Boundary (written++[x]) n := by
  intro pre e post heq
  rcases List.append_eq_append_iff.mp heq with ⟨xs,rfl,hxs⟩ | ⟨xs,rfl,hxs⟩
  · rw [stream_append,List.length_append]
    omega
  · cases xs with
    | nil =>
      left
      simpa using hn
    | cons y ys =>
      obtain ⟨rfl,-⟩ := List.cons.inj hxs
      exact h pre e ys rfl

theorem Whole.append {t : Transfer} (h : t.Whole) (header body : Bytes) :
    Whole ⟨t.producer.append header body,t.written++[(header,body)],t.chunks⟩ where
  sent := by
    rw [ElementQueue.rest_append]
    exact h.sent.write (header,body)
  cuts i := boundary_append (h.cuts i)
    ((take_flatten_length_le t.chunks i).trans h.sent.length_le) (header,body)

theorem step_whole (t : Transfer) (c : ProducerCall) (h : t.Whole) : (t.step c).Whole := by
  cases c with
  | writeMarker m => exact h.append (leBytes 4 m.toNat) []
  | writeProp p =>
    simp only [step,ElementQueue.writeProp,elementOf]
    by_cases hdrop : PropTag.type p.tag=ptSvrEID
    · simpa [if_pos hdrop] using h
    · simp only [if_neg hdrop]
      cases encodeProp p with
      | error e => exact h
      | ok x => exact h.append x.1 x.2
  | readBuffer maxLen =>
    obtain ⟨hchunk,hrest⟩ := t.producer.readBuffer_rest maxLen
    have hsent : Sent t.written (t.chunks++[(t.producer.readBuffer maxLen).1.1]).flatten
        (t.producer.readBuffer maxLen).2.rest.queue := by
      rw [hchunk,hrest,List.flatten_append,List.flatten_singleton]
      exact Sent.fill maxLen t.chunks.flatten [] t.producer.rest.queue (by simpa using h.sent)
    refine ⟨hsent,?_⟩
    intro i
    by_cases hi : i≤t.chunks.length
    · have htake : (t.chunks++[(t.producer.readBuffer maxLen).1.1]).take i=t.chunks.take i :=
        List.take_append_of_le_length hi
      simp only [step,htake]
      exact h.cuts i
    · have htake : (t.chunks++[(t.producer.readBuffer maxLen).1.1]).take i =
          t.chunks++[(t.producer.readBuffer maxLen).1.1] := by
        apply List.take_of_length_le
        rw [List.length_append,List.length_singleton]
        omega
      simp only [step,htake]
      exact hsent.boundary

theorem fresh_whole : fresh.Whole where
  sent := ⟨[],[],rfl,.inl ⟨rfl,rfl⟩⟩
  cuts i := by
    intro pre e post heq
    simp [fresh] at heq

end Transfer

/-- The chunks begin what was written and end with it; one over the size is a whole header, none
ends in one. -/
theorem production_loses_nothing (calls : List ProducerCall) (maxLen : Nat) :
    let t := runSteps Transfer.step .fresh calls
    let read := (t.producer.readBuffer maxLen).1
    (read.2 = true → (t.chunks ++ [read.1]).flatten = stream t.written) ∧
    t.chunks.flatten <+: stream t.written ∧
    t.chunks.flatten.length+t.producer.pendingLen = (stream t.written).length ∧
    (maxLen < read.1.length → ∃ pre e post,t.written = pre ++ e::post ∧
      t.chunks.flatten = stream pre ∧ read.1 = e.1) ∧
    ∀ i,Boundary t.written (t.chunks.take i).flatten.length := by
  intro t read
  have hwhole : t.Whole := runSteps_invariant Transfer.step_whole Transfer.fresh_whole calls
  have hbytes := hwhole.sent.bytes
  obtain ⟨hchunk,hrest⟩ := t.producer.readBuffer_rest maxLen
  refine ⟨?_,⟨_,hbytes⟩,?_,?_,hwhole.cuts⟩
  · intro hlast
    have hafter := t.producer.rest.readBuffer_bytes maxLen
    have hempty : (t.producer.rest.readBuffer maxLen).2.bytes=[] := by
      have hnil : (t.producer.rest.readBuffer maxLen).2.queue=[] := by
        simpa [read,hchunk,Producer.readBuffer] using hlast
      simp [Producer.bytes,hnil]
    rw [hempty,List.append_nil] at hafter
    simp only [read,hchunk,List.flatten_append,List.flatten_singleton,hafter]
    exact hbytes
  · rw [ElementQueue.pendingLen_eq,← hbytes,List.length_append,List.length_flatMap]
    rfl
  · intro hlong
    simp only [read,hchunk] at hlong ⊢
    exact hwhole.sent.too_long maxLen hlong

end HermEX.Ics
