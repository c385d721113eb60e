import HermEX.Objectstore.Uids

namespace HermEX.Imap

open Framework Mapi Objectstore

def systemFlags : List (String×Flag) :=
  [("\\Seen",.seen),("\\Answered",.answered),("\\Flagged",.flagged),("\\Deleted",.deleted),
    ("\\Draft",.draft)]

def foldRune (c : Char) : Char := if c = 'ſ' then 's' else if c = 'K' then 'k' else c.toLower

def equalFold (s t : String) : Bool := s.toList.map foldRune=t.toList.map foldRune

def flagBit (name : String) : Option Flag :=
  (systemFlags.find? fun f => equalFold f.1 name).map Prod.snd

inductive StoreMode where
  | plus
  | minus
  | replace

def flagMask (names : List String) : Flags := (names.filterMap flagBit).toFinset

def applyFlagNames (base : Flags) (mode : StoreMode) (names : List String) : Flags :=
  match mode with
  | .plus => base∪flagMask names
  | .minus => base \ flagMask names
  | .replace => flagMask names

/-- STORE +FLAGS or -FLAGS, and a body FETCH. -/
inductive FlagCmd where
  | storeFlags (add : Bool) (names : List String)
  | markSeen

namespace FlagCmd

def apply (base : Flags) : FlagCmd → Flags
  | .storeFlags add names => applyFlagNames base (if add then .plus else .minus) names
  | .markSeen => base∪{.seen}

def named : FlagCmd → Flags
  | .storeFlags _ names => flagMask names
  | .markSeen => {.seen}

def sets : FlagCmd → Bool
  | .storeFlags add _ => add
  | .markSeen => true

variable {c : FlagCmd}

theorem mem_apply (c : FlagCmd) (base : Flags) (f : Flag) :
    f∈c.apply base ↔ if f∈c.named then c.sets=true else f∈base := by
  cases c with
  | storeFlags add names =>
    cases add
    all_goals
      simp only [apply,named,sets,applyFlagNames]
      split_ifs with hf <;> simp_all
  | markSeen =>
    simp only [apply,named,sets]
    split_ifs with hf <;> simp_all

theorem apply_comm {d : FlagCmd} (h : Disjoint c.named d.named) (base : Flags) :
    c.apply (d.apply base)=d.apply (c.apply base) := by
  ext f
  have hf : f∈c.named → f∉d.named := fun hc => Finset.disjoint_left.mp h hc
  simp only [mem_apply]
  split_ifs with hc hd <;> tauto

theorem apply_congr {base base' : Flags} (h : ∀ f,f∉c.named → (f∈base ↔ f∈base')) :
    c.apply base=c.apply base' := by
  ext f
  simp only [mem_apply]
  split_ifs with hf
  · rfl
  · exact h f hf

theorem apply_idle {base base' : Flags} (hb : c.apply base=base) (h : ∀ f∈c.named,f∈base ↔ f∈base') :
    c.apply base'=base' := by
  ext f
  rw [mem_apply]
  split_ifs with hf
  · rw [← h f hf,← hb,mem_apply,if_pos hf]
  · rfl

theorem foldl_apply {ds : List FlagCmd} (h : ∀ d∈ds,Disjoint c.named d.named) (base : Flags) :
    ds.foldl apply (c.apply base)=c.apply (ds.foldl apply base) := by
  induction ds generalizing base with
  | nil => rfl
  | cons d ds ih =>
    have hd := h d List.mem_cons_self
    rw [List.foldl_cons,← apply_comm hd,List.foldl_cons]
    exact ih (fun x hx => h x (List.mem_cons_of_mem d hx)) _

end FlagCmd

/-- The cached flags, the write to come, and the finished commands. -/
structure FlagSession where
  cached : Option Flags
  pending : Option (FlagCmd×Flags)
  done : List FlagCmd

structure FlagWorld where
  store : Store
  sessions : Bool → FlagSession

inductive FlagStep where
  | read (i : Bool)
  | compute (i : Bool) (c : FlagCmd)
  | call (i : Bool)

namespace FlagWorld

def setSession (w : FlagWorld) (i : Bool) (x : FlagSession) : FlagWorld :=
  {w with sessions:=Function.update w.sessions i x}

def start (s : Store) : FlagWorld := ⟨s,fun _ => ⟨none,none,[]⟩⟩

def stored (fid uid : Nat) (w : FlagWorld) : Option Flags := w.store.idxdb.messageFlags fid uid

def step (fid uid : Nat) (w : FlagWorld) : FlagStep → FlagWorld
  | .read i =>
    let x := w.sessions i
    match x.pending with
    | none => w.setSession i {x with cached:=w.stored fid uid}
    | some _ => w
  | .compute i c =>
    let x := w.sessions i
    match x.pending,x.cached with
    | none,some flags =>
      let newFlags := c.apply flags
      if newFlags=flags then w.setSession i {x with done:=x.done++[c]}
      else w.setSession i {x with pending:=some (c,newFlags)}
    | _,_ => w
  | .call i =>
    let x := w.sessions i
    match x.pending with
    | none => w
    | some (c,newFlags) =>
      match w.store.setMessageFlags fid uid newFlags with
      | (.error _,s) => {w with store:=s}.setSession i
          {x with pending:=none,done:=x.done++[c]}
      | (.ok (),s) => {w with store:=s}.setSession i
          ⟨some newFlags,none,x.done++[c]⟩

def issued (w : FlagWorld) (i : Bool) : List FlagCmd :=
  (w.sessions i).done++((w.sessions i).pending.map Prod.fst).toList

/-- At a write the mask is stale in named flags at most. -/
def WritesFresh (fid uid : Nat) (w : FlagWorld) : FlagStep → Prop
  | .call i => ∀ p∈(w.sessions i).pending,∀ cached∈(w.sessions i).cached,
      ∀ flags∈w.stored fid uid,cached \ p.1.named=flags \ p.1.named
  | _ => True

instance (fid uid : Nat) (w : FlagWorld) : ∀ a,Decidable (w.WritesFresh fid uid a)
  | .read _ | .compute .. => isTrue trivial
  | .call i => inferInstanceAs (Decidable (∀ p∈(w.sessions i).pending,
      ∀ cached∈(w.sessions i).cached,∀ flags∈w.stored fid uid,_))

def Apart (w : FlagWorld) : Prop := ∀ c∈w.issued true,∀ d∈w.issued false,Disjoint c.named d.named

instance (w : FlagWorld) : Decidable w.Apart :=
  inferInstanceAs (Decidable (∀ c∈w.issued true,∀ d∈w.issued false,Disjoint c.named d.named))

variable {w : FlagWorld} {i : Bool} {c : FlagCmd} {fid uid : Nat} {init : Flags} {s : Store}

theorem Apart.disjoint (h : w.Apart) {d : FlagCmd} (hc : c∈w.issued i) (hd : d∈w.issued (!i)) :
    Disjoint c.named d.named := by
  cases i with
  | true => exact h c hc d hd
  | false => exact (h d hd c hc).symm

def expected (init : Flags) (w : FlagWorld) : Flags :=
  ((w.sessions true).done++(w.sessions false).done).foldl FlagCmd.apply init

structure Current (fid uid : Nat) (init : Flags) (w : FlagWorld) : Prop where
  uids : UidInv w.store.idxdb
  value : w.stored fid uid=some (w.expected init)
  cached : ∀ i,∀ flags∈(w.sessions i).cached,∀ f,
    (∀ d∈w.issued (!i),f∉d.named) → (f∈flags ↔ f∈w.expected init)
  computed : ∀ i,∀ p∈(w.sessions i).pending,∃ flags,(w.sessions i).cached=some flags ∧
    p.2=p.1.apply flags

theorem expected_done {w' : FlagWorld} (init : Flags)
    (hi : (w'.sessions i).done=(w.sessions i).done++[c])
    (hj : (w'.sessions (!i)).done=(w.sessions (!i)).done)
    (hd : ∀ d∈(w.sessions (!i)).done,Disjoint c.named d.named) :
    w'.expected init=c.apply (w.expected init) := by
  cases i with
  | true =>
    simp only [Bool.not_true] at hj hd
    rw [expected,hi,hj,expected,List.foldl_append,List.foldl_append,List.foldl_append]
    exact FlagCmd.foldl_apply hd _
  | false =>
    simp only [Bool.not_false] at hj
    rw [expected,hi,hj,expected,← List.append_assoc,List.foldl_append]
    rfl

@[simp] theorem setSession_self (w : FlagWorld) (i : Bool) (x : FlagSession) :
    (w.setSession i x).sessions i=x :=
  Function.update_self ..

@[simp] theorem setSession_other (w : FlagWorld) (i : Bool) (x : FlagSession) :
    (w.setSession i x).sessions (!i)=w.sessions (!i) :=
  Function.update_of_ne (by simp) ..

theorem forall_session {P : Bool → Prop} (i : Bool) (hi : P i) (hj : P (!i)) : ∀ k,P k := by
  intro k
  cases i <;> cases k <;> assumption

theorem Current.update {x : FlagSession} (h : w.Current fid uid init) (hu : UidInv s.idxdb)
    (hv : s.idxdb.messageFlags fid uid= some (({w with store:=s}.setSession i x).expected init))
    (hown : ∀ flags∈x.cached,∀ f,(∀ d∈w.issued (!i),f∉d.named) →
      (f∈flags ↔ f∈({w with store:=s}.setSession i x).expected init))
    (hgrow : ∀ d∈w.issued i,d∈x.done++(x.pending.map Prod.fst).toList)
    (hother : ∀ f,(∀ d∈x.done++(x.pending.map Prod.fst).toList,f∉d.named) →
      (f∈w.expected init ↔ f∈({w with store:=s}.setSession i x).expected init))
    (hcomp : ∀ p∈x.pending,∃ flags,x.cached=some flags ∧ p.2=p.1.apply flags) :
    ({w with store:=s}.setSession i x).Current fid uid init := by
  refine ⟨hu,hv,?_,?_⟩
  · refine forall_session i ?_ ?_
    · intro flags hf f hd
      rw [setSession_self] at hf
      rw [issued,setSession_other] at hd
      exact hown flags hf f hd
    · intro flags hf f hd
      rw [setSession_other] at hf
      rw [Bool.not_not,issued,setSession_self] at hd
      have hw := h.cached (!i) flags hf f (by
        rw [Bool.not_not]
        exact fun d hdi => hd d (hgrow d hdi))
      exact hw.trans (hother f hd)
  · refine forall_session i ?_ ?_
    · rw [setSession_self]
      exact hcomp
    · rw [setSession_other]
      exact h.computed (!i)

theorem read_current (i : Bool) (h : w.Current fid uid init) (hp : (w.sessions i).pending=none) :
    (w.setSession i {w.sessions i with cached:=w.stored fid uid}).Current fid uid init := by
  have hexp : (w.setSession i {w.sessions i with cached:=w.stored fid uid}).expected init=
      w.expected init := by
    cases i <;> rfl
  refine h.update h.uids (hexp ▸ h.value) ?_ (fun d hd => hd) (fun f _ => by rw [hexp]) ?_
  · intro flags hf f _
    have hflags : w.expected init=flags := Option.some.inj (h.value.symm.trans hf)
    rw [hexp,hflags]
  · intro p hpi
    rw [hp] at hpi
    cases hpi

theorem compute_current {flags : Flags} (h : w.Current fid uid init)
    (hp : (w.sessions i).pending=none) (hc : (w.sessions i).cached=some flags) :
    (w.setSession i {w.sessions i with pending:=some (c,c.apply flags)}).Current fid uid init := by
  have hexp : (w.setSession i {w.sessions i with pending:=some (c,c.apply flags)}).expected
      init=w.expected init := by
    cases i <;> rfl
  refine h.update h.uids (hexp ▸ h.value) ?_ ?_ (fun f _ => by rw [hexp]) ?_
  · rw [hexp]
    exact h.cached i
  · intro d hd
    simp only [issued,hp,Option.map_none,Option.toList_none,List.append_nil] at hd
    exact List.mem_append_left _ hd
  · intro p hpi
    rw [← Option.some.inj hpi]
    exact ⟨flags,hc,rfl⟩

theorem skip_current {flags : Flags} (h : w.Current fid uid init) (hp : (w.sessions i).pending=none)
    (hc : (w.sessions i).cached=some flags) (hidle : c.apply flags=flags)
    (hd : ∀ d∈w.issued (!i),Disjoint c.named d.named) :
    (w.setSession i {w.sessions i with done:=(w.sessions i).done++[c]}).Current fid uid init := by
  have hkeep : c.apply (w.expected init)=w.expected init := by
    apply FlagCmd.apply_idle hidle
    intro f hf
    exact h.cached i flags hc f fun d hdj => Finset.disjoint_left.mp (hd d hdj) hf
  have hexp : (w.setSession i {w.sessions i with done:=(w.sessions i).done++[c]}).expected
      init=w.expected init := by
    rw [← hkeep]
    apply expected_done init
    · rw [setSession_self]
    · rw [setSession_other]
    · exact fun d hdj => hd d (List.mem_append_left _ hdj)
  refine h.update h.uids (hexp ▸ h.value) ?_ ?_ (fun f _ => by rw [hexp]) ?_
  · rw [hexp]
    exact h.cached i
  · intro d hdi
    simp only [issued,hp,Option.map_none,Option.toList_none,List.append_nil] at hdi ⊢
    exact List.mem_append_left _ hdi
  · intro p hpi
    rw [hp] at hpi
    cases hpi

theorem call_current {newFlags : Flags} (h : w.Current fid uid init)
    (hp : (w.sessions i).pending=some (c,newFlags)) (hfresh : ∀ cached∈(w.sessions i).cached,
      ∀ flags∈w.stored fid uid,cached \ c.named=flags \ c.named)
    (hd : ∀ d∈w.issued (!i),Disjoint c.named d.named) :
    ∃ s,w.store.setMessageFlags fid uid newFlags=(.ok (),s) ∧
      ({w with store:=s}.setSession i ⟨some newFlags,none,(w.sessions i).done++[c]⟩).Current
        fid uid init := by
  obtain ⟨flags,hc,hnew⟩ := h.computed i _ hp
  simp only at hnew
  have hoff := hfresh flags hc _ h.value
  have hval : newFlags=c.apply (w.expected init) := by
    rw [hnew]
    apply FlagCmd.apply_congr
    intro f hf
    have hmem := Finset.ext_iff.mp hoff f
    simpa [hf] using hmem
  obtain ⟨s,hset,hs⟩ := setMessageFlags_stored h.uids h.value newFlags
  have hexp : ({w with store:=s}.setSession i
      ⟨some newFlags,none,(w.sessions i).done++[c]⟩).expected init=newFlags := by
    rw [hval]
    apply expected_done init
    · rw [setSession_self]
    · rw [setSession_other]
    · exact fun d hdj => hd d (List.mem_append_left _ hdj)
  have hstep : UidStep w.store.idxdb (w.store.setMessageFlags fid uid newFlags).2.idxdb :=
    indexStep_uidStep w.store (.setMessageFlags fid uid newFlags)
  rw [hset] at hstep
  refine ⟨s,hset,h.update (hstep.inv h.uids) (by rw [hexp,hs]) ?_ ?_ ?_ ?_⟩
  · intro x hx f _
    rw [hexp,← Option.some.inj hx]
  · simp [issued,hp]
  · intro f hf
    rw [hexp,hval,FlagCmd.mem_apply,if_neg (hf c (by simp))]
  · intro p hpi
    cases hpi

inductive Stepped (fid uid : Nat) (w : FlagWorld) : FlagStep → FlagWorld → Prop where
  | none (a) : Stepped fid uid w a w
  | read {k} (hp : (w.sessions k).pending=none) : Stepped fid uid w (.read k)
      (w.setSession k {w.sessions k with cached:=w.stored fid uid})
  | skip {k d flags} (hp : (w.sessions k).pending=none)
      (hc : (w.sessions k).cached=some flags) (hidle : d.apply flags=flags) :
      Stepped fid uid w (.compute k d)
        (w.setSession k {w.sessions k with done:=(w.sessions k).done++[d]})
  | compute {k d flags} (hp : (w.sessions k).pending=none)
      (hc : (w.sessions k).cached=some flags) : Stepped fid uid w (.compute k d)
        (w.setSession k {w.sessions k with pending:=some (d,d.apply flags)})
  | refused {k d newFlags e s} (hp : (w.sessions k).pending=some (d,newFlags))
      (hs : w.store.setMessageFlags fid uid newFlags=(.error e,s)) :
      Stepped fid uid w (.call k) ({w with store:=s}.setSession k
        {w.sessions k with pending:=none,done:=(w.sessions k).done++[d]})
  | call {k d newFlags s} (hp : (w.sessions k).pending=some (d,newFlags))
      (hs : w.store.setMessageFlags fid uid newFlags=(.ok (),s)) :
      Stepped fid uid w (.call k) ({w with store:=s}.setSession k
        ⟨some newFlags,none,(w.sessions k).done++[d]⟩)

theorem step_stepped (fid uid : Nat) (w : FlagWorld) (a : FlagStep) :
    Stepped fid uid w a (w.step fid uid a) := by
  cases a with
  | read i =>
    simp only [step]
    split
    · exact .read (by assumption)
    · exact .none _
  | compute i c =>
    simp only [step]
    split
    · split_ifs with hidle
      · exact .skip (by assumption) (by assumption) hidle
      · exact .compute (by assumption) (by assumption)
    · exact .none _
  | call i =>
    simp only [step]
    split
    · exact .none _
    · split
      · exact .refused (by assumption) (by assumption)
      · exact .call (by assumption) (by assumption)

theorem issued_setSession {x : FlagSession}
    (hx : ∀ d∈w.issued i,d∈x.done++(x.pending.map Prod.fst).toList) :
    ∀ k,∀ d∈w.issued k,d∈({w with store:=s}.setSession i x).issued k := by
  refine forall_session i ?_ ?_
  · intro d hd
    rw [issued,setSession_self]
    exact hx d hd
  · intro d hd
    rw [issued,setSession_other]
    exact hd

theorem Stepped.issued {w' : FlagWorld} {a : FlagStep} (h : Stepped fid uid w a w') :
    ∀ k,∀ d∈w.issued k,d∈w'.issued k := by
  cases h with
  | none => exact fun _ _ hd => hd
  | read hp => exact issued_setSession fun d hd => hd
  | skip hp hc hidle =>
    apply issued_setSession
    intro d hd
    simp only [FlagWorld.issued] at hd ⊢
    simp_all
  | compute hp hc | refused hp hs | call hp hs =>
    apply issued_setSession
    simp_all [FlagWorld.issued]

theorem step_current (w : FlagWorld) (a : FlagStep) (h : w.Apart → w.Current fid uid init)
    (hc : w.WritesFresh fid uid a) :
    (w.step fid uid a).Apart → (w.step fid uid a).Current fid uid init := by
  have hstep := step_stepped fid uid w a
  generalize w.step fid uid a=w' at hstep ⊢
  intro hapart
  have hgrow := hstep.issued
  have hw := h fun c hc d hd => hapart c (hgrow true c hc) d (hgrow false d hd)
  have hdis : ∀ {i c},c∈w'.issued i → ∀ d∈w.issued (!i),Disjoint c.named d.named :=
    fun hci d hd => hapart.disjoint hci (hgrow _ d hd)
  cases hstep with
  | none => exact hw
  | @read i hp => exact read_current i hw hp
  | @skip i c flags hp hcached hidle =>
    exact skip_current hw hp hcached hidle (hdis (by simp [issued]))
  | compute hp hcached => exact compute_current hw hp hcached
  | @refused i c newFlags e s hp hs =>
    obtain ⟨s',hs',-⟩ := call_current hw hp (hc _ hp) (hdis (by simp [issued]))
    rw [hs] at hs'
    cases hs'
  | @call i c newFlags s hp hs =>
    obtain ⟨s',hs',hcur⟩ := call_current hw hp (hc _ hp) (hdis (by simp [issued]))
    rw [hs] at hs'
    obtain rfl := (Prod.mk.inj hs').2
    exact hcur

theorem start_current (hu : UidInv s.idxdb) (hs : s.idxdb.messageFlags fid uid=some init) :
    (start s).Current fid uid init := by
  refine ⟨hu,hs,?_,?_⟩
  · intro i flags hf
    cases hf
  · intro i p hp
    cases hp

end FlagWorld

/-- While each write starts from a mask fresh in what it does not name, nothing is lost. -/
theorem flag_updates_kept (obj : ObjDB) (before : List IndexStep) (fid uid : Nat) (init : Flags)
    (steps : List FlagStep)
    (hinit : (runSteps Store.indexStep ⟨obj,.empty⟩ before).idxdb.messageFlags fid uid=some init)
    (hfresh : Meets (FlagWorld.step fid uid) (FlagWorld.WritesFresh fid uid)
      (.start (runSteps Store.indexStep ⟨obj,.empty⟩ before)) steps)
    (hapart : (runSteps (FlagWorld.step fid uid)
      (.start (runSteps Store.indexStep ⟨obj,.empty⟩ before)) steps).Apart) :
    (runSteps (FlagWorld.step fid uid)
        (.start (runSteps Store.indexStep ⟨obj,.empty⟩ before)) steps).stored fid uid=
      some ((runSteps (FlagWorld.step fid uid)
        (.start (runSteps Store.indexStep ⟨obj,.empty⟩ before)) steps).expected init) := by
  have hstart := FlagWorld.start_current (runSteps_uidInv obj before) hinit
  have hrun := hfresh.invariant FlagWorld.step_current fun _ => hstart
  exact (hrun hapart).value

def oneMessage : List IndexStep := [.appendMessage 13 ⟨false,false,10⟩ ∅]

def readBetween : List FlagStep :=
  [.read true,.compute true (.storeFlags true ["\\Flagged"]),.call true,.read false,
    .compute false (.storeFlags true ["\\ANSWERED"]),.compute true .markSeen,.call false]

theorem flag_updates_kept_read_between :
    (runSteps (FlagWorld.step 13 1) (.start (runSteps Store.indexStep emptyInbox oneMessage))
      readBetween).stored 13 1=
      some ((runSteps (FlagWorld.step 13 1)
        (.start (runSteps Store.indexStep emptyInbox oneMessage)) readBetween).expected ∅) :=
  flag_updates_kept emptyInbox.objdb oneMessage 13 1 ∅ readBetween (by decide) (by decide)
    (by decide)

/-- Both hold the empty mask; the second write undoes the first. -/
theorem flag_update_lost :
    let w := runSteps (FlagWorld.step 13 1)
      (.start (runSteps Store.indexStep emptyInbox oneMessage))
      [.read true,.read false,.compute true (.storeFlags true ["\\Flagged"]),.call true,
        .compute false (.storeFlags true ["\\Answered"]),.call false]
    w.Apart ∧ (∀ i,(w.sessions i).pending=none) ∧ w.stored 13 1=some {.answered} ∧
      w.expected ∅={.flagged,.answered} := by
  decide

end HermEX.Imap
