import HermEX.Mime.Structure

namespace HermEX.Mime

open Framework

def dashed (b : Bytes) : Bytes := 0x2D::0x2D::b

def delimits (b body : Bytes) (q : Nat) : Bool :=
  startsLine body q && (dashed b).isPrefixOf (body.drop q)

/-- No line starts with `--` and the boundary. -/
def Clean (b text : Bytes) : Prop := ∀ q,delimits b text q=false

def encode (b epilogue : Bytes) : List Bytes → Bytes
  | [] => dashed b++([0x2D,0x2D]++crlf++epilogue)
  | p::ps => dashed b++(crlf++(p++(crlf++encode b epilogue ps)))

variable {b body : Bytes} {p q : Nat}

theorem crlf_at : crlf <+: body.drop q ↔ body[q]?=some 0x0D ∧ body[q+1]?=some 0x0A := by
  constructor
  · intro h
    exact ⟨prefix_at (k := 0) h (by decide),prefix_at h (by decide)⟩
  · rintro ⟨h0,h1⟩
    obtain ⟨h0,hcr⟩ := List.getElem?_eq_some_iff.mp h0
    obtain ⟨h1,hlf⟩ := List.getElem?_eq_some_iff.mp h1
    rw [List.drop_eq_getElem_cons h0,List.drop_eq_getElem_cons h1,hcr,hlf]
    simp [crlf]

theorem startsLine_iff : startsLine body q=true ↔
    q=0 ∨ 2≤q ∧ body[q-2]?=some 0x0D ∧ body[q-1]?=some 0x0A := by
  simp only [startsLine,Bool.or_eq_true,decide_eq_true_eq,Bool.and_eq_true,
    List.isPrefixOf_iff_prefix,crlf_at]
  constructor
  · rintro (h | ⟨h,hcr,hlf⟩)
    · exact .inl h
    · exact .inr ⟨h,hcr,by rwa [show q-1=q-2+1 by omega]⟩
  · rintro (h | ⟨h,hcr,hlf⟩)
    · exact .inl h
    · exact .inr ⟨h,hcr,by rwa [show q-2+1=q-1 by omega]⟩

/-- No line ends in it, and none with the LF after it. -/
def OneLine (b : Bytes) : Prop := ¬crlf <:+: b++[0x0A]

theorem OneLine.after_cr (hb : OneLine b) {k : Nat} (h : (dashed b)[k]?=some 0x0D) :
    ∃ c,(dashed b)[k+1]?=some c ∧ c≠0x0A := by
  obtain ⟨j,rfl⟩ : ∃ j,k=j+2 := by
    match k with
    | 0 | 1 => cases h
    | j+2 => exact ⟨j,rfl⟩
  simp only [dashed,List.getElem?_cons_succ] at h ⊢
  have hlt := (List.getElem?_eq_some_iff.mp h).1
  have hcr : (b++[0x0A])[j]?=some 0x0D := by rwa [List.getElem?_append_left hlt]
  have hlf : (b++[0x0A])[j+1]?≠some 0x0A := fun hlf =>
    hb ((crlf_at.mpr ⟨hcr,hlf⟩).isInfix.trans (List.drop_suffix j _).isInfix)
  by_cases hend : j+1<b.length
  · refine ⟨b[j+1],List.getElem?_eq_getElem hend,fun hc => hlf ?_⟩
    rw [List.getElem?_append_left hend,List.getElem?_eq_getElem hend,hc]
  · rw [show j+1=b.length by omega,List.getElem?_concat_length] at hlf
    exact absurd rfl hlf

theorem not_startsLine (hb : OneLine b) (h : dashed b <+: body.drop p) (hpq : p<q)
    (hq : q<p+(dashed b).length+2) : startsLine body q=false := by
  by_contra hs
  rcases startsLine_iff.mp (by simpa using hs) with rfl | ⟨h2,hcr,hlf⟩
  · omega
  · by_cases hnext : q=p+1
    · subst hnext
      have hdash := prefix_at (k := 0) h (by simp [dashed])
      rw [show p+1-1=p+0 by omega,hdash] at hlf
      simp [dashed] at hlf
    · have hdash := prefix_at (k := q-2-p) h (by omega)
      rw [show p+(q-2-p)=q-2 by omega,hcr] at hdash
      obtain ⟨c,hc,hne⟩ := hb.after_cr hdash.symm
      have hnext := prefix_at (k := q-2-p+1) h (List.getElem?_eq_some_iff.mp hc).1
      rw [show p+(q-2-p+1)=q-1 by omega,hlf,hc] at hnext
      exact hne (Option.some.inj hnext).symm

theorem delimits_iff : delimits b body q=true ↔
    startsLine body q=true ∧ dashed b <+: body.drop q := by
  rw [delimits,Bool.and_eq_true,List.isPrefixOf_iff_prefix]

theorem delimitersFrom_eq (hb : OneLine b) (n i : Nat) (h : body.length<n+i) :
    delimitersFrom body (dashed b) n i=hits (delimits b body) (body.length+1) i := by
  induction n generalizing i with
  | zero => simp [delimitersFrom,hits,show body.length+1-i=0 by omega]
  | succ n ih =>
    rw [delimitersFrom]
    cases hindex : index (dashed b) (body.drop i) with
    | none =>
      have hnone := index_eq_none.mp hindex
      symm
      apply List.eq_nil_iff_forall_not_mem.mpr
      intro q hq
      obtain ⟨hq,ht⟩ := mem_hits.mp hq
      have hno := hnone (q-i)
      rw [List.drop_drop,show i+(q-i)=q by omega] at hno
      exact hno (delimits_iff.mp ht).2
    | some j =>
      obtain ⟨hj,hpre,hfirst⟩ := index_eq_some.mp hindex
      rw [List.drop_drop] at hpre
      have hbefore : ∀ q,i≤q → q < i+j → delimits b body q=false := by
        intro q hi hq
        have hno := hfirst (q-i) (by omega)
        rw [List.drop_drop,show i+(q-i)=q by omega] at hno
        rw [← Bool.not_eq_true,delimits_iff]
        exact fun hd => hno hd.2
      have hafter : ∀ q,i+j+1≤q → q < i+j+(dashed b).length →
          delimits b body q=false := by
        intro q hi hq
        simp [delimits,not_startsLine hb hpre (show i+j<q by omega) (by omega)]
      have hlength : 1≤(dashed b).length := by simp [dashed]
      have hfit := hpre.length_le
      rw [List.length_drop] at hfit
      dsimp only
      rw [hits_skip (Nat.le_add_right i j) hbefore,ih (i+j+(dashed b).length) (by omega),
        ← hits_skip (by omega) hafter]
      by_cases hs : startsLine body (i+j)=true
      · rw [if_pos hs,hits_cons (by omega) (delimits_iff.mpr ⟨hs,hpre⟩)]
      · rw [if_neg hs,← hits_step (by simp [delimits,hs])]

theorem prefix_before (hb : OneLine b) {t x : Bytes} (h : dashed b <+: t++(crlf++x)) :
    dashed b <+: t := by
  rcases List.prefix_or_prefix_of_prefix h (List.prefix_append t _) with hdt | ⟨u,hu⟩
  · exact hdt
  · cases u with
    | nil => simp [← hu]
    | cons c u =>
      rw [← hu,List.prefix_append_right_inj,crlf,List.cons_append,List.cons_prefix_cons] at h
      obtain ⟨c',hc',hne⟩ := hb.after_cr (k := t.length) (by simp [← hu,h.1])
      cases u with
      | nil => simp [← hu] at hc'
      | cons d u =>
        have hd : d=0x0A := (List.cons_prefix_cons.mp h.2).1
        simp [← hu,hd] at hc'
        exact absurd hc'.symm hne

theorem quiet (hb : OneLine b) {B t x : Bytes} (hB : B=[] ∨ crlf <:+ B) (ht : Clean b t)
    (hq : q<t.length+2) : delimits b (B++(t++(crlf++x))) (B.length+q)=false := by
  have hget : ∀ k,(B++(t++(crlf++x)))[B.length+k]?=(t++(crlf++x))[k]? := by
    intro k
    rw [List.getElem?_append_right (by omega),Nat.add_sub_cancel_left]
  rw [← Bool.not_eq_true,delimits_iff,startsLine_iff]
  rintro ⟨hs,hpre⟩
  rw [List.drop_append,Nat.add_sub_cancel_left,List.drop_eq_nil_of_le (by omega),
    List.nil_append] at hpre
  by_cases hlast : q=t.length+1
  · rcases hs with hs | ⟨-,-,hlf⟩
    · omega
    · rw [show B.length+q-1=B.length+t.length by omega,hget] at hlf
      simp [crlf] at hlf
  · rw [List.drop_append_of_le_length (by omega)] at hpre
    have hin : dashed b <+: t.drop q := prefix_before hb hpre
    have hno := ht q
    rw [← Bool.not_eq_true,delimits_iff,startsLine_iff] at hno
    refine hno ⟨?_,hin⟩
    by_cases h0 : q=0
    · exact .inl h0
    · rcases hs with hs | ⟨h2,hcr,hlf⟩
      · omega
      · by_cases h1 : q=1
        · rcases hB with rfl | ⟨B,rfl⟩
          · simp at h2
            omega
          · simp [h1,crlf] at hcr
        · rw [show B.length+q-2=B.length+(q-2) by omega,hget,
            List.getElem?_append_left (by omega)] at hcr
          rw [show B.length+q-1=B.length+(q-1) by omega,hget,
            List.getElem?_append_left (by omega)] at hlf
          exact .inr ⟨by omega,hcr,hlf⟩

theorem delimits_encode {A : Bytes} (hA : A=[] ∨ crlf <:+ A) (epilogue : Bytes)
    (parts : List Bytes) : delimits b (A++encode b epilogue parts) A.length=true := by
  rw [delimits_iff,startsLine_iff,List.drop_left]
  constructor
  · rcases hA with rfl | ⟨A,rfl⟩
    · exact .inl rfl
    · exact .inr ⟨by simp [crlf],by simp [crlf],by simp [crlf]⟩
  · cases parts <;> exact List.prefix_append _ _

theorem partsAt_encode (hb : OneLine b) (epilogue : Bytes) {parts : List Bytes}
    (hparts : ∀ t∈parts,Clean b t) {A : Bytes} (hA : A=[] ∨ crlf <:+ A) :
    let body := A++encode b epilogue parts
    partsAt body (dashed b) (hits (delimits b body) (body.length+1) A.length)=parts := by
  induction parts generalizing A with
  | nil =>
    have hdrop : (A++encode b epilogue []).drop (A.length+(dashed b).length) =
        [0x2D,0x2D]++crlf++epilogue := by
      simp [encode]
    dsimp only
    rw [hits_cons (by rw [List.length_append]; omega) (delimits_encode hA epilogue [])]
    simp [partsAt,hdrop]
  | cons t ts ih =>
    have hnext : crlf <:+ A++(dashed b++(crlf++(t++crlf))) := by
      simp only [← List.append_assoc]
      exact List.suffix_append _ _
    have hstart : crlf <:+ A++(dashed b++crlf) := by
      rw [← List.append_assoc]
      exact List.suffix_append _ _
    have hrest := ih (fun u hu => hparts u (List.mem_cons_of_mem t hu)) (.inr hnext)
    have hopen := delimits_encode (b := b) hA epilogue (t::ts)
    have hdelim := delimits_encode (b := b) (.inr hnext) epilogue ts
    have hquiet := fun q => quiet (q := q) (x := encode b epilogue ts) hb (.inr hstart)
      (hparts t List.mem_cons_self)
    have hbody : A++(dashed b++(crlf++(t++crlf)))++encode b epilogue ts =
        A++encode b epilogue (t::ts) := by
      simp [encode]
    have hbody' : A++(dashed b++crlf)++(t++(crlf++encode b epilogue ts)) =
        A++encode b epilogue (t::ts) := by
      simp [encode]
    have hline : (A++encode b epilogue (t::ts)).drop (A.length+(dashed b).length) =
        crlf++(t++(crlf++encode b epilogue ts)) := by
      simp [encode]
    rw [hbody] at hrest hdelim
    simp only [hbody'] at hquiet
    dsimp only at hrest ⊢
    generalize A++encode b epilogue (t::ts)=body at hrest hdelim hquiet hopen hline ⊢
    have hlong := congrArg List.length hline
    simp only [List.length_drop,List.length_append,show crlf.length=2 from rfl]
      at hlong hrest hdelim hquiet
    have hskip : ∀ q,A.length+1≤q → q<A.length+((dashed b).length+(2+(t.length+2))) →
        delimits b body q=false := by
      intro q h1 h2
      by_cases hq : q<A.length+(dashed b).length+2
      · simp [delimits,not_startsLine hb (delimits_iff.mp hopen).2 (by omega) hq]
      · have hq' := hquiet (q-(A.length+((dashed b).length+2))) (by omega)
        rwa [show A.length+((dashed b).length+2) +
          (q-(A.length+((dashed b).length+2)))=q by omega] at hq'
    have hindex : index crlf (crlf++(t++(crlf++encode b epilogue ts)))=some 0 :=
      index_eq_some.mpr ⟨by simp,by simp,by simp⟩
    have hclose : [0x2D,0x2D].isPrefixOf (crlf++(t++(crlf++encode b epilogue ts)))=false :=
      rfl
    have hpart : (body.drop (A.length+(dashed b).length+0+2)).take t.length=t := by
      rw [Nat.add_zero,← List.drop_drop,hline]
      simp [crlf]
    rw [hits_cons (by omega) hopen,hits_skip (by omega) hskip]
    generalize hn : A.length+((dashed b).length+(2+(t.length+2)))=next at hrest hdelim ⊢
    have hend : partEndAt body (hits (delimits b body) (body.length+1) next)=next-2 := by
      rw [hits_cons (by omega) hdelim,partEndAt,if_pos]
      simpa [startsLine,show next≠0 by omega] using (delimits_iff.mp hdelim).1
    simp only [partsAt,hline,hclose,hindex,hend,hrest,Bool.false_eq_true,if_false]
    rw [if_pos (by omega),show next-2-(A.length+(dashed b).length+0+2)=t.length by omega,hpart]

theorem partEndAt_le {n i a : Nat} (h : a∈hits (delimits b body) n i) :
    partEndAt body (hits (delimits b body) n i)≤a := by
  have hsorted : (hits (delimits b body) n i).Pairwise (· < ·) :=
    (List.pairwise_lt_range' 1).filter _
  cases hl : hits (delimits b body) n i with
  | nil => simp [hl] at h
  | cons next rest =>
    rw [hl] at h hsorted
    have hle : next≤a := by
      rcases List.mem_cons.mp h with rfl | ha
      · omega
      · exact (List.rel_of_pairwise_cons hsorted ha).le
    simp only [partEndAt]
    split_ifs <;> omega

theorem clean_of_mem_partsAt {i : Nat} {t : Bytes}
    (h : t∈partsAt body (dashed b) (hits (delimits b body) (body.length+1) i)) :
    Clean b t := by
  induction hk : body.length+1-i generalizing i with
  | zero => simp [hits,hk,partsAt] at h
  | succ k ih =>
    by_cases hd : delimits b body i=true
    · rw [hits_cons (by omega) hd] at h
      simp only [partsAt] at h
      split_ifs at h with hclose
      · cases h
      cases hindex : index crlf (body.drop (i+(dashed b).length)) with
      | none =>
        rw [hindex] at h
        exact ih h (by omega)
      | some nl =>
        rw [hindex] at h
        dsimp only at h
        obtain ⟨-,hcrlf,-⟩ := index_eq_some.mp hindex
        rw [List.drop_drop,crlf_at] at hcrlf
        generalize hps : i+(dashed b).length+nl+2=partStart at h
        generalize hpe : partEndAt body (hits (delimits b body) (body.length+1) (i+1))=partEnd at h
        split_ifs at h with hle
        · rcases List.mem_cons.mp h with rfl | h
          · intro q
            rw [← Bool.not_eq_true,delimits_iff,startsLine_iff]
            rintro ⟨hs,hpre⟩
            have hfit := hpre.length_le
            have hlength : 2≤(dashed b).length := by simp [dashed]
            simp only [List.length_drop,List.length_take] at hfit
            have hin : ∀ k<partEnd-partStart,
                ((body.drop partStart).take (partEnd-partStart))[k]?=body[partStart+k]? := by
              intro k hk
              rw [List.getElem?_take_of_lt hk,List.getElem?_drop]
            have habs : partStart+q∈hits (delimits b body) (body.length+1) (i+1) := by
              rw [mem_hits,delimits_iff,startsLine_iff]
              refine ⟨by omega,.inr ⟨by omega,?_⟩,?_⟩
              · rcases hs with rfl | ⟨h2,hcr,hlf⟩
                · rw [← hps]
                  exact ⟨hcrlf.1,hcrlf.2⟩
                · rw [hin _ (by omega)] at hcr hlf
                  exact ⟨by rwa [Nat.add_sub_assoc h2],by rwa [Nat.add_sub_assoc (by omega)]⟩
              · rw [← List.drop_drop]
                refine hpre.trans ?_
                rw [List.drop_take]
                exact List.take_prefix _ _
            have hend := partEndAt_le habs
            omega
          · exact ih h (by omega)
        · exact ih h (by omega)
    · rw [hits_step (by simpa using hd)] at h
      exact ih h (by omega)

/-- Parts come back just when none has such a line. -/
theorem splitParts_iff (hb : OneLine b) (preamble : Option Bytes)
    (hpre : ∀ t∈preamble,Clean b t) (parts : List Bytes) (epilogue : Bytes) :
    splitParts (preamble.elim [] (· ++ crlf)++encode b epilogue parts) b=parts ↔
      ∀ t∈parts,Clean b t := by
  rw [splitParts,findDelimiters,show 0x2D::0x2D::b=dashed b from rfl,
    delimitersFrom_eq hb _ _ (by omega)]
  constructor
  · intro h t ht
    rw [← h] at ht
    exact clean_of_mem_partsAt ht
  · intro hparts
    cases preamble with
    | none => exact partsAt_encode hb epilogue hparts (.inl rfl)
    | some t =>
      have hskip : ∀ q,0≤q → q<(t++crlf).length →
          delimits b (t++crlf++encode b epilogue parts) q=false := by
        intro q _ hq
        have hquiet := quiet (x := encode b epilogue parts) hb (.inl rfl)
          (hpre t rfl) (show q<t.length+2 by simpa [crlf] using hq)
        simpa using hquiet
      dsimp only [Option.elim_some]
      rw [hits_skip (Nat.zero_le _) hskip]
      exact partsAt_encode hb epilogue hparts (.inr (List.suffix_append t crlf))

theorem splitParts_iff_plain :
    splitParts ([0x70]++crlf++encode [0x62] [] [[0x61],[]]) [0x62]=[[0x61],[]] := by
  have hclean : ∀ t,t.length<3 → Clean [0x62] t := by
    intro t ht q
    rw [← Bool.not_eq_true,delimits_iff]
    rintro ⟨-,hpre⟩
    have hfit := hpre.length_le
    simp only [List.length_drop,dashed,List.length_cons] at hfit
    omega
  refine (splitParts_iff (by unfold OneLine; decide) (some [0x70]) ?_ [[0x61],[]] []).mpr ?_
  · intro t ht
    obtain rfl := Option.mem_some.mp ht
    exact hclean _ (by decide)
  · intro t ht
    rcases List.mem_pair.mp ht with rfl | rfl <;> exact hclean _ (by decide)

/-- The part `--bb` is lost to the boundary `b`. -/
theorem longer_boundary_split :
    splitParts (encode [0x62] [] [[0x2D,0x2D,0x62,0x62]]) [0x62]=[] := by
  decide

end HermEX.Mime
