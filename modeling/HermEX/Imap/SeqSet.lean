import HermEX.Framework.Lines
import HermEX.Imap.Session

namespace HermEX.Imap

open Framework

def parseSeqNum (s : Bytes) : Option Nat :=
  if s=lit "*" then some seqStar else (parseUint 32 s).filter (· ≠ 0)

def parseSeqRange (part : Bytes) : Option SeqRange :=
  match cut 0x3A part with
  | none => (parseSeqNum part).map fun a => ⟨a,a⟩
  | some (lo,hi) => (parseSeqNum lo).bind fun a => (parseSeqNum hi).map fun b => ⟨a,b⟩

def parseSeqSet (s : Bytes) : Option SeqSet :=
  if s=[] then none else (split 0x2C s).mapM parseSeqRange

def rangeText (lo hi : Nat) : Bytes :=
  if lo=hi then formatNat lo else formatNat lo++0x3A::formatNat hi

def esearchParts (lo hi : Nat) : List Nat → List Bytes
  | [] => [rangeText lo hi]
  | n::ns =>
    if n=(hi+1)%2^32 then esearchParts lo n ns else rangeText lo hi::esearchParts n n ns

def esearchSet : List Nat → Bytes
  | [] => []
  | n::ns => joined 0x2C (esearchParts n n ns)

/-- A number or a range, where `none` is `*`. -/
inductive SeqItem where
  | single (a : Option Nat)
  | range (a b : Option Nat)

def numberText (a : Option Nat) : Bytes := a.elim (lit "*") formatNat

namespace SeqItem

def text : SeqItem → Bytes
  | single a => numberText a
  | range a b => numberText a++0x3A::numberText b

def ends : SeqItem → Option Nat×Option Nat
  | single a => (a,a)
  | range a b => (a,b)

def Names (i : SeqItem) (n : Nat) : Prop := i.ends.1=some n ∨ i.ends.2=some n

def Denotes (top n : Nat) (i : SeqItem) : Prop :=
  min (i.ends.1.getD top) (i.ends.2.getD top)≤n ∧ n≤ max (i.ends.1.getD top) (i.ends.2.getD top)

def parsed (i : SeqItem) : SeqRange := ⟨i.ends.1.getD seqStar,i.ends.2.getD seqStar⟩

end SeqItem

/-- A `sequence-set` of the grammar. -/
structure SequenceSet where
  items : List SeqItem
  nonempty : items≠[]
  numbers : ∀ i∈items,∀ n,i.Names n → 0<n ∧ n<2^32

def SequenceSet.text (S : SequenceSet) : Bytes := joined 0x2C (S.items.map SeqItem.text)

def SequenceSet.Denotes (S : SequenceSet) (top n : Nat) : Prop := ∃ i∈S.items,i.Denotes top n

/-- Message numbers or UIDs in ascending order. -/
structure Ids where
  list : List Nat
  nonempty : list≠[]
  ascending : list.Pairwise (· < ·)
  numbers : ∀ n∈list,0<n ∧ n<2^32

def Means (text : Bytes) (P : Nat → Nat → Prop) : Prop :=
  ∃ ss : SeqSet,parseSeqSet text=some ss ∧ ∀ n top,1≤n → 1≤top → (ss.contains n top=true ↔ P top n)

theorem separator_notMem {sep : UInt8} (h : sep=0x3A ∨ sep=0x2C) (a : Option Nat) :
    sep∉numberText a := by
  cases a with
  | none => rcases h with rfl | rfl <;> decide
  | some n =>
    intro hmem
    have hdigit := List.all_eq_true.mp (formatNat_digits n) sep hmem
    rcases h with rfl | rfl <;> cases hdigit

variable {a : Option Nat}

theorem parseSeqNum_text (h : ∀ n,a=some n → 0<n ∧ n<2^32) :
    parseSeqNum (numberText a)=some (a.getD seqStar) := by
  cases a with
  | none => rfl
  | some n =>
    obtain ⟨hpos,hlt⟩ := h n rfl
    have hstar : formatNat n≠lit "*" := by
      intro he
      have hdigits := formatNat_digits n
      rw [he] at hdigits
      cases hdigits
    have hread : parseUint 32 (formatNat n)=some n := by
      rw [parseUint,parseDigits_formatNat]
      exact Option.filter_some_pos (by simpa using hlt)
    simp [numberText,parseSeqNum,hstar,hread,Nat.ne_of_gt hpos]

theorem parseSeqRange_text {i : SeqItem} (h : ∀ n,i.Names n → 0<n ∧ n<2^32) :
    parseSeqRange i.text=some i.parsed := by
  cases i with
  | single a =>
    have ha := parseSeqNum_text (a := a) fun n hn => h n (.inl hn)
    have hcut : cut 0x3A (numberText a)=none := by
      cases hc : cut 0x3A (numberText a) with
      | none => rfl
      | some p =>
        obtain ⟨hs,-⟩ := cut_eq_some 0x3A hc
        exact absurd (by rw [hs]; simp) (separator_notMem (.inl rfl) a)
    simp [parseSeqRange,SeqItem.text,hcut,ha,SeqItem.parsed,SeqItem.ends]
  | range a b =>
    have ha := parseSeqNum_text (a := a) fun n hn => h n (.inl hn)
    have hb := parseSeqNum_text (a := b) fun n hn => h n (.inr hn)
    have hcut := cut_append 0x3A (separator_notMem (.inl rfl) a) (numberText b)
    simp [parseSeqRange,SeqItem.text,hcut,ha,hb,SeqItem.parsed,SeqItem.ends]

theorem comma_notMem (i : SeqItem) : 0x2C∉i.text := by
  cases i <;> simp [SeqItem.text,separator_notMem (.inr rfl)]

theorem mapM_parseSeqRange {items : List SeqItem} (h : ∀ i∈items,∀ n,i.Names n → 0<n ∧ n<2^32) :
    (items.map SeqItem.text).mapM parseSeqRange=some (items.map SeqItem.parsed) := by
  induction items with
  | nil => rfl
  | cons i items ih =>
    have hi := parseSeqRange_text (h i (by simp))
    have hitems := ih fun j hj => h j (by simp [hj])
    simp [hi,hitems]

theorem parseSeqSet_text (S : SequenceSet) :
    parseSeqSet S.text=some (S.items.map SeqItem.parsed) := by
  have hsplit : split 0x2C S.text=S.items.map SeqItem.text :=
    split_joined (by simpa using S.nonempty) (by simp [comma_notMem])
  have hall : ∀ s,parseSeqSet s=(split 0x2C s).mapM parseSeqRange := by
    intro s
    cases s with
    | nil | cons => rfl
  rw [hall,hsplit,mapM_parseSeqRange S.numbers]

theorem contains_parsed (items : List SeqItem) (n top : Nat) :
    SeqSet.contains (items.map SeqItem.parsed) n top=true ↔
      ∃ i∈items,min (i.parsed.resolve top).1 (i.parsed.resolve top).2≤n ∧
        n≤ max (i.parsed.resolve top).1 (i.parsed.resolve top).2 := by
  simp only [SeqSet.contains,List.any_map,List.any_eq_true,Function.comp_apply]
  refine exists_congr fun i => and_congr_right fun _ => ?_
  by_cases h : (i.parsed.resolve top).2<(i.parsed.resolve top).1 <;> simp [h] <;> omega

theorem resolve_end (h : a≠some seqStar) (top : Nat) :
    (if a.getD seqStar=seqStar then top else a.getD seqStar)=a.getD top := by
  cases a with
  | none => rfl
  | some n => exact if_neg fun he => h (congrArg some he)

theorem resolve_end_lt (h : ∀ n,a=some n → n<2^32) :
    (if a.getD seqStar=seqStar then 1 else a.getD seqStar)<seqStar := by
  split
  · decide
  · cases a with
    | none => contradiction
    | some n =>
      have hn := h n rfl
      simp only [Option.getD_some,seqStar] at *
      omega

theorem names_denotes {i : SeqItem} {n : Nat} (h : i.Names n) (top : Nat) : i.Denotes top n := by
  rcases h with h | h <;> simp [SeqItem.Denotes,h]

theorem Means.not_seqStar {S : SequenceSet} {P : Nat → Nat → Prop} (h : Means S.text P) :
    ¬P 1 seqStar := by
  intro hP
  obtain ⟨ss,hss,hiff⟩ := h
  obtain rfl := Option.some.inj ((parseSeqSet_text S).symm.trans hss)
  have hin := (hiff seqStar 1 (by decide) le_rfl).mpr hP
  obtain ⟨i,hi,-,hhigh⟩ := (contains_parsed _ _ _).mp hin
  have hlo := resolve_end_lt fun n hn => (S.numbers i hi n (.inl hn)).2
  have hhi := resolve_end_lt fun n hn => (S.numbers i hi n (.inr hn)).2
  exact absurd hhigh (Nat.not_le.mpr (max_lt hlo hhi))

theorem means_text_iff (S : SequenceSet) :
    Means S.text S.Denotes ↔ ∀ i∈S.items,¬i.Names seqStar := by
  constructor
  · intro h i hi hname
    exact h.not_seqStar ⟨i,hi,names_denotes hname 1⟩
  · intro h
    refine ⟨_,parseSeqSet_text S,fun n top _ _ => (contains_parsed _ _ _).trans ?_⟩
    refine exists_congr fun i => and_congr_right fun hi => ?_
    have hlo := resolve_end (fun he => h i hi (.inl he)) top
    have hhi := resolve_end (fun he => h i hi (.inr he)) top
    have hresolve : i.parsed.resolve top=(i.ends.1.getD top,i.ends.2.getD top) := Prod.ext hlo hhi
    rw [hresolve,SeqItem.Denotes]

def runItem (lo hi : Nat) : SeqItem := if lo=hi then .single (some lo) else .range (some lo) (some hi)

theorem runItem_text (lo hi : Nat) : (runItem lo hi).text=rangeText lo hi := by
  unfold runItem rangeText
  split <;> rfl

theorem runItem_ends (lo hi : Nat) : (runItem lo hi).ends=(some lo,some hi) := by
  unfold runItem
  split
  next h => rw [h]; rfl
  next => rfl

theorem runItem_denotes {lo hi : Nat} (hle : lo≤hi) (top n : Nat) :
    (runItem lo hi).Denotes top n ↔ lo≤n ∧ n≤hi := by
  simp [SeqItem.Denotes,runItem_ends,min_eq_left hle,max_eq_right hle]

theorem esearchParts_items {ns : List Nat} {lo hi : Nat} (hle : lo≤hi)
    (hasc : (hi::ns).Pairwise (· < ·)) (hlt : ∀ n∈ns,n<2^32) :
    ∃ items,esearchParts lo hi ns=items.map SeqItem.text ∧ items≠[] ∧
      (∀ top n,(∃ i∈items,i.Denotes top n) ↔ lo≤n ∧ n≤hi ∨ n∈ns) := by
  induction ns generalizing lo hi with
  | nil =>
    refine ⟨[runItem lo hi],by simp [esearchParts,runItem_text],by simp,fun top n => ?_⟩
    simp [runItem_denotes hle]
  | cons m ns ih =>
    obtain ⟨hhi,htail⟩ := List.pairwise_cons.mp hasc
    have hm := hhi m (by simp)
    have hmlt := hlt m (by simp)
    have hrest : ∀ n∈ns,n<2^32 := fun n hn => hlt n (by simp [hn])
    rw [esearchParts]
    split
    next hnext =>
      have hsucc : m=hi+1 := by omega
      obtain ⟨items,htext,hne,hden⟩ := ih (show lo≤ m by omega) htail hrest
      refine ⟨items,htext,hne,fun top n => (hden top n).trans ?_⟩
      simp only [List.mem_cons]
      grind
    next =>
      obtain ⟨items,htext,-,hden⟩ := ih le_rfl htail hrest
      refine ⟨runItem lo hi::items,by simp [runItem_text,htext],by simp,fun top n => ?_⟩
      simp only [List.mem_cons,exists_eq_or_imp,runItem_denotes hle,hden top n]
      grind

theorem esearchSet_text (ids : Ids) :
    ∃ S : SequenceSet,esearchSet ids.list=S.text ∧ ∀ top n,S.Denotes top n ↔ n∈ids.list := by
  obtain ⟨list,hne,hasc,hnum⟩ := ids
  cases list with
  | nil => exact absurd rfl hne
  | cons m ns =>
    have hlt : ∀ n∈ns,n<2^32 := fun n hn => (hnum n (by simp [hn])).2
    obtain ⟨items,htext,hitems,hden⟩ := esearchParts_items le_rfl hasc hlt
    have hmem : ∀ top n,(∃ i∈items,i.Denotes top n) ↔ n∈m::ns := fun top n =>
      (hden top n).trans (by grind)
    exact ⟨⟨items,hitems,fun i hi n hn => hnum n ((hmem 1 n).mp ⟨i,hi,names_denotes hn 1⟩)⟩,
      congrArg (joined 0x2C) htext,hmem⟩

theorem means_esearchSet_iff (ids : Ids) :
    Means (esearchSet ids.list) (fun _ n => n∈ids.list) ↔ seqStar∉ids.list := by
  obtain ⟨S,htext,hden⟩ := esearchSet_text ids
  rw [htext]
  constructor
  · exact fun h => h.not_seqStar
  · intro hno
    have hmeans := (means_text_iff S).mpr fun i hi hn =>
      hno ((hden 1 seqStar).mp ⟨i,hi,names_denotes hn 1⟩)
    simpa only [Means,hden] using hmeans

/-- A text is read as meant unless it spells out the value of `*`. -/
theorem seqSet_means_iff (S : SequenceSet) (ids : Ids) :
    (Means S.text S.Denotes ↔ ∀ i∈S.items,¬i.Names 4294967295) ∧
    (Means (esearchSet ids.list) (fun _ n => n∈ids.list) ↔ 4294967295∉ids.list) :=
  ⟨means_text_iff S,means_esearchSet_iff ids⟩

theorem literal_max_missing : (SeqItem.single (some 4294967295)).text=lit "4294967295" ∧
      (SeqItem.single (some 4294967295)).Denotes 1 4294967295 ∧
      ∃ ss : SeqSet,parseSeqSet (lit "4294967295")=some ss ∧ ss.contains 4294967295 1=false :=
  ⟨by decide,names_denotes (.inl rfl) 1,[⟨4294967295,4294967295⟩],rfl,by decide⟩

end HermEX.Imap
