import HermEX.Framework.Lines
import HermEX.Framework.Search

namespace HermEX.Mime

open Framework

def crlf : Bytes := [0x0D,0x0A]

def headerEnd (raw : Bytes) : Nat :=
  match index (crlf++crlf) raw with
  | some i => i+4
  | none => match index [0x0A,0x0A] raw with
    | some i => i+2
    | none => raw.length

def bodyStart (raw : Bytes) : Nat := headerEnd raw

def startsLine (body : Bytes) (pos : Nat) : Bool :=
  pos=0 || (2≤pos && crlf.isPrefixOf (body.drop (pos-2)))

def delimitersFrom (body dash : Bytes) : Nat → Nat → List Nat
  | 0,_ => []
  | n+1,i => match index dash (body.drop i) with
    | none => []
    | some j =>
      let rest := delimitersFrom body dash n (i+j+dash.length)
      if startsLine body (i+j) then (i+j)::rest else rest

def findDelimiters (body dash : Bytes) : List Nat := delimitersFrom body dash (body.length+1) 0

def partEndAt (body : Bytes) : List Nat → Nat
  | [] => body.length
  | next::_ => if 2≤next && crlf.isPrefixOf (body.drop (next-2)) then next-2 else next

def partsAt (body dash : Bytes) : List Nat → List Bytes
  | [] => []
  | pos::rest =>
    let after := pos+dash.length
    if [0x2D,0x2D].isPrefixOf (body.drop after) then []
    else match index crlf (body.drop after) with
      | none => partsAt body dash rest
      | some nl =>
        let partStart := after+nl+2
        let partEnd := partEndAt body rest
        if partStart≤partEnd then
          (body.drop partStart).take (partEnd-partStart)::partsAt body dash rest
        else partsAt body dash rest

def splitParts (body boundary : Bytes) : List Bytes :=
  let dash := 0x2D::0x2D::boundary
  partsAt body dash (findDelimiters body dash)

structure ContentHeaders where
  type : Bytes
  subtype : Bytes
  boundary : Bytes

inductive Part where
  | mk (raw : Bytes) (bodyOffset : Nat) (children : List Part) (msgBody : Option Part)

def parseEntity (readContentHeaders : Bytes → ContentHeaders) : Nat → Bytes → Part
  | 0,raw => .mk raw (headerEnd raw) [] none
  | levels+1,raw =>
    let bodyOffset := headerEnd raw
    let p := readContentHeaders (raw.take bodyOffset)
    let body := raw.drop bodyOffset
    if p.type=lit "multipart" && p.boundary≠[] then
      .mk raw bodyOffset
        ((splitParts body p.boundary).map (parseEntity readContentHeaders levels)) none
    else if p.type=lit "message" && p.subtype=lit "rfc822" then
      .mk raw bodyOffset [] (some (parseEntity readContentHeaders levels body))
    else .mk raw bodyOffset [] none

def Part.rawHeader : Part → Bytes
  | .mk raw bodyOffset _ _ => raw.take bodyOffset

def Part.rawBody : Part → Bytes
  | .mk raw bodyOffset _ _ => raw.drop bodyOffset

theorem parseEntity_raw (readContentHeaders : Bytes → ContentHeaders) (levels : Nat) (raw : Bytes) :
    ∃ children msgBody,parseEntity readContentHeaders levels raw =
      .mk raw (headerEnd raw) children msgBody := by
  cases levels with
  | zero => exact ⟨_,_,rfl⟩
  | succ levels =>
    simp only [parseEntity]
    split_ifs <;> exact ⟨_,_,rfl⟩

structure HeaderLine (l : Bytes) : Prop where
  nonblank : l≠[]
  whole : ¬crlf <:+: l

theorem HeaderLine.not_crlf {l : Bytes} (h : HeaderLine l) (t : Bytes) :
    ¬crlf <+: l++crlf++t := by
  intro hpre
  rcases l with _ | ⟨a,_ | ⟨b,l⟩⟩
  · exact h.nonblank rfl
  · simp [crlf] at hpre
  · simp only [crlf,List.cons_append,List.cons_prefix_cons,List.nil_prefix,and_true] at hpre
    obtain ⟨rfl,rfl⟩ := hpre
    exact h.whole ⟨[],l,rfl⟩

theorem HeaderLine.drop {l : Bytes} (h : HeaderLine l) {j : Nat} (hj : j<l.length) :
    HeaderLine (l.drop j) :=
  ⟨by simpa using hj,fun hin => h.whole (hin.trans (List.drop_suffix j l).isInfix)⟩

theorem terminated_cons (l : Bytes) (ls : List Bytes) :
    terminated (l::ls)=l++crlf++terminated ls := by
  simp [terminated,crlf]

theorem blank_past_header {h : List Bytes} (hlines : ∀ l∈h,HeaderLine l) (body : Bytes) {j : Nat}
    (hj : crlf++crlf <+: (terminated h++crlf++body).drop j) :
    (terminated h).length≤j+2 := by
  induction h generalizing j with
  | nil => simp [terminated]
  | cons l ls ih =>
    simp only [List.mem_cons,forall_eq_or_imp] at hlines
    rw [terminated_cons] at hj ⊢
    have htext : l++crlf++terminated ls++crlf++body =
        l++(crlf++(terminated ls++crlf++body)) := by simp
    rw [htext] at hj
    rcases Nat.lt_trichotomy j l.length with hlt | rfl | hgt
    · -- a blank line inside the line
      rw [List.drop_append_of_le_length (by omega)] at hj
      have hend := (List.prefix_append crlf crlf).trans hj
      rw [← List.append_assoc] at hend
      exact absurd hend ((hlines.1.drop hlt).not_crlf _)
    · cases ls with
      | nil => simp [terminated,crlf]
      | cons m ms =>
        rw [terminated_cons] at hj
        exact absurd (by simpa using hj) ((hlines.2 m (by simp)).not_crlf
          (terminated ms++crlf++body))
    · obtain ⟨k,rfl⟩ : ∃ k,j=l.length+(k+1) := ⟨j-l.length-1,by omega⟩
      cases k with
      | zero => simp [crlf] at hj
      | succ k =>
        have hrest := ih hlines.2 (by simpa [crlf] using hj)
        simp only [List.length_append,crlf,List.length_cons,List.length_nil]
        omega

theorem headerEnd_lines {h : List Bytes} (hlines : ∀ l∈h,HeaderLine l) (hne : h≠[])
    (body : Bytes) :
    headerEnd (terminated h++crlf++body)=(terminated h++crlf).length := by
  obtain ⟨ls,l,rfl⟩ := List.eq_nil_or_concat h |>.resolve_left hne
  have htext : terminated (ls.concat l)=terminated ls++l++crlf := by simp [terminated,crlf]
  have hindex : index (crlf++crlf) (terminated (ls.concat l)++crlf++body) =
      some (terminated ls++l).length := by
    refine index_eq_some.mpr ⟨?_,?_,?_⟩
    · rw [htext]
      simp
    · rw [htext]
      simp
    · intro j hj hpre
      have hpast := blank_past_header hlines body hpre
      rw [htext] at hpast
      simp only [List.length_append,crlf,List.length_cons] at hpast hj
      omega
  simp only [headerEnd,hindex]
  rw [htext]
  simp only [List.length_append,crlf,List.length_cons,List.length_nil]

def SplitsAt (header body : Bytes) : Prop :=
  headerEnd (header++body)=header.length ∧ bodyStart (header++body)=header.length ∧
    ∀ readContentHeaders levels,
      let p := parseEntity readContentHeaders levels (header++body)
      p.rawHeader=header ∧ p.rawBody=body

theorem splitsAt_of_headerEnd {header body : Bytes}
    (h : headerEnd (header++body)=header.length) : SplitsAt header body := by
  refine ⟨h,h,?_⟩
  intro readContentHeaders levels p
  obtain ⟨children,msgBody,hp⟩ := parseEntity_raw readContentHeaders levels (header++body)
  simp [p,hp,h,Part.rawHeader,Part.rawBody]

/-- Header and body are told apart unless only the header is empty. -/
theorem splitsAt_iff (h : List Bytes) (hlines : ∀ l ∈ h,HeaderLine l) (body : Bytes) :
    SplitsAt (terminated h ++ crlf) body ↔ h ≠ [] ∨ body = [] := by
  constructor
  · rintro ⟨hend,-⟩
    by_contra hnot
    rw [not_or,not_not] at hnot
    obtain ⟨rfl,hbody⟩ := hnot
    simp only [terminated] at hend
    unfold headerEnd at hend
    split at hend
    · simp [crlf] at hend
    split at hend
    · rename_i i hi
      have hi0 : i=0 := by simpa [crlf] using hend
      obtain ⟨-,hpre,-⟩ := index_eq_some.mp hi
      simp [hi0,crlf] at hpre
    · simp at hend
      exact hbody hend
  · rintro (hne | rfl)
    · exact splitsAt_of_headerEnd (headerEnd_lines hlines hne body)
    · apply splitsAt_of_headerEnd
      by_cases hne : h=[]
      · subst hne
        decide
      · exact headerEnd_lines hlines hne []

/-- The blank line ends a header that has lines. -/
theorem splitsAt_iff_plain :
    SplitsAt (terminated [lit "A: b"] ++ crlf) (crlf ++ crlf ++ lit "x") :=
  (splitsAt_iff _ (by
    intro l hl
    obtain rfl := List.mem_singleton.mp hl
    exact ⟨by decide,by decide⟩) _).mpr (.inl (by decide))

/-- Without header lines the text is lost up to the first blank line, or all of it. -/
theorem empty_header_missed :
    headerEnd (terminated [] ++ crlf ++ (lit "a" ++ crlf ++ crlf ++ lit "b")) = 7 ∧
      headerEnd (terminated [] ++ crlf ++ lit "a") = 3 ∧
      ¬SplitsAt (terminated [] ++ crlf) (lit "a") := by
  have hend : headerEnd (terminated []++crlf++lit "a")=3 := by decide
  refine ⟨by decide,hend,?_⟩
  rintro ⟨hsplit,-⟩
  exact absurd (hend.symm.trans hsplit) (by decide)

end HermEX.Mime
