import HermEX.Oxcical.Occurrences
import HermEX.Oxcical.SyntaxLaws

namespace HermEX.Oxcical

open Framework

def Same (c d : Icomp) : Prop := c.map Iline.view=d.map Iline.view

def NameShape (T : Strings) (n : Bytes) : Prop := T.toUpper (T.trimSpace n)=n ∧ 0x0A∉n

def PropertyShape (T : Strings) (l : Iline) : Prop :=
  Shape T l ∧ l.name≠lit "BEGIN" ∧ l.name≠lit "END"

def Word (w : Bytes) : Bool :=
  w.all (fun b => b<0x80 && (b≠0x22 && (b≠0x3A && (b≠0x3B && b≠0x0A)))) &&
    Strings.ascii.trimSpace w=w && Strings.asciiUpper w=w

/-- A tree that could have been read. -/
structure Readable (T : Strings) (c : Icomp) : Prop where
  all : c.All (NameShape T) (PropertyShape T)
  height : c.height ≤ maxNestingDepth

section ReadBack

variable {T : Strings} (hT : T.Lawful) (order : MapOrder)

variable {w : Bytes} {c : Icomp}

theorem componentLines_all (cs : List Icomp) :
    writeComponent.all order cs=cs.flatMap (writeComponent order) := by
  induction cs with
  | nil => rfl
  | cons c cs ih => rw [writeComponent.all,ih,List.flatMap_cons]

theorem tokens_all (cs : List Icomp) : Comp.tokens.all cs=cs.flatMap Comp.tokens := by
  induction cs with
  | nil => rfl
  | cons c cs ih => rw [Comp.tokens.all,ih,List.flatMap_cons]

include hT

theorem parseICal_readable {raw : Bytes} {t : Icomp} (h : parseICal T raw=some t) :
    Readable T t := by
  refine ⟨?_,Builder.build_height h⟩
  apply Builder.build_all _ h
  intro k hk
  obtain ⟨line,hline,rfl⟩ := List.mem_map.mp hk
  have hlf : 0x0A∉line := not_mem_unfoldLines (List.mem_filter.mp hline).1
  have hshape := contentLine_shape hT hlf
  simp only [token]
  split_ifs with hb he
  · refine ⟨by rw [hT.trim_upper,hT.upper_upper],?_⟩
    intro hmem
    have hin := hT.mem_trim ((hT.mem_upper (by decide)).mp hmem)
    exact hshape.value hin
  · trivial
  · exact ⟨hshape,hb,he⟩

omit hT in
theorem word_not_mem (h : Word w=true) {b : UInt8}
    (hb : b=0x22 ∨ b=0x3A ∨ b=0x3B ∨ b=0x0A) : b∉w := by
  intro hmem
  simp only [Word,Bool.and_eq_true,List.all_eq_true,decide_eq_true_eq] at h
  have hbyte := h.1.1 b hmem
  rcases hb with rfl | rfl | rfl | rfl <;> simp at hbyte

theorem word_fixed (h : Word w=true) : T.trimSpace w=w ∧ T.toUpper w=w := by
  simp only [Word,Bool.and_eq_true,decide_eq_true_eq] at h
  obtain ⟨⟨hbytes,htrim⟩,hupper⟩ := h
  have hascii : w.all (· < 0x80)=true := by
    rw [List.all_eq_true] at hbytes ⊢
    intro b hb
    have hbyte := hbytes b hb
    simp only [Bool.and_eq_true] at hbyte
    exact hbyte.1
  exact ⟨by rw [hT.trim_ascii w hascii,htrim],by rw [hT.upper_ascii w hascii,hupper]⟩

theorem contentLine_written (hw : Word w=true) (xs : List (Bytes×Bytes))
    (hxs : ∀ x∈xs,Word x.1=true ∧ Word x.2=true ∧ 0x3D∉x.1 ∧ 0x2C∉x.2) (value : Bytes) :
    contentLine T ((w++xs.flatMap fun x => 0x3B::(x.1++0x3D::x.2))++0x3A::value) =
      ⟨w,xs.foldl Params.add .empty,value⟩ := by
  have hnot : ∀ b : UInt8,b=0x22 ∨ b=0x3A →
      b∉w++xs.flatMap fun x => 0x3B::(x.1++0x3D::x.2) := by
    intro b hb hmem
    simp only [List.mem_append,List.mem_flatMap,List.mem_cons] at hmem
    rcases hmem with hmem | ⟨x,hx,hmem⟩
    · exact word_not_mem hw (by tauto) hmem
    · obtain ⟨hk,hv,-,-⟩ := hxs x hx
      rcases hmem with rfl | hmem | rfl | hmem
      · simp at hb
      · exact word_not_mem hk (by tauto) hmem
      · simp at hb
      · exact word_not_mem hv (by tauto) hmem
  have hcut : cutUnquoted 0x3A false
      ((w++xs.flatMap fun x => 0x3B::(x.1++0x3D::x.2))++0x3A::value) =
        some (w++xs.flatMap fun x => 0x3B::(x.1++0x3D::x.2),value) := by
    rw [cutUnquoted_append _ _ _ _ (quotedAfter_of_not_mem 0x3A false (hnot 0x22 (by simp))
      (hnot 0x3A (by simp)))]
    simp [cutUnquoted]
  have hsplit := splitLeft_written w xs (word_not_mem hw (by simp))
    (fun x hx => by
      obtain ⟨hk,hv,heq,hcomma⟩ := hxs x hx
      rw [(word_fixed hT hk).1,(word_fixed hT hk).2]
      exact ⟨rfl,word_not_mem hk (by simp),heq,word_not_mem hv (by simp),hcomma⟩) value
  have hvalues : (xs.map fun x => (x.1,trimQuotes (T.trimSpace x.2)))=xs := by
    have hid : ∀ x∈xs,(x.1,trimQuotes (T.trimSpace x.2))=id x := by
      intro x hx
      obtain ⟨-,hv,-,-⟩ := hxs x hx
      rw [(word_fixed hT hv).1,trimQuotes_eq_self (word_not_mem hv (by simp))]
      rfl
    rw [List.map_congr_left hid,List.map_id]
  simp only [contentLine,splitLine,hcut,hsplit,hvalues,(word_fixed hT hw).1,(word_fixed hT hw).2]

theorem contentLine_word (hw : Word w=true) (value : Bytes) :
    contentLine T (w++0x3A::value)=⟨w,.empty,value⟩ := by
  have h := contentLine_written hT hw [] (by simp) value
  simpa using h

theorem token_begin {n : Bytes} (hn : NameShape T n) : token T (lit "BEGIN:" ++ n)=.opened n := by
  have hline : lit "BEGIN:" ++ n=lit "BEGIN" ++ 0x3A::n := rfl
  rw [token,hline,contentLine_word hT (by decide)]
  simp [hn.1]

theorem token_end (n : Bytes) : token T (lit "END:" ++ n)=.closed := by
  have hline : lit "END:" ++ n=lit "END" ++ 0x3A::n := rfl
  have hne : lit "END" ≠ lit "BEGIN" := by decide
  rw [token,hline,contentLine_word hT (by decide)]
  simp [hne]

theorem tokens_written (h : c.All (NameShape T) (PropertyShape T)) :
    (writeComponent order c).map (token T) =
      (c.map fun l => contentLine T (renderIline order l)).tokens := by
  induction c using Comp.induct with
  | h n ps cs ih =>
    obtain ⟨hn,hps,hcs⟩ := Comp.all_mk.mp h
    have hprops : (ps.map (renderIline order)).map (token T) =
        (ps.map fun l => contentLine T (renderIline order l)).map Token.property := by
      rw [List.map_map,List.map_map]
      apply List.map_congr_left
      intro l hl
      exact reread_property hT (hps l hl).1 (hps l hl).2.1 (hps l hl).2.2
    have hcomps : (cs.flatMap (writeComponent order)).map (token T) =
        (cs.map (Comp.map fun l => contentLine T (renderIline order l))).flatMap Comp.tokens := by
      rw [List.map_flatMap,List.flatMap_map]
      exact List.flatMap_congr fun c hc => ih c hc (hcs c hc)
    rw [writeComponent,Comp.map_mk,Comp.tokens,componentLines_all,tokens_all]
    simp [hprops,hcomps,token_begin hT hn,token_end hT]

theorem line_written {l : Iline} (h : Shape T l) :
    0x0A∉renderIline order l ∧ continues (renderIline order l)=false ∧ renderIline order l≠[] := by
  refine ⟨?_,?_,by simp [renderIline]⟩
  · intro hmem
    simp only [renderIline,Iline.left,List.mem_append,List.mem_cons,List.mem_flatMap] at hmem
    rcases hmem with (hmem | ⟨x,hx,hmem⟩) | hmem | hmem
    · exact h.name_part.2 hmem
    · obtain ⟨⟨-,-,-,hk⟩,-,-,hv⟩ := pair_shape h hx
      rcases hmem with hmem | hmem | hmem | hmem
      · cases hmem
      · exact hk hmem
      · cases hmem
      · exact hv hmem
    · cases hmem
    · exact h.value hmem
  · cases hname : l.name with
    | cons b bs =>
      have hb := hT.trim_head l.name b (by rw [h.name_trimmed,hname]; rfl)
      have h20 : b≠0x20 := by
        rintro rfl
        cases hb
      have h09 : b≠0x09 := by
        rintro rfl
        cases hb
      simp [continues,renderIline,Iline.left,hname,h20,h09]
    | nil =>
      cases hp : l.pairs order with
      | nil | cons x xs => simp [continues,renderIline,Iline.left,hname,hp]

theorem component_written (h : c.All (NameShape T) (PropertyShape T)) {s : Bytes}
    (hs : s∈writeComponent order c) : 0x0A∉s ∧ continues s=false ∧ s≠[] := by
  induction c using Comp.induct with
  | h n ps cs ih =>
    obtain ⟨hn,hps,hcs⟩ := Comp.all_mk.mp h
    have hword : ∀ w : Bytes,0x0A∉w → continues w=false → w≠[] →
        0x0A∉w++n ∧ continues (w++n)=false ∧ w++n≠[] := by
      intro w hlf hcont hne
      refine ⟨fun hmem => (List.mem_append.mp hmem).elim hlf hn.2,?_,by simp [hne]⟩
      cases w with
      | nil => exact absurd rfl hne
      | cons b w => simpa [continues] using hcont
    rw [writeComponent,componentLines_all] at hs
    simp only [List.mem_cons,List.mem_append,List.mem_map,List.mem_flatMap,List.not_mem_nil,
      or_false] at hs
    rcases hs with rfl | ⟨l,hl,rfl⟩ | ⟨c,hc,hs⟩ | rfl
    · exact hword (lit "BEGIN:") (by decide) (by decide) (by decide)
    · exact line_written hT order (hps l hl).1
    · exact ih c hc (hcs c hc) hs
    · exact hword (lit "END:") (by decide) (by decide) (by decide)

omit hT in
theorem height_map {M : Type} (f : Iline → M) (c : Icomp) : (c.map f).height=c.height := by
  induction c using Comp.induct with
  | h n ps cs ih =>
    have hcs : Comp.height.heights (cs.map (Comp.map f))=Comp.height.heights cs := by
      induction cs with
      | nil => rfl
      | cons c cs ihs =>
        rw [List.map_cons,Comp.height.heights,Comp.height.heights,ih c (by simp),
          ihs fun d hd => ih d (by simp [hd])]
    rw [Comp.map_mk,Comp.height,Comp.height,hcs]

theorem parseICal_written (h : Readable T c) :
    parseICal T (writeLines (writeComponent order c)) =
      some (c.map fun l => contentLine T (renderIline order l)) := by
  have hlines : ∀ s∈writeComponent order c,0x0A∉s ∧ continues s=false ∧ s≠[] :=
    fun s hs => component_written hT order h.all hs
  have hcontent : contentLines (writeLines (writeComponent order c))=writeComponent order c := by
    rw [contentLines,writeLines,unfoldLines_folded 75 (fun s hs => (hlines s hs).2.1)
      (fun s hs => (hlines s hs).1) (by decide),List.filter_append,List.filter_eq_self.mpr]
    · simp
    · intro s hs
      simpa using (hlines s hs).2.2
  rw [parseICal,hcontent,tokens_written hT order h.all]
  apply Builder.build_tokens
  intro n hn
  rw [height_map] at hn
  exact decide_eq_true (hn.trans h.height)

theorem same_written_iff {d : Icomp} (h : Readable T c) (hd : parseICal T
    (writeLines (writeComponent order c))=some d) :
    Same d c ↔ c.All (fun _ => True) (PlainLine T order) := by
  rw [parseICal_written hT order h] at hd
  cases hd
  rw [Same,Comp.map_map,Comp.map_eq_map_iff]
  have hshape := h.all
  constructor
  · intro hc
    refine (hc.and hshape).mono (fun _ _ => trivial) fun l hl => ?_
    exact (reread_iff hT hl.2.1).mp hl.1
  · intro hc
    refine (hc.and hshape).mono (fun _ _ => trivial) fun l hl => ?_
    exact (reread_iff hT hl.2.1).mpr hl.1

end ReadBack
end HermEX.Oxcical
