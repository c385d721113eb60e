import HermEX.Dav.Scheduling

namespace HermEX.Dav

open Framework Oxcical

def isMethod (l : Iline) : Bool := l.name=lit "METHOD"

def setMethod (method : Bytes) (t : Icomp) : Icomp :=
  .mk t.name (⟨lit "METHOD",.empty,method⟩::t.props.filter fun l => !isMethod l) t.comps

/-- `b` opens the VCALENDAR behind lines that open nothing; each METHOD in `ls` is one line. -/
structure Opening (T : Strings) (body : Bytes) (before : List Bytes) (b : Bytes)
    (ps ls : List Bytes) : Prop where
  physical : physicalLines body=before++b::ps
  first : ∀ l∈before,T.equalFold (T.trimSpace l) (lit "BEGIN:VCALENDAR")=false
  silent : ∀ l∈unfoldLines before++unfoldLines (before.filter fun l => !Broker.isMethodLine T l),
    ∀ n,token T l≠.opened n
  begins : continues b=false
  calendar : T.equalFold (T.trimSpace b) (lit "BEGIN:VCALENDAR")=true
  opened : ∃ n,token T b=.opened n
  unfold : unfoldLines (b::ps)=b::ls
  dropped : unfoldLines ((b::ps).filter fun l => !Broker.isMethodLine T l) =
    (b::ls).filter fun l => !Broker.isMethodLine T l
  method : ∀ l∈b::ls,Broker.isMethodLine T l=isMethod (contentLine T l)

/-- METHOD can be replaced line by line, and no component has one. -/
structure Tidy (T : Strings) (body : Bytes) : Prop where
  opening : ∃ before b ps ls,Opening T body before b ps ls
  inner : ∀ t,parseICalNode T body=some t → ∀ c∈t.comps,
    c.All (fun _ => True) fun l => (!isMethod l)=true

theorem token_opened {T : Strings} {line n : Bytes} (h : token T line=.opened n) :
    (contentLine T line).name=lit "BEGIN" := by
  simp only [token] at h
  split_ifs at h with hbegin
  exact hbegin

theorem stays_token (T : Strings) (line : Bytes) :
    Builder.Stays (fun l => !isMethod l) (token T line) = !isMethod (contentLine T line) := by
  simp only [token]
  split_ifs with hbegin hend
  · have hne : isMethod (contentLine T line)=false := by
      simp only [isMethod,hbegin]
      decide
    simp [Builder.Stays,hne]
  · have hne : isMethod (contentLine T line)=false := by
      simp only [isMethod,hend]
      decide
    simp [Builder.Stays,hne]
  · rfl

theorem insertMethod_append {T : Strings} {method b : Bytes} {before : List Bytes}
    (h : ∀ l∈before,T.equalFold (T.trimSpace l) (lit "BEGIN:VCALENDAR")=false)
    (hb : T.equalFold (T.trimSpace b) (lit "BEGIN:VCALENDAR")=true) (ps : List Bytes) :
    Broker.insertMethod T method (before++b::ps)=before++b::(lit "METHOD:" ++ method)::ps := by
  induction before with
  | nil => simp [Broker.insertMethod,hb]
  | cons l before ih =>
    have hl := h l (by simp)
    simp [Broker.insertMethod,hl,ih fun l hl => h l (by simp [hl])]

section Lines

variable {T : Strings} (hT : T.Lawful)

include hT

theorem token_nil (n : Bytes) : token T [] ≠ .opened n := by
  intro h
  have hname := token_opened h
  have htrim : T.trimSpace []=[] := (hT.trim_ascii [] rfl).trans rfl
  have hupper : T.toUpper []=[] := (hT.upper_ascii [] rfl).trans rfl
  have hnil : (contentLine T []).name=[] := by
    simp [contentLine,splitLine,cutUnquoted,splitLeft,split,htrim,hupper]
  rw [hnil] at hname
  cases hname

theorem token_method (method : Bytes) :
    token T (lit "METHOD:" ++ method)=.property ⟨lit "METHOD",.empty,method⟩ := by
  have hline : lit "METHOD:" ++ method=lit "METHOD" ++ 0x3A::method := rfl
  rw [hline]
  simp only [token]
  rw [contentLine_word hT (by decide)]
  rfl

variable (B : Broker) (hB : B.T=T)

include hB

theorem contentLines_withMethod {body method b : Bytes} {before ps ls : List Bytes}
    (h : Opening T body before b ps ls) (hm : 0x0A∉method) :
    contentLines body=(unfoldLines before).filter (· ≠ [])++b::ls.filter (· ≠ []) ∧
      contentLines (B.withMethod body method) =
        (unfoldLines (before.filter fun l => !Broker.isMethodLine T l)).filter (· ≠ []) ++
          b::(lit "METHOD:" ++ method)::(ls.filter (· ≠ [])).filter
            fun l => !Broker.isMethodLine T l := by
  subst hB
  obtain ⟨n,htoken⟩ := h.opened
  have hb : b≠[] := fun hnil => token_nil hT n (hnil ▸ htoken)
  have hkept : Broker.isMethodLine B.T b=false := by
    rw [h.method b (by simp),isMethod,token_opened htoken]
    decide
  have hmline : (0x0A : UInt8)∉lit "METHOD:" ++ method := by
    have hlit : (0x0A : UInt8)∉lit "METHOD:" := by decide
    simp only [List.mem_append,not_or]
    exact ⟨hlit,hm⟩
  constructor
  · rw [contentLines,h.physical,unfoldLines_append h.begins,h.unfold,List.filter_append,
      List.filter_cons_of_pos (by simp [hb])]
  -- the physical lines of the new text
  have htext : physicalLines (B.withMethod body method) =
      before.filter (fun l => !Broker.isMethodLine B.T l) ++
        b::(lit "METHOD:" ++ method)::ps.filter fun l => !Broker.isMethodLine B.T l := by
    rw [Broker.withMethod,h.physical,List.filter_append,List.filter_cons_of_pos (by simp [hkept]),
      insertMethod_append (fun l hl => h.first l (List.mem_filter.mp hl).1) h.calendar]
    apply physicalLines_joinCRLF (by simp)
    intro l hl
    have hphysical : ∀ q∈before++b::ps,(0x0A : UInt8)∉q :=
      fun q hq => not_mem_physicalLine (h.physical ▸ hq)
    simp only [List.mem_append,List.mem_cons,List.mem_filter] at hl hphysical
    rcases hl with hl | rfl | rfl | hl
    · exact hphysical l (.inl hl.1)
    · exact hphysical l (.inr (.inl rfl))
    · exact hmline
    · exact hphysical l (.inr (.inr hl.1))
  -- no dropped line leaves a continuation behind
  obtain ⟨x,xs,hrest⟩ := unfoldFrom_eq (ps.filter fun l => !Broker.isMethodLine B.T l)
  have hdropped := h.dropped
  rw [List.filter_cons_of_pos (by simp [hkept]),List.filter_cons_of_pos (by simp [hkept]),
    unfoldLines,hrest b] at hdropped
  obtain ⟨hx,hxs⟩ := List.cons.inj hdropped
  have hnil : x=[] := List.append_right_eq_self.mp hx
  have hmne : lit "METHOD:" ++ method≠[] := List.cons_ne_nil _ _
  have hcont : continues (lit "METHOD:" ++ method)=false := rfl
  rw [contentLines,htext,unfoldLines_append h.begins,List.filter_append]
  congr 1
  rw [unfoldLines,unfoldFrom,hcont]
  simp only [Bool.false_eq_true,if_false]
  rw [hrest,hnil,hxs,List.append_nil,List.filter_cons_of_pos (by simp [hb]),
    List.filter_cons_of_pos (by simp [hmne]),List.filter_filter,List.filter_filter]
  simp [Bool.and_comm]

theorem parseICalNode_withMethod {body method : Bytes} (h : Tidy T body) (hm : 0x0A∉method) :
    parseICalNode T (B.withMethod body method) = (parseICalNode T body).map (setMethod method) := by
  obtain ⟨before,b,ps,ls,ho⟩ := h.opening
  obtain ⟨n,htoken⟩ := ho.opened
  obtain ⟨hbody,hrequest⟩ := contentLines_withMethod hT B hB ho hm
  have hsilent : ∀ ls : List Bytes,(∀ l∈ls,l∈unfoldLines before ++
      unfoldLines (before.filter fun l => !Broker.isMethodLine T l)) →
      ∀ t∈(ls.filter (· ≠ [])).map (token T),∀ n,t≠.opened n := by
    intro ls hls t ht n
    obtain ⟨l,hl,rfl⟩ := List.mem_map.mp ht
    exact ho.silent l (hls l (List.mem_filter.mp hl).1) n
  have hparse : parseICalNode T body =
      Builder.build (fun _ => true) (.opened n::(ls.filter (· ≠ [])).map (token T)) := by
    rw [parseICalNode,hbody,List.map_append,List.map_cons,htoken,
      Builder.build_append (hsilent _ fun l hl => List.mem_append_left _ hl)]
  have htokens : ((ls.filter (· ≠ [])).filter fun l => !Broker.isMethodLine T l).map (token T) =
      ((ls.filter (· ≠ [])).map (token T)).filter (Builder.Stays fun l => !isMethod l) := by
    rw [List.filter_map]
    congr 1
    apply List.filter_congr
    intro l hl
    rw [ho.method l (by simp [(List.mem_filter.mp hl).1])]
    exact (stays_token T l).symm
  have hstays : Builder.Stays (fun l : Iline => !isMethod l) (.opened n : Token Bytes Iline)=true :=
    rfl
  have hbuild := Builder.build_filter (fun _ => true) (fun l => !isMethod l)
    (.opened n::(ls.filter (· ≠ [])).map (token T))
  rw [List.filter_cons_of_pos hstays] at hbuild
  rw [hparse,parseICalNode,hrequest,List.map_append,List.map_cons,List.map_cons,htoken,
    Builder.build_append (hsilent _ fun l hl => List.mem_append_right _ hl),token_method hT,htokens,
    Builder.build_lead rfl,hbuild,Option.map_map]
  apply Option.map_congr
  intro t ht
  have hinner : ∀ c∈t.comps,c.filterProps (fun l => !isMethod l)=c := by
    intro c hc
    apply Comp.filterProps_eq_self
    exact h.inner t (hparse.trans ht) c hc
  rw [Function.comp_apply,← t.eta,Comp.filterProps_mk,
    (List.map_congr_left hinner).trans (List.map_id _)]
  rfl

end Lines
end HermEX.Dav
