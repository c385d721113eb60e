import HermEX.Recurrence.Pattern

namespace HermEX.Recurrence

open Framework

namespace Pattern

def Known (p : Pattern) : Prop :=
  p.patternType=PatternDay ∨ p.patternType=PatternWeek ∨ p.patternType=PatternMonth ∨
    p.patternType=PatternMonthNth

def kept (p : Pattern) : Pattern :=
  {p with
    dayOfWeek :=
      if p.patternType=PatternWeek ∨ p.patternType=PatternMonthNth then p.dayOfWeek else 0
    dayOfMonth:=if p.patternType=PatternMonth then p.dayOfMonth else 0
    weekOfMonth:=if p.patternType=PatternMonthNth then p.weekOfMonth else 0}

def specificSize (p : Pattern) : Nat := if p.patternType=PatternMonthNth then 8 else 4

variable (p : Pattern)

@[simp] theorem length_head : p.head.length=22 := by simp [head]

@[simp] theorem length_specific : p.specific.length=p.specificSize := by
  have hne : PatternMonthNth≠PatternWeek ∧ PatternMonthNth≠PatternMonth := by decide
  simp only [specific,specificSize]
  split_ifs with h1 h2 h3 h3 h4 <;> simp_all

@[simp] theorem length_putDates (dates : List UInt32) :
    (putDates dates).length=4+4*dates.length := by
  induction dates with
  | nil => simp [putDates]
  | cons d ds ih =>
    simp [putDates] at ih ⊢
    omega

theorem head_read (rest : Bytes) :
    u16At (p.head++rest) 4=p.recurFrequency ∧ u16At (p.head++rest) 6=p.patternType ∧
      u32At (p.head++rest) 10=p.firstDateTime ∧ u32At (p.head++rest) 14=p.period := by
  simp only [head,List.append_assoc]
  refine ⟨?_,?_,?_,?_⟩ <;>
    simp (disch := simp) only [u16At_append,u32At_append,length_put16,length_put32,
      Nat.reduceSub,u16At_put16,u32At_put32]

attribute [local simp] PatternMonth PatternMonthNth PatternWeek

theorem specific_read (h : p.Known) (rest : Bytes) (freq type : UInt16) (first period : UInt32)
    (htype : type=p.patternType) :
    unmarshalSpecific (p.head++(p.specific++rest))
        ⟨freq,type,first,period,0,0,0,0,0,0,0,0⟩ =
      some (22+p.specificSize,⟨freq,type,first,period,0,0,0,p.kept.dayOfWeek,p.kept.dayOfMonth,
        p.kept.weekOfMonth,0,0⟩) := by
  have hoff : ∀ k,u32At (p.head++(p.specific++rest)) (22+k)=u32At (p.specific++rest) k := by
    intro k
    rw [u32At_append (by simp)]
    simp
  have hfirst := hoff 0
  have hsecond := hoff 4
  subst htype
  rcases h with h | h | h | h
  · simp [unmarshalSpecific,h,kept,specificSize,PatternDay]
  · have hspecific : p.specific=put32 p.dayOfWeek := by simp [specific,h]
    rw [hspecific,u32At_put32] at hfirst
    simp [unmarshalSpecific,h,kept,specificSize,hspecific,hfirst,PatternDay]
  · have hspecific : p.specific=put32 p.dayOfMonth := by simp [specific,h]
    rw [hspecific,u32At_put32] at hfirst
    simp [unmarshalSpecific,h,kept,specificSize,hspecific,hfirst,PatternDay]
  · have hspecific : p.specific=put32 p.dayOfWeek++put32 p.weekOfMonth := by simp [specific,h]
    have hlength : ¬(p.head++(p.specific++rest)).length<30 := by
      simp [specificSize,h]
      omega
    rw [hspecific,List.append_assoc] at hfirst hsecond hlength ⊢
    have hweek : u32At (put32 p.dayOfWeek++(put32 p.weekOfMonth++rest)) 4 =
        p.weekOfMonth := by
      rw [u32At_append (by simp),length_put32,Nat.sub_self,u32At_put32]
    rw [hweek] at hsecond
    simp only [unmarshalSpecific,h,kept,specificSize,hfirst,hsecond,if_neg hlength]
    simp [PatternDay]

def ending (deleted modified : List UInt32) (rest : Bytes) : Bytes :=
  put32 p.endType++(put32 p.occurrenceCount++(put32 p.firstDOW++(putDates deleted ++
    (putDates modified++(put32 p.startDate++(put32 p.endDate++rest))))))

@[simp] theorem length_ending (deleted modified : List UInt32) (rest : Bytes) :
    (p.ending deleted modified rest).length =
      28+4*deleted.length+4*modified.length+rest.length := by
  simp [ending]
  omega

theorem u32At_of_start {a w : Bytes} {n : UInt32} {off : Nat} (h : a++put32 n <+: w)
    (hoff : off=a.length) : u32At w off=n := by
  obtain ⟨b,rfl⟩ := h
  rw [List.append_assoc,u32At_append hoff.ge,hoff,Nat.sub_self,u32At_put32]

theorem end_read (pre : Bytes) (p q : Pattern) (deleted modified : List UInt32) (rest : Bytes)
    (hdeleted : deleted.length<2^32) (hmodified : modified.length<2^32) :
    unmarshalEnd (pre++p.ending deleted modified rest) pre.length q =
      some {q with
        endType:=p.endType
        occurrenceCount:=p.occurrenceCount
        firstDOW:=p.firstDOW
        startDate:=p.startDate
        endDate:=p.endDate} := by
  generalize hw : pre++p.ending deleted modified rest=w
  have hlength : w.length=pre.length+(28+4*deleted.length+4*modified.length+rest.length) := by
    simp [← hw]
  let a := pre++put32 p.endType
  let b := a++put32 p.occurrenceCount
  let c := b++put32 p.firstDOW
  let d := c++putDates deleted
  let e := d++putDates modified
  have h0 : u32At w pre.length=p.endType := u32At_of_start (by simp [← hw,ending]) rfl
  have h4 : u32At w (pre.length+4)=p.occurrenceCount :=
    u32At_of_start (a := a) (by simp [← hw,ending,a]) (by simp [a])
  have h8 : u32At w (pre.length+8)=p.firstDOW :=
    u32At_of_start (a := b) (by simp [← hw,ending,a,b]) (by simp [a,b])
  have h12 : (u32At w (pre.length+12)).toNat=deleted.length := by
    rw [u32At_of_start (a := c) (n := .ofNat deleted.length)
      (by simp [← hw,ending,putDates,a,b,c]) (by simp [a,b,c])]
    exact UInt32.toNat_ofNat_of_lt' hdeleted
  have h16 : (u32At w (pre.length+16+4*deleted.length)).toNat=modified.length := by
    rw [u32At_of_start (a := d) (n := .ofNat modified.length)
      (by simp [← hw,ending,putDates,a,b,c,d]) (by simp [a,b,c,d]; omega)]
    exact UInt32.toNat_ofNat_of_lt' hmodified
  have hstart : u32At w (pre.length+16+4*deleted.length+4+4*modified.length)=p.startDate :=
    u32At_of_start (a := e) (by simp [← hw,ending,a,b,c,d,e]) (by simp [a,b,c,d,e]; omega)
  have hend : u32At w (pre.length+16+4*deleted.length+4+4*modified.length+4)=p.endDate :=
    u32At_of_start (a := e++put32 p.startDate) (by simp [← hw,ending,a,b,c,d,e])
      (by simp [a,b,c,d,e]; omega)
  simp only [unmarshalEnd,h0,h4,h8,h12,h16,hstart,hend]
  rw [if_neg (by omega),if_neg (by omega),if_neg (by omega)]

theorem unmarshal_blob (h : p.Known) (deleted modified : List UInt32) (rest : Bytes)
    (hdeleted : deleted.length<2^32) (hmodified : modified.length<2^32) :
    unmarshalBinary (p.marshal deleted modified++rest)=some p.kept := by
  have hshape : p.marshal deleted modified++rest =
      p.head++(p.specific++p.ending deleted modified rest) := by
    simp [marshal,ending]
  obtain ⟨hfreq,htype,hfirst,hperiod⟩ := p.head_read (p.specific++p.ending deleted modified rest)
  have hend := end_read (p.head++p.specific) p
    ⟨p.recurFrequency,p.patternType,p.firstDateTime,p.period,0,0,0,p.kept.dayOfWeek,
      p.kept.dayOfMonth,p.kept.weekOfMonth,0,0⟩ deleted modified rest hdeleted hmodified
  have hpre : (p.head++p.specific).length=22+p.specificSize := by simp
  rw [hpre,List.append_assoc] at hend
  have hlength : ¬(p.head++(p.specific++p.ending deleted modified rest)).length<40 := by
    simp
    omega
  rw [hshape,unmarshalBinary,if_neg hlength]
  simp only [hfreq,htype,hfirst,hperiod]
  rw [specific_read p h _ _ _ _ _ rfl,Option.bind_some]
  exact hend

end Pattern
end HermEX.Recurrence
