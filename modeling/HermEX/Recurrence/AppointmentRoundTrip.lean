import HermEX.Recurrence.Appointment
import Mathlib.Data.List.Perm.Subperm

namespace HermEX.Recurrence

open Framework

variable {s : Bytes} {ex : List Exception} {dates : List UInt32}

theorem length_le_utf16Units (cs : List Char) : cs.length≤(utf16Units cs).length := by
  induction cs with
  | nil => simp
  | cons c cs ih =>
    have hunit := List.length_pos_iff.mpr (utf16Unit_ne_nil c)
    rw [utf16Units,List.flatMap_cons,List.length_append,← utf16Units,List.length_cons]
    omega

structure Fits (s : Bytes) : Prop where
  valid : ValidUTF8 s
  units : (utf16Units (utf8Runes s)).length<65535

theorem fits_bytes {cs : List Char} (h : (utf16Units cs).length<65535) : Fits (utf8Bytes cs) :=
  ⟨⟨cs,rfl⟩,by rwa [utf8Runes_bytes]⟩

theorem fits_nil : Fits [] := fits_bytes (by decide : (utf16Units []).length<65535)

theorem text8_read (h : Fits s) : Returns (text8 s) readText8 (latin1 (narrow s)) := by
  have hlength : (narrow s).length<65535 := by
    have hle := length_le_utf16Units (utf8Runes s)
    have hunits := h.units
    rw [narrow,List.length_map]
    omega
  have hcount : (UInt16.ofNat (narrow s).length).toNat=(narrow s).length :=
    UInt16.toNat_ofNat_of_lt' (by rw [UInt16.size]; omega)
  have hchars := (Returns.bytes (narrow s)).map latin1
  rw [← hcount] at hchars
  exact (Returns.skip (length_put16 _)).andThen ((Returns.put16 _).andThen hchars)

theorem text16_read (h : Fits s) : Returns (text16 s) readText16 s := by
  obtain ⟨⟨cs,hs⟩,hunits⟩ := h
  have hcount : (UInt16.ofNat (utf16Units (utf8Runes s)).length).toNat =
      (utf16Units (utf8Runes s)).length := UInt16.toNat_ofNat_of_lt' (by rw [UInt16.size]; omega)
  have hread := Returns.replicate fun u (_ : u∈utf16Units (utf8Runes s)) => Returns.put16 u
  have htext := hread.map fun units => utf8Bytes (utf16Runes units)
  have hback : utf8Bytes (utf16Runes (utf16Units (utf8Runes s)))=s := by
    rw [utf16Runes_units,hs,utf8Runes_bytes]
  rw [hback,← hcount] at htext
  exact (Returns.put16 _).andThen htext

theorem bool32_read (v : Bool) : Returns (bool32 v) (Reader.u32.map (· != 0)) v := by
  cases v with
  | false => exact (Returns.put32 0).map (· != 0)
  | true => exact (Returns.put32 1).map (· != 0)

theorem int32_read (n : Int32) :
    Returns (put32 n.toUInt32) (Reader.u32.map UInt32.toInt32) n :=
  (Returns.put32 n.toUInt32).map UInt32.toInt32

namespace Exception

/-- A field without its flag is zero, and texts can be written. -/
structure Sound (e : Exception) : Prop where
  subject : overrides e.flags OverrideSubject=false → e.subject=[]
  location : overrides e.flags OverrideLocation=false → e.location=[]
  busyStatus : overrides e.flags OverrideBusyStatus=false → e.busyStatus=0
  reminderDelta : overrides e.flags OverrideReminderDelta=false → e.reminderDelta=0
  reminderSet : overrides e.flags OverrideReminder=false → e.reminderSet=false
  allDay : overrides e.flags OverrideSubType=false → e.allDay=false
  subjectFits : Fits e.subject
  locationFits : Fits e.location

theorem Sound.moved (start end_ originalStart : UInt32) :
    (⟨start,end_,originalStart,0,[],[],0,0,false,false⟩ : Exception).Sound :=
  ⟨fun _ => rfl,fun _ => rfl,fun _ => rfl,fun _ => rfl,fun _ => rfl,fun _ => rfl,fits_nil,fits_nil⟩

def narrowed (e : Exception) : Exception :=
  {e with subject:=latin1 (narrow e.subject),location:=latin1 (narrow e.location)}

end Exception

variable {e : Exception}

theorem narrowed_nil (h : s=[]) : latin1 (narrow s)=[] := by
  rw [h]
  rfl

theorem exceptionTail_read (h : e.Sound) :
    Returns (putOpt (overrides e.flags OverrideBusyStatus) (put32 e.busyStatus.toUInt32) ++
      (putOpt (overrides e.flags OverrideAttachment) (put32 0) ++
      (putOpt (overrides e.flags OverrideSubType) (bool32 e.allDay) ++
        putOpt (overrides e.flags OverrideColor) (put32 0))))
      (readExceptionTail e.flags) (e.busyStatus,e.allDay) := by
  have hskip : Returns (put32 0) (Reader.skip 4) () := Returns.skip (length_put32 0)
  refine (Returns.opt (fun _ => int32_read _) h.busyStatus).andThen ?_
  refine (Returns.opt (fun _ => hskip) (fun _ => rfl)).andThen ?_
  refine (Returns.opt (fun _ => bool32_read _) h.allDay).andThen ?_
  exact (Returns.opt (fun _ => hskip) (fun _ => rfl)).map fun _ => (e.busyStatus,e.allDay)

theorem exceptionInfo_read (h : e.Sound) :
    Returns (exceptionInfo e) readExceptionInfo e.narrowed := by
  have hskip : Returns (put32 0) (Reader.skip 4) () := Returns.skip (length_put32 0)
  refine (Returns.put32 e.start).andThen ((Returns.put32 e.end_).andThen
    ((Returns.put32 e.originalStart).andThen ((Returns.put16 e.flags).andThen ?_)))
  refine (Returns.opt (fun _ => text8_read h.subjectFits)
    fun hno => narrowed_nil (h.subject hno)).andThen ?_
  refine (Returns.opt (fun _ => hskip) (fun _ => rfl)).andThen ?_
  refine (Returns.opt (fun _ => int32_read _) h.reminderDelta).andThen ?_
  refine (Returns.opt (fun _ => bool32_read _) h.reminderSet).andThen ?_
  refine (Returns.opt (fun _ => text8_read h.locationFits)
    fun hno => narrowed_nil (h.location hno)).andThen ?_
  exact (exceptionTail_read h).map fun tail => (⟨e.start,e.end_,e.originalStart,e.flags,
    latin1 (narrow e.subject),latin1 (narrow e.location),tail.1,e.reminderDelta,e.reminderSet,
    tail.2⟩ : Exception)

theorem emptyBlock_read : Returns (put32 0) Reader.lenPrefixed [] := by
  have h := Returns.lenPrefixed (w := []) (by decide)
  rwa [List.append_nil] at h

theorem extendedText_read (h : e.Sound) :
    Returns (put32 e.start++(put32 e.end_++(put32 e.originalStart ++
        (putOpt (overrides e.flags OverrideSubject) (text16 e.subject) ++
        (putOpt (overrides e.flags OverrideLocation) (text16 e.location)++put32 0)))))
      (readExtendedText e.narrowed) e := by
  have hsubject : Returns (putOpt (overrides e.flags OverrideSubject) (text16 e.subject))
      (Reader.opt (overrides e.flags OverrideSubject) readText16 e.narrowed.subject) e.subject :=
    Returns.opt (fun _ => text16_read h.subjectFits) fun hno => by
      rw [h.subject hno]
      exact (narrowed_nil (h.subject hno)).symm
  have hlocation : Returns (putOpt (overrides e.flags OverrideLocation) (text16 e.location))
      (Reader.opt (overrides e.flags OverrideLocation) readText16 e.narrowed.location) e.location :=
    Returns.opt (fun _ => text16_read h.locationFits) fun hno => by
      rw [h.location hno]
      exact (narrowed_nil (h.location hno)).symm
  have hdates : Returns (put32 e.start++(put32 e.end_++put32 e.originalStart))
      (Reader.skip 12) () := Returns.skip (by simp)
  exact hdates.andThen (hsubject.andThen (hlocation.andThen (emptyBlock_read.map fun _ => e)))

theorem overrides_or {flags : UInt16}
    (h : overrides flags (OverrideSubject ||| OverrideLocation)=false) :
    overrides flags OverrideSubject=false ∧ overrides flags OverrideLocation=false := by
  simp only [overrides,bne_eq_false_iff_eq] at h ⊢
  have hpart : ∀ flag,(OverrideSubject ||| OverrideLocation) &&& flag=flag →
      flags &&& flag=0 := by
    intro flag hflag
    rw [← hflag,← UInt16.and_assoc,h,UInt16.zero_and]
  exact ⟨hpart _ (by decide),hpart _ (by decide)⟩

theorem extendedException_read (h : e.Sound) :
    Returns (extendedException e) (readExtendedException changeHighlightVersion e.narrowed) e := by
  have hhighlight : Returns (put32 4++put32 0) Reader.lenPrefixed (put32 0) :=
    Returns.lenPrefixed (by simp)
  refine Returns.opt (fun _ => extendedText_read h) fun hno => ?_
  obtain ⟨hsubject,hlocation⟩ := overrides_or hno
  have hsubject' := (narrowed_nil (h.subject hsubject)).trans (h.subject hsubject).symm
  have hlocation' := (narrowed_nil (h.location hlocation)).trans (h.location hlocation).symm
  rw [Exception.narrowed,hsubject',hlocation']

theorem length_exceptionInfo (e : Exception) : 14≤(exceptionInfo e).length := by
  simp only [exceptionInfo,List.length_append,length_put32,length_put16]
  omega

theorem decodeExceptions_read (h : ∀ e∈ex,e.Sound) :
    Returns (ex.flatMap exceptionInfo++(put32 0++ex.flatMap extendedException))
      (decodeExceptions ex.length changeHighlightVersion) ex := by
  have hinfo := Returns.replicate_map fun e he => exceptionInfo_read (h e he)
  have hextended := Returns.each (g := id) fun e he => extendedException_read (h e he)
  rw [List.map_id] at hextended
  have hall : Returns (ex.flatMap exceptionInfo++(put32 0++ex.flatMap extendedException))
      ((readExceptionInfo.replicate ex.length).bind fun es => Reader.lenPrefixed.bind fun _ =>
        Reader.each (readExtendedException changeHighlightVersion) es) ex :=
    hinfo.andThen (emptyBlock_read.andThen hextended)
  intro rest
  have hlength := le_length_flatMap length_exceptionInfo ex
  have henough : ¬(ex.flatMap exceptionInfo++(put32 0++ex.flatMap extendedException) ++
      rest).length<ex.length*14 := by
    simp only [List.length_append]
    omega
  rw [decodeExceptions,if_neg henough]
  exact hall rest

theorem decodeTimes_head (p q : AppointmentPattern) {w : Bytes} {x : AppointmentPattern}
    (hcount : (UInt16.ofNat ex.length).toNat=ex.length)
    (h : Returns w (if ex.length≠q.modifiedDates.length then
        fun b => some ({q with
          startTimeOffset:=p.startTimeOffset
          endTimeOffset:=p.endTimeOffset
          hasTimes:=true},b)
      else (decodeExceptions ex.length changeHighlightVersion).map fun es => {q with
        startTimeOffset:=p.startTimeOffset
        endTimeOffset:=p.endTimeOffset
        hasTimes:=true
        exceptions:=es}) x) :
    Returns (put32 appointmentReaderVersion++(put32 changeHighlightVersion ++
      (put32 p.startTimeOffset++(put32 p.endTimeOffset++(put16 (UInt16.ofNat ex.length) ++
        w))))) (decodeTimes q) x := by
  refine (Returns.skip (length_put32 _)).andThen ((Returns.put32 _).andThen
    ((Returns.put32 _).andThen ((Returns.put32 _).andThen ((Returns.put16 _).andThen ?_))))
  rw [hcount]
  exact h

theorem decodeTimes_read (p q : AppointmentPattern) (h : ∀ e∈ex,e.Sound)
    (hfew : ex.length<65536) (hnone : q.exceptions=[]) :
    (decodeTimes q (p.times ex)).map Prod.fst=some {q with
      hasTimes:=true
      startTimeOffset:=p.startTimeOffset
      endTimeOffset:=p.endTimeOffset
      exceptions:=if ex.length=q.modifiedDates.length then ex else []} := by
  have hcount : (UInt16.ofNat ex.length).toNat=ex.length :=
    UInt16.toNat_ofNat_of_lt' (by rw [UInt16.size]; omega)
  by_cases hmatch : ex.length=q.modifiedDates.length
  · have hread := decodeTimes_head p q hcount (w := ex.flatMap exceptionInfo++(put32 0 ++
      ex.flatMap extendedException)) (by
        rw [if_neg (not_not.mpr hmatch)]
        exact (decodeExceptions_read h).map _) (put32 0)
    simp only [List.append_assoc] at hread
    rw [AppointmentPattern.times,hread,if_pos hmatch]
    rfl
  · have hread := decodeTimes_head p q hcount (w := []) (by
      rw [if_pos hmatch]
      exact fun rest => rfl) (ex.flatMap exceptionInfo++(put32 0 ++
        (ex.flatMap extendedException++put32 0)))
    simp only [List.append_assoc,List.nil_append] at hread
    rw [AppointmentPattern.times,hread,if_neg hmatch,← hnone]
    rfl

instance : Std.Total byStart := ⟨fun a b => UInt32.le_total a.start b.start⟩

instance : IsTrans Exception byStart := ⟨fun _ _ _ h h' => UInt32.le_trans h h'⟩

instance total_le : Std.Total (fun a b : UInt32 => a≤b) := ⟨UInt32.le_total⟩

instance trans_le : IsTrans UInt32 (fun a b => a≤b) := ⟨fun _ _ _ h h' => UInt32.le_trans h h'⟩

theorem compact_sublist (l : List UInt32) : (compact l).Sublist l := by
  induction l using compact.induct with
  | case1 | case2 d => simp [compact]
  | case3 d ds ih =>
    rw [compact,if_pos rfl]
    exact ih.cons d
  | case4 d d' ds hne ih =>
    rw [compact,if_neg hne]
    exact ih.cons_cons d

@[simp] theorem mem_compact {d : UInt32} {l : List UInt32} : d∈compact l ↔ d∈l := by
  induction l using compact.induct with
  | case1 | case2 d => simp [compact]
  | case3 d ds ih =>
    rw [compact,if_pos rfl,ih]
    simp
  | case4 d d' ds hne ih => rw [compact,if_neg hne,List.mem_cons,ih,List.mem_cons (b := d)]

theorem compact_sorted {l : List UInt32} (h : l.Pairwise (· ≤ ·)) :
    (compact l).Pairwise (· < ·) := by
  induction l using compact.induct with
  | case1 | case2 d => simp [compact]
  | case3 d ds ih =>
    rw [compact,if_pos rfl]
    exact ih (List.pairwise_cons.mp h).2
  | case4 d d' ds hne ih =>
    obtain ⟨hle,htail⟩ := List.pairwise_cons.mp h
    obtain ⟨hle',-⟩ := List.pairwise_cons.mp htail
    have hlt : d<d' := UInt32.lt_of_le_of_ne (hle d' (by simp)) hne
    rw [compact,if_neg hne,List.pairwise_cons]
    refine ⟨fun x hx => ?_,ih htail⟩
    rcases List.mem_cons.mp (mem_compact.mp hx) with rfl | hx
    · exact hlt
    · exact UInt32.lt_of_lt_of_le hlt (hle' x hx)

@[simp] theorem mem_sortedDates {d : UInt32} : d∈sortedDates dates ↔ d∈dates := by
  simp [sortedDates]

theorem sortedDates_sorted (dates : List UInt32) : (sortedDates dates).Pairwise (· < ·) :=
  compact_sorted (List.pairwise_insertionSort _ _)

theorem sortedDates_nodup (dates : List UInt32) : (sortedDates dates).Nodup :=
  (sortedDates_sorted dates).imp fun h => UInt32.ne_of_lt h

theorem length_sortedDates_iff (dates : List UInt32) :
    (sortedDates dates).length=dates.length ↔ dates.Nodup := by
  have hperm := List.perm_insertionSort (· ≤ ·) dates
  have hsub := compact_sublist (dates.insertionSort (· ≤ ·))
  constructor
  · intro h
    have hsame : sortedDates dates=dates.insertionSort (· ≤ ·) :=
      hsub.eq_of_length (h.trans hperm.length_eq.symm)
    rw [← hperm.nodup_iff,← hsame]
    exact sortedDates_nodup dates
  · intro h
    apply List.Perm.length_eq
    apply (List.perm_ext_iff_of_nodup (sortedDates_nodup dates) h).mpr
    intro d
    exact mem_sortedDates

theorem le_length_of_all {l : List Nat} {n : Nat} (h : ∀ k<n,k∈l) : n≤l.length := by
  have hsub : (List.range n).Subperm l :=
    List.subperm_of_subset List.nodup_range fun k hk => h k (List.mem_range.mp hk)
  have hle := hsub.length_le
  rwa [List.length_range] at hle

theorem length_le_of_bound {l : List Nat} {n : Nat} (hnodup : l.Nodup) (h : ∀ k∈l,k<n) :
    l.length≤n := by
  have hsub : l.Subperm (List.range n) :=
    List.subperm_of_subset hnodup fun k hk => List.mem_range.mpr (h k hk)
  have hle := hsub.length_le
  rwa [List.length_range] at hle

theorem length_lt_iff (h : dates.Nodup) : dates.length<2^32 ↔ ∃ d,d∉dates := by
  constructor
  · intro hlt
    by_contra hall
    have hevery : ∀ k<2^32,k∈dates.map UInt32.toNat := by
      intro k hk
      refine List.mem_map.mpr ⟨UInt32.ofNat k,?_,UInt32.toNat_ofNat_of_lt' hk⟩
      by_contra hout
      exact hall ⟨_,hout⟩
    have hle := le_length_of_all hevery
    rw [List.length_map] at hle
    omega
  · rintro ⟨d,hd⟩
    have hnodup : ((d::dates).map UInt32.toNat).Nodup :=
      (List.nodup_cons.mpr ⟨hd,h⟩).map fun _ _ => UInt32.toNat_inj.mp
    have hbound : ∀ k∈(d::dates).map UInt32.toNat,k<2^32 := by
      intro k hk
      obtain ⟨x,-,rfl⟩ := List.mem_map.mp hk
      exact x.toNat_lt
    have hle := length_le_of_bound hnodup hbound
    rw [List.length_map,List.length_cons] at hle
    omega

theorem readDates_read (h : dates.length<2^32) :
    Returns (Pattern.putDates dates) readDates dates := by
  have hcount : (UInt32.ofNat dates.length).toNat=dates.length := UInt32.toNat_ofNat_of_lt' h
  have hdates := Returns.replicate fun d (_ : d∈dates) => Returns.put32 d
  refine (Returns.put32 _).andThen fun rest => ?_
  have hfour : ∀ d,4≤(put32 d).length := fun d => by simp
  have hlength := le_length_flatMap hfour dates
  have henough : ¬(dates.flatMap put32++rest).length/4<dates.length := by
    simp only [List.length_append]
    omega
  rw [hcount,if_neg henough]
  exact hdates rest

theorem drop_dates (p : Pattern) (deleted modified : List UInt32) (rest : Bytes) :
    (p.marshal deleted modified++rest).drop (patternSpecificEnd p.patternType+12) =
      Pattern.putDates deleted++(Pattern.putDates modified++(put32 p.startDate ++
        (put32 p.endDate++rest))) := by
  have hshape : p.marshal deleted modified++rest =
      (p.head++(p.specific++(put32 p.endType++(put32 p.occurrenceCount ++
        put32 p.firstDOW))))++(Pattern.putDates deleted++(Pattern.putDates modified ++
          (put32 p.startDate++(put32 p.endDate++rest)))) := by
    simp [Pattern.marshal]
  have hlength : (p.head++(p.specific++(put32 p.endType++(put32 p.occurrenceCount ++
      put32 p.firstDOW)))).length=patternSpecificEnd p.patternType+12 := by
    simp only [List.length_append,Pattern.length_specific,Pattern.specificSize,patternSpecificEnd]
    split_ifs <;> rfl
  rw [hshape,← hlength,List.drop_left]

theorem decodePattern_read (p : Pattern) (h : p.Known) {deleted modified : List UInt32}
    (rest : Bytes) (hdeleted : deleted.length<2^32) (hmodified : modified.length<2^32) :
    decodePattern (p.marshal deleted modified++rest) =
      some (⟨p.kept,deleted,modified,false,0,0,[]⟩,rest) := by
  have hskip : Returns (put32 p.startDate++put32 p.endDate) (Reader.skip 8) () :=
    Returns.skip (by simp)
  have hread : Returns (Pattern.putDates deleted++(Pattern.putDates modified ++
      (put32 p.startDate++put32 p.endDate))) (readDates.bind fun deleted =>
        readDates.bind fun modified => (Reader.skip 8).map fun _ =>
          (⟨p.kept,deleted,modified,false,0,0,[]⟩ : AppointmentPattern))
      ⟨p.kept,deleted,modified,false,0,0,[]⟩ :=
    (readDates_read hdeleted).andThen ((readDates_read hmodified).andThen (hskip.map _))
  have hrest := hread rest
  simp only [List.append_assoc] at hrest
  rw [decodePattern,Pattern.unmarshal_blob p h deleted modified rest hdeleted hmodified,
    Option.bind_some]
  rw [show p.kept.patternType=p.patternType from rfl,drop_dates]
  exact hrest

namespace AppointmentPattern

/-- One modified day for each exception. -/
structure Built (p : AppointmentPattern) : Prop where
  known : p.Known
  times : p.hasTimes=true
  few : p.exceptions.length<65536
  matched : p.modifiedDates.Perm (p.exceptions.map fun e => day e.start)
  sound : ∀ e∈p.exceptions,e.Sound

/-- The same, exceptions in the order of their starts. -/
structure Restored (p q : AppointmentPattern) : Prop where
  pattern : q.toPattern=p.toPattern
  times : q.hasTimes=p.hasTimes ∧ q.startTimeOffset=p.startTimeOffset ∧
    q.endTimeOffset=p.endTimeOffset
  deleted : ∀ d,d∈q.deletedDates ↔ d∈p.deletedDates
  exceptions : q.exceptions.Perm p.exceptions
  ordered : q.exceptions.Pairwise byStart

variable {p : AppointmentPattern}

variable {b : Bytes} {q : AppointmentPattern} {x : AppointmentPattern×Bytes}

theorem Built.count (h : p.Built) : p.exceptions.length=(sortedDates p.modifiedDates).length ↔
    (p.exceptions.map fun e => day e.start).Nodup := by
  have hlength := h.matched.length_eq
  rw [List.length_map] at hlength
  rw [← hlength,eq_comm,length_sortedDates_iff,h.matched.nodup_iff]

theorem decode_encode (h : p.Built) (hdeleted : ∃ d,d∉p.deletedDates) :
    decodeAppointment (encodeAppointment p)=some ⟨p.kept,sortedDates p.deletedDates,
      sortedDates p.modifiedDates,true,p.startTimeOffset,p.endTimeOffset,
      if p.exceptions.length=(sortedDates p.modifiedDates).length then
        p.exceptions.insertionSort byStart else []⟩ := by
  have hfits : (sortedDates p.deletedDates).length<2^32 := by
    rw [length_lt_iff (sortedDates_nodup _)]
    simpa using hdeleted
  have hmodified : (sortedDates p.modifiedDates).length<2^32 := by
    have hsub := (compact_sublist (p.modifiedDates.insertionSort (· ≤ ·))).length_le
    have hlength := h.matched.length_eq
    have hfew := h.few
    rw [List.length_map] at hlength
    rw [List.length_insertionSort,← sortedDates] at hsub
    omega
  have hsound : ∀ e∈p.exceptions.insertionSort byStart,e.Sound :=
    fun e he => h.sound e ((List.mem_insertionSort _).mp he)
  have htimes := decodeTimes_read p ⟨p.kept,sortedDates p.deletedDates,
    sortedDates p.modifiedDates,false,0,0,[]⟩ hsound (by rw [List.length_insertionSort]; exact h.few)
    rfl
  have hmore : p.times (p.exceptions.insertionSort byStart)≠[] := by
    intro hnil
    have hlength := congrArg List.length hnil
    simp only [times,List.length_append,length_put32,List.length_nil] at hlength
    omega
  rw [List.length_insertionSort] at htimes
  rw [decodeAppointment,encodeAppointment,decodePattern_read _ h.known _ hfits hmodified,
    Option.bind_some,if_neg hmore]
  exact htimes

theorem decodePattern_deleted (h : decodePattern b=some x) :
    ∃ rest,readDates (b.drop (patternSpecificEnd x.1.patternType+12)) =
      some (x.1.deletedDates,rest) := by
  obtain ⟨base,-,hdates⟩ := Option.bind_eq_some_iff.mp h
  obtain ⟨deleted,rest,hdeleted,hmodified⟩ := Reader.bind_eq_some.mp hdates
  obtain ⟨modified,rest',-,hskip⟩ := Reader.bind_eq_some.mp hmodified
  obtain ⟨_,rest'',-,rfl⟩ := Reader.map_eq_some.mp hskip
  exact ⟨rest,hdeleted⟩

theorem decodeTimes_keeps (h : decodeTimes q b=some x) :
    x.1.toPattern=q.toPattern ∧ x.1.deletedDates=q.deletedDates := by
  obtain ⟨_,b1,-,h1⟩ := Reader.bind_eq_some.mp h
  obtain ⟨writer,b2,-,h2⟩ := Reader.bind_eq_some.mp h1
  obtain ⟨startTimeOffset,b3,-,h3⟩ := Reader.bind_eq_some.mp h2
  obtain ⟨endTimeOffset,b4,-,h4⟩ := Reader.bind_eq_some.mp h3
  obtain ⟨count,b5,-,h5⟩ := Reader.bind_eq_some.mp h4
  by_cases hcount : count.toNat≠q.modifiedDates.length
  · simp only [if_pos hcount,Option.some.injEq] at h5
    subst h5
    exact ⟨rfl,rfl⟩
  · simp only [if_neg hcount] at h5
    obtain ⟨ex,b6,-,rfl⟩ := Reader.map_eq_some.mp h5
    exact ⟨rfl,rfl⟩

theorem deleted_read (h : decodeAppointment b=some q) :
    ∃ rest,readDates (b.drop (patternSpecificEnd q.patternType+12)) =
      some (q.deletedDates,rest) := by
  obtain ⟨x,hx,hq⟩ := Option.bind_eq_some_iff.mp h
  have hdates := decodePattern_deleted hx
  split_ifs at hq with hdone
  · rw [Option.some.injEq] at hq
    rwa [hq] at hdates
  · obtain ⟨y,hy,rfl⟩ := Option.map_eq_some_iff.mp hq
    obtain ⟨hpattern,hdeleted⟩ := decodeTimes_keeps hy
    rwa [← hpattern,← hdeleted] at hdates

theorem deleted_all (hall : ∀ d,d∈p.deletedDates)
    (hq : decodeAppointment (encodeAppointment p)=some q) (hpattern : q.toPattern=p.toPattern) :
    q.deletedDates=[] := by
  have hnot : ¬(sortedDates p.deletedDates).length<2^32 := by
    rw [length_lt_iff (sortedDates_nodup _)]
    simpa using hall
  have hle : (sortedDates p.deletedDates).length≤2^32 := by
    have hnodup := (sortedDates_nodup p.deletedDates).map fun _ _ => UInt32.toNat_inj.mp
    have hbound : ∀ k∈(sortedDates p.deletedDates).map UInt32.toNat,k<2^32 := by
      intro k hk
      obtain ⟨d,-,rfl⟩ := List.mem_map.mp hk
      exact d.toNat_lt
    have hlength := length_le_of_bound hnodup hbound
    rwa [List.length_map] at hlength
  have hcount : UInt32.ofNat (sortedDates p.deletedDates).length=0 := by
    rw [Nat.le_antisymm hle (Nat.le_of_not_lt hnot)]
    rfl
  obtain ⟨rest,hread⟩ := deleted_read hq
  rw [hpattern,encodeAppointment,drop_dates,Pattern.putDates,hcount,List.append_assoc] at hread
  obtain ⟨n,b,hn,hdates⟩ := Reader.bind_eq_some.mp hread
  rw [Returns.put32 0,Option.some.injEq,Prod.mk.injEq] at hn
  rw [← hn.1] at hdates
  have hnil : some (([] : List UInt32),b)=some (q.deletedDates,rest) := hdates
  rw [Option.some.injEq,Prod.mk.injEq] at hnil
  exact hnil.1.symm

theorem decode_encode_iff (h : p.Built) :
    (∃ q,decodeAppointment (encodeAppointment p) = some q ∧ p.Restored q) ↔
      (p.exceptions.map fun e => day e.start).Nodup ∧ p.kept = p.toPattern ∧
        ∃ d,d ∉ p.deletedDates := by
  constructor
  · rintro ⟨q,hq,hrestored⟩
    have hdeleted : ∃ d,d∉p.deletedDates := by
      by_contra hnone
      have hall : ∀ d,d∈p.deletedDates := by simpa using hnone
      have hnil := deleted_all hall hq hrestored.pattern
      have hzero := (hrestored.deleted 0).mpr (hall 0)
      rw [hnil] at hzero
      cases hzero
    rw [decode_encode h hdeleted,Option.some.injEq] at hq
    subst hq
    refine ⟨h.count.mp ?_,hrestored.pattern,hdeleted⟩
    by_contra hcount
    have hperm := hrestored.exceptions
    simp only [if_neg hcount,List.nil_perm] at hperm
    apply hcount
    have hlength := h.matched.length_eq
    rw [hperm,List.map_nil,List.length_nil] at hlength
    rw [hperm,List.eq_nil_of_length_eq_zero hlength]
    rfl
  · rintro ⟨hnodup,hkept,hdeleted⟩
    refine ⟨_,decode_encode h hdeleted,hkept,⟨h.times.symm,rfl,rfl⟩,fun d => mem_sortedDates,?_,?_⟩
    · simp only [if_pos (h.count.mpr hnodup)]
      exact List.perm_insertionSort _ _
    · simp only [if_pos (h.count.mpr hnodup)]
      exact List.pairwise_insertionSort _ _

theorem decode_encode_iff_renamed :
    let p : AppointmentPattern :=
      ⟨⟨FreqWeekly,PatternWeek,0,1,EndNever,10,0,2,0,0,14400,noEndDate⟩,[24480,14400],[24480,15840],
        true,540,600,[⟨25080,25140,25020,0,[],[],0,0,false,false⟩,
          ⟨16380,16440,14940,OverrideSubject ||| OverrideBusyStatus,
            utf8Bytes ['M','o','v','e','d'],[],2,0,false,false⟩]⟩
    p.Built ∧ ∃ q,decodeAppointment (encodeAppointment p) = some q ∧ p.Restored q := by
  intro p
  have hfits : Fits (utf8Bytes ['M','o','v','e','d']) := fits_bytes (by decide)
  have hbuilt : p.Built := by
    refine ⟨Or.inr (Or.inl rfl),rfl,by decide,by decide,?_⟩
    intro e he
    simp only [p,List.mem_cons,List.not_mem_nil,or_false] at he
    rcases he with rfl | rfl
    · exact .moved _ _ _
    · exact ⟨fun h => absurd h (by decide),fun _ => rfl,fun h => absurd h (by decide),fun _ => rfl,
        fun _ => rfl,fun _ => rfl,hfits,fits_nil⟩
  exact ⟨hbuilt,(decode_encode_iff hbuilt).mpr ⟨by decide,by decide,0,by decide⟩⟩

/-- Two instances moved to one day: neither comes back. -/
theorem two_moved_to_one_day :
    let p : AppointmentPattern :=
      ⟨⟨FreqWeekly,PatternWeek,0,1,EndNever,10,0,2,0,0,14400,noEndDate⟩,[14400,24480],[15840,15840],
        true,540,600,[⟨16380,16440,14940,0,[],[],0,0,false,false⟩,
          ⟨16740,16800,25020,0,[],[],0,0,false,false⟩]⟩
    p.Built ∧ p.kept = p.toPattern ∧
      (decodeAppointment (encodeAppointment p)).map (·.exceptions) = some [] := by
  intro p
  have hbuilt : p.Built := by
    refine ⟨Or.inr (Or.inl rfl),rfl,by decide,by decide,?_⟩
    intro e he
    simp only [p,List.mem_cons,List.not_mem_nil,or_false] at he
    rcases he with rfl | rfl <;> exact .moved _ _ _
  refine ⟨hbuilt,by decide,?_⟩
  rw [decode_encode hbuilt ⟨0,by decide⟩,Option.map_some,if_neg (by decide)]

end AppointmentPattern

end HermEX.Recurrence
