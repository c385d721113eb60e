import HermEX.Oxcical.Syntax

namespace HermEX.Oxcical

open Framework

structure Shape (T : Strings) (l : Iline) : Prop where
  name_fixed : T.toUpper (T.trimSpace l.name)=l.name
  name_trimmed : T.trimSpace l.name=l.name
  name_part : 0x3B∉l.name ∧ 0x0A∉l.name
  name_quoted : ∃ q,quotedAfter 0x3A false l.name=some q
  keys : ∀ row∈l.params,T.toUpper (T.trimSpace row.1)=row.1 ∧ 0x3B∉row.1 ∧ 0x3D∉row.1 ∧ 0x0A∉row.1
  vals : ∀ row∈l.params,∀ v∈row.2,0x3B∉v ∧ 0x2C∉v ∧ 0x0A∉v
  value : 0x0A∉l.value

attribute [local simp] Params.values

theorem mem_foldl_add (xs ys : List (Bytes×Bytes)) (ps : Params)
    (hps : ∀ row∈ps,(∃ v,(row.1,v)∈ys) ∧ ∀ v∈row.2,(row.1,v)∈ys)
    (hxs : ∀ x∈xs,x∈ys) :
    ∀ row∈xs.foldl Params.add ps,(∃ v,(row.1,v)∈ys) ∧ ∀ v∈row.2,(row.1,v)∈ys := by
  induction xs generalizing ps with
  | nil => exact hps
  | cons x xs ih =>
    have hx : x∈ys := hxs x (by simp)
    apply ih _ ?_ fun y hy => hxs y (by simp [hy])
    intro row hrow
    rcases Table.mem_put.mp hrow with rfl | ⟨hrow,-⟩
    · refine ⟨⟨x.2,hx⟩,?_⟩
      intro v hv
      rcases List.mem_append.mp hv with hv | hv
      · cases hget : ps.get x.1 with
        | none => simp [hget] at hv
        | some row =>
          obtain ⟨hmem,hkey⟩ := Table.get_eq_some.mp hget
          have hvals : Params.values ps x.1=row.2 := by simp [hget]
          rw [hvals] at hv
          exact hkey ▸ (hps row hmem).2 v hv
      · rw [List.mem_singleton.mp hv]
        exact hx
    · exact hps row hrow

variable {x : Bytes×Bytes}

section Read

variable {T : Strings} (hT : T.Lawful)

include hT

theorem quotedAfter_upper (quoted : Bool) (s : Bytes) :
    quotedAfter 0x3A quoted (T.toUpper s)=quotedAfter 0x3A quoted s := by
  rw [← quotedAfter_filter,hT.filter_upper,quotedAfter_filter]
  intro b hb
  simp only [Bool.or_eq_true,decide_eq_true_eq] at hb
  rcases hb with rfl | rfl <;> decide

theorem quotedAfter_trim {quoted : Bool} {s : Bytes}
    (h : ∃ q,quotedAfter 0x3A quoted s=some q) :
    ∃ q,quotedAfter 0x3A quoted (T.trimSpace s)=some q := by
  obtain ⟨q,h⟩ := h
  obtain ⟨a,b,hs,ha,-⟩ := hT.trim_spec s
  have hnot : ∀ c : UInt8,Strings.blank c=false → c∉a := by
    intro c hc hmem
    rw [List.all_eq_true.mp ha c hmem] at hc
    exact absurd hc (by simp)
  rw [hs,quotedAfter_append,quotedAfter_of_not_mem _ _ (hnot _ (by decide)) (hnot _ (by decide)),
    Option.bind_some,quotedAfter_append] at h
  obtain ⟨q',hq',-⟩ := Option.bind_eq_some_iff.mp h
  exact ⟨q',hq'⟩

theorem paramPairs_shape {p : Bytes} (hp : 0x3B∉p ∧ 0x0A∉p) (hx : x∈paramPairs T p) :
    (T.toUpper (T.trimSpace x.1)=x.1 ∧ 0x3B∉x.1 ∧ 0x3D∉x.1 ∧ 0x0A∉x.1) ∧
      0x3B∉x.2 ∧ 0x2C∉x.2 ∧ 0x0A∉x.2 := by
  unfold paramPairs at hx
  cases hcut : cut 0x3D p with
  | none => simp [hcut] at hx
  | some y =>
    obtain ⟨hpy,hkey⟩ := cut_eq_some 0x3D (a := y.1) (b := y.2) hcut
    simp only [hcut,List.mem_map] at hx
    obtain ⟨v,hv,rfl⟩ := hx
    have hin : ∀ b∈y.1,b∈p := fun b hb => by rw [hpy]; simp [hb]
    have hval : ∀ b∈trimQuotes (T.trimSpace v),b∈p ∧ b≠0x2C := by
      intro b hb
      have hbv := hT.mem_trim (mem_trimQuotes hb)
      have hby := mem_of_mem_split _ hv hbv
      refine ⟨by rw [hpy]; simp [hby],?_⟩
      rintro rfl
      exact not_mem_of_mem_split _ hv hbv
    have hname : ∀ b : UInt8,Strings.mark b=true → b∉y.1 →
        b∉T.toUpper (T.trimSpace y.1) := by
      intro b hb hnot hmem
      exact hnot (hT.mem_trim ((hT.mem_upper hb).mp hmem))
    refine ⟨⟨?_,?_,?_,?_⟩,?_,?_,?_⟩
    · rw [hT.trim_upper,hT.upper_upper]
    · exact hname _ (by decide) fun hb => hp.1 (hin _ hb)
    · exact hname _ (by decide) hkey
    · exact hname _ (by decide) fun hb => hp.2 (hin _ hb)
    · exact fun hb => hp.1 (hval _ hb).1
    · exact fun hb => (hval _ hb).2 rfl
    · exact fun hb => hp.2 (hval _ hb).1

theorem splitLeft_shape {left value : Bytes} (hleft : 0x0A∉left) (hvalue : 0x0A∉value)
    (hq : ∃ q,quotedAfter 0x3A false left=some q) :
    Shape T {splitLeft T left value with name:=T.toUpper (splitLeft T left value).name} := by
  have hparts : ∀ p∈split 0x3B left,0x3B∉p ∧ 0x0A∉p := by
    intro p hp
    exact ⟨not_mem_of_mem_split _ hp,fun hb => hleft (mem_of_mem_split _ hp hb)⟩
  generalize hhead : (split 0x3B left).headD []=head
  have hmem : head∈split 0x3B left := by
    rw [← hhead]
    cases hs : split 0x3B left with
    | nil => exact absurd hs (split_ne_nil _ _)
    | cons p ps => simp
  have hquoted : ∃ q,quotedAfter 0x3A false head=some q := by
    obtain ⟨q,hq⟩ := hq
    obtain ⟨t,ht⟩ := split_headD_append 0x3B left
    rw [hhead] at ht
    rw [ht,quotedAfter_append] at hq
    obtain ⟨q',hq',-⟩ := Option.bind_eq_some_iff.mp hq
    exact ⟨q',hq'⟩
  have hname : ∀ b : UInt8,Strings.mark b=true → b∉head →
      b∉T.toUpper (T.trimSpace head) := by
    intro b hb hnot hin
    exact hnot (hT.mem_trim ((hT.mem_upper hb).mp hin))
  have hrows := mem_foldl_add _ ((split 0x3B left).tail.flatMap (paramPairs T)) .empty
    (fun row hrow => absurd hrow (Table.not_mem_empty row)) fun x hx => hx
  have hpair : ∀ x∈(split 0x3B left).tail.flatMap (paramPairs T),
      (T.toUpper (T.trimSpace x.1)=x.1 ∧ 0x3B∉x.1 ∧ 0x3D∉x.1 ∧ 0x0A∉x.1) ∧
        0x3B∉x.2 ∧ 0x2C∉x.2 ∧ 0x0A∉x.2 := by
    intro x hx
    obtain ⟨p,hp,hx⟩ := List.mem_flatMap.mp hx
    exact paramPairs_shape hT (hparts p (List.mem_of_mem_tail hp)) hx
  simp only [splitLeft,hhead]
  refine ⟨?_,hT.trim_upper _,⟨?_,?_⟩,?_,?_,?_,hvalue⟩
  · rw [hT.trim_upper,hT.upper_upper]
  · exact hname _ (by decide) (hparts head hmem).1
  · exact hname _ (by decide) (hparts head hmem).2
  · obtain ⟨q,hq⟩ := quotedAfter_trim hT hquoted
    exact ⟨q,by rw [quotedAfter_upper hT,hq]⟩
  · intro row hrow
    obtain ⟨v,hv⟩ := (hrows row hrow).1
    exact (hpair _ hv).1
  · intro row hrow v hv
    exact (hpair _ ((hrows row hrow).2 v hv)).2

theorem contentLine_shape {line : Bytes} (h : 0x0A∉line) : Shape T (contentLine T line) := by
  unfold contentLine splitLine
  cases hcut : cutUnquoted 0x3A false line with
  | none => exact splitLeft_shape hT h (by simp) ((cutUnquoted_eq_none _).mp hcut)
  | some x =>
    obtain ⟨hline,hq⟩ := cutUnquoted_eq_some 0x3A (a := x.1) (b := x.2) hcut
    rw [hline] at h
    simp only [List.mem_append,List.mem_cons,not_or] at h
    exact splitLeft_shape hT h.1 h.2.2 ⟨false,hq⟩

end Read

section Reread

variable {T : Strings} {order : MapOrder} {l : Iline}

/-- No open quote, no unquoted colon, no blanks or quotes at the ends. -/
def PlainLine (T : Strings) (order : MapOrder) (l : Iline) : Prop :=
  quotedAfter 0x3A false (l.left order)=some false ∧
    ∀ row∈l.params,∀ v∈row.2,trimQuotes (T.trimSpace v)=v

instance (T : Strings) (order : MapOrder) (l : Iline) : Decidable (PlainLine T order l) :=
  inferInstanceAs (Decidable (_ ∧ ∀ row∈l.params.rows,_))

theorem mem_pairs :
    x∈l.pairs order ↔ ∃ row∈l.params,row.1=x.1 ∧ x.2∈row.2 := by
  simp only [Iline.pairs,List.mem_flatMap,List.mem_map,(order.perm l.params.rows).mem_iff]
  constructor
  · rintro ⟨row,hrow,v,hv,rfl⟩
    exact ⟨row,hrow,rfl,hv⟩
  · rintro ⟨row,hrow,hkey,hv⟩
    exact ⟨row,hrow,x.2,hv,by rw [hkey]⟩

theorem values_of_rows {rows : List (Bytes×List Bytes)} (h : (rows.map Prod.fst).Nodup)
    (key : Bytes) :
    ((rows.flatMap fun row => row.2.map fun v => (row.1,v)).filter fun x => x.1=key).map
      Prod.snd=((rows.find? fun row => row.1=key).map Prod.snd).getD [] := by
  induction rows with
  | nil => rfl
  | cons row rows ih =>
    rw [List.map_cons,List.nodup_cons] at h
    rw [List.flatMap_cons,List.filter_append,List.map_append,ih h.2]
    by_cases hk : row.1=key
    · have hrest : rows.find? (fun row => row.1=key)=none := by
        rw [List.find?_eq_none]
        intro r hr
        have hne : r.1≠row.1 := fun he => h.1 (he ▸ List.mem_map_of_mem hr)
        simpa [← hk] using hne
      simp [hk,hrest,List.filter_map]
    · simp [hk]

theorem pairs_values (order : MapOrder) (l : Iline) (key : Bytes) :
    ((l.pairs order).filter fun x => x.1=key).map Prod.snd=Params.values l.params key := by
  have hperm := order.perm l.params.rows
  have hnodup : ((order.arrange l.params.rows).map Prod.fst).Nodup :=
    (hperm.map Prod.fst).nodup_iff.mpr l.params.unique
  have hget : (⟨_,hnodup⟩ : Params).get key=l.params.get key := by
    apply Option.ext
    intro row
    rw [Table.get_eq_some,Table.get_eq_some]
    exact and_congr_left fun _ => hperm.mem_iff
  rw [Iline.pairs,values_of_rows hnodup]
  exact congrArg (fun row => (row.map Prod.snd).getD []) hget

variable (hT : T.Lawful) (hl : Shape T l)

include hl in
theorem pair_shape (hx : x∈l.pairs order) :
    (T.toUpper (T.trimSpace x.1)=x.1 ∧ 0x3B∉x.1 ∧ 0x3D∉x.1 ∧ 0x0A∉x.1) ∧
      0x3B∉x.2 ∧ 0x2C∉x.2 ∧ 0x0A∉x.2 := by
  obtain ⟨row,hrow,hkey,hv⟩ := mem_pairs.mp hx
  exact ⟨hkey ▸ hl.keys row hrow,hl.vals row hrow _ hv⟩

theorem paramPairs_written {k v : Bytes} (hk : T.toUpper (T.trimSpace k)=k) (heq : 0x3D∉k)
    (hv : 0x2C∉v) : paramPairs T (k++0x3D::v)=[(k,trimQuotes (T.trimSpace v))] := by
  simp [paramPairs,cut_append _ heq,split_eq_self _ hv,hk]

theorem splitLeft_written (name : Bytes) (xs : List (Bytes×Bytes)) (hname : 0x3B∉name)
    (hxs : ∀ x∈xs,T.toUpper (T.trimSpace x.1)=x.1 ∧ 0x3B∉x.1 ∧ 0x3D∉x.1 ∧ 0x3B∉x.2 ∧
      0x2C∉x.2) (value : Bytes) :
    splitLeft T (name++xs.flatMap fun x => 0x3B::(x.1++0x3D::x.2)) value =
      ⟨T.trimSpace name,
        (xs.map fun x => (x.1,trimQuotes (T.trimSpace x.2))).foldl Params.add .empty,value⟩ := by
  have hleft : (xs.flatMap fun x => 0x3B::(x.1++0x3D::x.2)) =
      (xs.map fun x => x.1++0x3D::x.2).flatMap fun p => 0x3B::p := by
    rw [List.flatMap_map]
  have hparts : ∀ p∈xs.map fun x => x.1++0x3D::x.2,(0x3B : UInt8)∉p := by
    intro p hp
    obtain ⟨x,hx,rfl⟩ := List.mem_map.mp hp
    obtain ⟨-,hk,-,hv,-⟩ := hxs x hx
    simp [hk,hv]
  have hwritten : (xs.map fun x => x.1++0x3D::x.2).flatMap (paramPairs T) =
      xs.map fun x => (x.1,trimQuotes (T.trimSpace x.2)) := by
    clear hleft hparts
    induction xs with
    | nil => rfl
    | cons x xs ih =>
      obtain ⟨hk,-,heq,-,hv⟩ := hxs x (by simp)
      rw [List.map_cons,List.flatMap_cons,paramPairs_written hk heq hv,
        ih fun y hy => hxs y (by simp [hy])]
      rfl
  rw [splitLeft,hleft,split_flatMap _ hname _ hparts]
  simp [hwritten]

include hl in
theorem splitLeft_left (value : Bytes) :
    splitLeft T (l.left order) value=⟨T.trimSpace l.name,
      ((l.pairs order).map fun x => (x.1,trimQuotes (T.trimSpace x.2))).foldl Params.add .empty,
      value⟩ := by
  apply splitLeft_written _ _ hl.name_part.1
  intro x hx
  obtain ⟨⟨hk,hsemi,heq,-⟩,hv,hcomma,-⟩ := pair_shape hl hx
  exact ⟨hk,hsemi,heq,hv,hcomma⟩

include hl in
theorem reread_sealed (h : quotedAfter 0x3A false (l.left order)=some false) :
    contentLine T (renderIline order l)=⟨l.name,
      ((l.pairs order).map fun x => (x.1,trimQuotes (T.trimSpace x.2))).foldl Params.add .empty,
      l.value⟩ := by
  have hcut : cutUnquoted 0x3A false (renderIline order l)=some (l.left order,l.value) := by
    rw [renderIline,cutUnquoted_append _ _ _ _ h]
    simp [cutUnquoted]
  simp only [contentLine,splitLine,hcut]
  rw [splitLeft_left hl]
  simp [hl.name_fixed]

include hl in
theorem reread_sealed_iff (h : quotedAfter 0x3A false (l.left order)=some false) :
    (contentLine T (renderIline order l)).view=l.view ↔
      ∀ row∈l.params,∀ v∈row.2,trimQuotes (T.trimSpace v)=v := by
  have hvalues : ∀ key,Params.values (contentLine T (renderIline order l)).params key =
      (Params.values l.params key).map fun v => trimQuotes (T.trimSpace v) := by
    intro key
    rw [reread_sealed hl h,Params.values_foldl_add,Params.values_empty,List.nil_append,
      List.filter_map,List.map_map,← pairs_values order,List.map_map]
    rfl
  have hview : (contentLine T (renderIline order l)).view=l.view ↔
      ∀ key,(Params.values l.params key).map (fun v => trimQuotes (T.trimSpace v)) =
        Params.values l.params key := by
    simp only [Iline.view,Prod.mk.injEq,funext_iff,hvalues]
    rw [reread_sealed hl h]
    simp
  rw [hview]
  constructor
  · intro hkey row hrow v hv
    have hrow' : Params.values l.params row.1=row.2 := by simp [Table.get_key hrow]
    have hmap := hkey row.1
    rw [hrow'] at hmap
    have hall : row.2.map (fun v => trimQuotes (T.trimSpace v))=row.2.map id := by
      rw [hmap,List.map_id]
    exact List.map_inj_left.mp hall v hv
  · intro hrows key
    cases hget : l.params.get key with
    | none => simp [hget]
    | some row =>
      obtain ⟨hrow,-⟩ := Table.get_eq_some.mp hget
      have hmap := List.map_congr_left (f := fun v => trimQuotes (T.trimSpace v)) (g := id)
        fun v hv => hrows row hrow v hv
      simpa [hget] using hmap

include hT in
theorem count_colon (s : Bytes) : (T.toUpper (T.trimSpace s)).count 0x3A=s.count 0x3A := by
  rw [hT.count_upper (by decide),hT.count_trim (by decide)]

include hl in
theorem reread_name (order : MapOrder) :
    (contentLine T (renderIline order l)).name=l.name ∨
      ∃ t,(contentLine T (renderIline order l)).name =
        T.toUpper (T.trimSpace (l.name++0x3A::t)) := by
  obtain ⟨q,hq⟩ := hl.name_quoted
  have hparam : ∀ t value,T.toUpper (splitLeft T (l.name++0x3B::t) value).name=l.name := by
    intro t value
    simp [splitLeft,split_append _ hl.name_part.1,hl.name_fixed]
  have hcolon : ∀ t value,∃ t',T.toUpper (splitLeft T (l.name++0x3A::t) value).name =
      T.toUpper (T.trimSpace (l.name++0x3A::t')) := by
    intro t value
    refine ⟨(split 0x3B t).headD [],?_⟩
    have hhead := headD_split_append 0x3B (a := l.name++[0x3A]) (by simp [hl.name_part.1]) t
    simp only [List.append_assoc,List.cons_append,List.nil_append] at hhead
    rw [splitLeft,hhead]
  cases hpairs : l.pairs order with
  | cons x xs =>
    obtain ⟨rest,hrest⟩ : ∃ rest,renderIline order l=l.name++0x3B::rest :=
      ⟨x.1++0x3D::x.2++(xs.flatMap fun x => 0x3B::(x.1++0x3D::x.2)) ++
        0x3A::l.value,by simp [renderIline,Iline.left,hpairs]⟩
    have hcut := cutUnquoted_append 0x3A false l.name (0x3B::rest) hq
    simp only [cutUnquoted] at hcut
    rw [if_neg (by decide),if_neg (by simp)] at hcut
    left
    simp only [contentLine,splitLine,hrest,hcut]
    cases cutUnquoted 0x3A q rest with
    | none => exact hparam rest []
    | some y => exact hparam y.1 y.2
  | nil =>
    have hrest : renderIline order l=l.name++0x3A::l.value := by
      simp [renderIline,Iline.left,hpairs]
    have hcut := cutUnquoted_append 0x3A false l.name (0x3A::l.value) hq
    simp only [contentLine,splitLine,hrest,hcut]
    cases q with
    | false =>
      left
      have hself := splitLeft_written (T := T) l.name [] hl.name_part.1 (by simp) l.value
      simp only [List.flatMap_nil,List.append_nil] at hself
      simp [cutUnquoted,hself,hl.name_fixed]
    | true =>
      right
      simp only [cutUnquoted]
      rw [if_neg (by decide),if_neg (by simp)]
      cases cutUnquoted 0x3A true l.value with
      | none => exact hcolon l.value []
      | some y => exact hcolon y.1 y.2

include hT hl in
theorem reread_property (hbegin : l.name≠lit "BEGIN") (hend : l.name≠lit "END") :
    token T (renderIline order l)=.property (contentLine T (renderIline order l)) := by
  have hne : ∀ s : Bytes,s.count 0x3A=0 → l.name≠s →
      (contentLine T (renderIline order l)).name≠s := by
    intro s hs hn he
    rcases reread_name hl order with h | ⟨t,h⟩
    · exact hn (h ▸ he)
    · have hcount := count_colon hT (l.name++0x3A::t)
      rw [← h,he,hs,List.count_append,List.count_cons_self] at hcount
      omega
  simp only [token]
  rw [if_neg (hne _ (by decide) hbegin),if_neg (hne _ (by decide) hend)]

include hT hl in
theorem reread_colon {value : Bytes}
    (hname : T.toUpper (splitLeft T (l.left order++[0x3A]) value).name=l.name)
    (hparams : Params.values (splitLeft T (l.left order++[0x3A]) value).params =
      Params.values l.params) : False := by
  rcases List.eq_nil_or_concat (l.pairs order) with hpairs | ⟨init,x,hpairs⟩
  · have hleft : l.left order++[0x3A]=l.name++[0x3A] := by simp [Iline.left,hpairs]
    have hself := splitLeft_written (T := T) (l.name++[0x3A]) []
      (by simp [hl.name_part.1]) (by simp) value
    simp only [List.flatMap_nil,List.append_nil] at hself
    rw [hleft,hself] at hname
    have hcount := count_colon hT (l.name++[0x3A])
    rw [hname] at hcount
    simp at hcount
  · rw [List.concat_eq_append] at hpairs
    have hleft : l.left order++[0x3A]=l.name++(init++[(x.1,x.2++[0x3A])]).flatMap
        fun y : Bytes×Bytes => 0x3B::(y.1++0x3D::y.2) := by
      simp [Iline.left,hpairs]
    have hshape : ∀ y∈init++[(x.1,x.2++[0x3A])],T.toUpper (T.trimSpace y.1)=y.1 ∧
        0x3B∉y.1 ∧ 0x3D∉y.1 ∧ 0x3B∉y.2 ∧ 0x2C∉y.2 := by
      intro y hy
      rcases List.mem_append.mp hy with hy | hy
      · obtain ⟨⟨hk,hsemi,heq,-⟩,hv,hcomma,-⟩ :=
          pair_shape (x := y) hl (hpairs ▸ List.mem_append_left [x] hy)
        exact ⟨hk,hsemi,heq,hv,hcomma⟩
      · obtain ⟨⟨hk,hsemi,heq,-⟩,hv,hcomma,-⟩ :=
          pair_shape (x := x) hl (hpairs ▸ List.mem_append_right init (List.mem_singleton_self x))
        rw [List.mem_singleton.mp hy]
        exact ⟨hk,hsemi,heq,by simp [hv],by simp [hcomma]⟩
    have hown := pairs_values order l x.1
    have hkey := congrFun hparams x.1
    rw [hleft,splitLeft_written _ _ hl.name_part.1 hshape,← hown,
      Params.values_foldl_add,Params.values_empty,hpairs] at hkey
    have hlast := congrArg List.getLast? hkey
    simp only [List.map_append,List.map_cons,List.map_nil,List.filter_append,List.filter_cons,
      List.filter_nil,decide_true,if_true,List.nil_append,List.getLast?_append,
      List.getLast?_singleton,Option.some_or,Option.some.injEq] at hlast
    have hcount := congrArg (List.count 0x3A) hlast
    rw [count_trimQuotes (by decide),hT.count_trim (by decide)] at hcount
    simp at hcount

include hT hl in
theorem reread_unsealed (h : quotedAfter 0x3A false (l.left order)≠some false) :
    (contentLine T (renderIline order l)).view≠l.view := by
  intro hview
  simp only [Iline.view,Prod.mk.injEq] at hview
  obtain ⟨hname,hparams,hvalue⟩ := hview
  cases hq : quotedAfter 0x3A false (l.left order) with
  | none =>
    cases hcut : cutUnquoted 0x3A false (l.left order) with
    | none =>
      obtain ⟨q,hq'⟩ := (cutUnquoted_eq_none _).mp hcut
      rw [hq] at hq'
      exact absurd hq' (by simp)
    | some x =>
      have hcut' := cutUnquoted_append_some 0x3A (a := x.1) (b := x.2) hcut (0x3A::l.value)
      simp only [contentLine,splitLine,renderIline,hcut',splitLeft] at hvalue
      have hlen := congrArg List.length hvalue
      simp at hlen
      omega
  | some q =>
    obtain rfl : q=true := by
      cases q
      · exact absurd hq h
      · rfl
    have hcut := cutUnquoted_append 0x3A false (l.left order) (0x3A::l.value) hq
    simp only [cutUnquoted] at hcut
    cases hrest : cutUnquoted 0x3A true l.value with
    | some y =>
      obtain ⟨hval,-⟩ := cutUnquoted_eq_some 0x3A (a := y.1) (b := y.2) hrest
      rw [hrest] at hcut
      simp only [contentLine,splitLine,renderIline,hcut,Option.map_some,splitLeft] at hvalue
      have hlen := congrArg List.length hval
      rw [← hvalue] at hlen
      simp at hlen
      omega
    | none =>
      rw [hrest] at hcut
      simp only [contentLine,splitLine,renderIline,hcut,Option.map_none] at hname hparams hvalue
      have hnil : l.value=[] := by
        rw [← hvalue]
        rfl
      rw [hnil] at hname hparams
      exact reread_colon hT hl hname hparams

include hT hl in
theorem reread_iff :
    (contentLine T (renderIline order l)).view=l.view ↔ PlainLine T order l := by
  by_cases h : quotedAfter 0x3A false (l.left order)=some false
  · rw [reread_sealed_iff hl h,PlainLine]
    simp [h]
  · exact iff_of_false (reread_unsealed hT hl h) fun hp => h hp.1

end Reread
end HermEX.Oxcical
