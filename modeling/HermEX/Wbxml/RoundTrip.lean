import HermEX.Wbxml.Codec

namespace HermEX.Wbxml

open Framework

variable {cs : List Node}

namespace Node

theorem induct {P : Node → Prop}
    (h : ∀ tag children text data,(∀ c∈children,P c) → P (mk tag children text data)) : ∀ n,P n
  | mk tag children text data => h tag children text data fun c _ => induct h c

def depth : Node → Nat
  | mk _ children _ _ => depths children
where
  depths : List Node → Nat
    | [] => 0
    | c::cs => max (c.depth+1) (depths cs)

def All (P : Tag → List Node → Bytes → Option Bytes → Prop) : Node → Prop
  | mk tag children text data => P tag children text data ∧ Alls children
where
  Alls : List Node → Prop
    | [] => True
    | c::cs => c.All P ∧ Alls cs

def Single (tag : Tag) (children : List Node) (text : Bytes) (data : Option Bytes) : Prop :=
  (5≤tag.token ∧ tag.token≤0x3F) ∧
    ((children≠[] ∧ text=[] ∧ data=none) ∨
      (children=[] ∧ text≠[] ∧ 0∉text ∧ data=none) ∨
      (children=[] ∧ text=[] ∧ ∃ d,d≠[] ∧ data=some d) ∨
      (children=[] ∧ text=[] ∧ data=none))

def Short (_ : Tag) (_ : List Node) (_ : Bytes) (data : Option Bytes) : Prop :=
  ∀ d,data=some d → d.length<2^32

variable {P Q : Tag → List Node → Bytes → Option Bytes → Prop}

theorem alls_iff : All.Alls P cs ↔ ∀ c∈cs,c.All P := by
  induction cs with
  | nil => simp [All.Alls]
  | cons c cs ih => simp [All.Alls,ih]

theorem all_mk {tag : Tag} {children : List Node} {text : Bytes} {data : Option Bytes} :
    (mk tag children text data).All P ↔ P tag children text data ∧ ∀ c∈children,c.All P := by
  rw [All,alls_iff]

theorem depth_lt_depths {c : Node} (h : c∈cs) : c.depth<depth.depths cs := by
  induction cs with
  | nil => cases h
  | cons d cs ih =>
    rw [depth.depths]
    rcases List.mem_cons.mp h with rfl | h
    · omega
    · have hlt := ih h
      omega

end Node

variable {levels k v : Nat} {page tok : UInt8} {tag : Tag} {content : Bool} (child : UInt8 → Bytes → Read)
  {b : Bytes}

theorem group_toNat (v : Nat) : (UInt8.ofNat (v%128+128)).toNat=v%128+128 :=
  UInt8.toNat_ofNat_of_lt' (by rw [UInt8.size]; omega)

theorem last_toNat (v : Nat) : (UInt8.ofNat (v%128)).toNat=v%128 :=
  UInt8.toNat_ofNat_of_lt' (by rw [UInt8.size]; omega)

theorem readGroups_group (hv : v<2^32) (rest : Bytes) :
    readGroups (k+1) (v/128) (UInt8.ofNat (v%128+128)::rest)=readGroups k v rest := by
  have hhigh : ¬UInt8.ofNat (v%128+128)<0x80 := by
    rw [UInt8.lt_iff_toNat_lt,group_toNat]
    exact Nat.not_lt.mpr (Nat.le_add_left _ _)
  have hvalue : (v/128*128+(UInt8.ofNat (v%128+128)).toNat%128)%2^32=v := by
    rw [group_toNat]
    omega
  rw [readGroups,if_neg hhigh,hvalue]

theorem readGroups_last (hv : v<2^32) (rest : Bytes) :
    readGroups (k+1) (v/128) (UInt8.ofNat (v%128)::rest)=.ok (v,rest) := by
  have hlow : UInt8.ofNat (v%128)<0x80 := by
    rw [UInt8.lt_iff_toNat_lt,last_toNat]
    exact Nat.mod_lt _ (by decide)
  have hvalue : (v/128*128+(UInt8.ofNat (v%128)).toNat%128)%2^32=v := by
    rw [last_toNat]
    omega
  rw [readGroups,if_pos hlow,hvalue]

theorem readGroups_mbGroups (acc : Bytes) (hk : v<128^k) (hv : v<2^32) (rest : Bytes) :
    ∃ j,j≤k ∧ ∀ m,readGroups (m+j) 0 (mbGroups k v acc++rest)=readGroups m v (acc++rest) := by
  induction k generalizing v acc with
  | zero =>
    obtain rfl : v=0 := by simpa using hk
    exact ⟨0,Nat.le_refl 0,fun m => rfl⟩
  | succ k ih =>
    rw [mbGroups]
    split_ifs with hzero
    · exact ⟨0,Nat.zero_le _,fun m => by rw [hzero,Nat.add_zero]⟩
    · have hdiv : v/128<128^k := by
        rw [Nat.div_lt_iff_lt_mul (by decide)]
        exact hk
      obtain ⟨j,hj,hread⟩ := ih (UInt8.ofNat (v%128+128)::acc) hdiv (by omega)
      refine ⟨j+1,Nat.succ_le_succ hj,fun m => ?_⟩
      rw [show m+(j+1)=m+1+j by omega,hread (m+1)]
      exact readGroups_group hv (acc++rest)

theorem readMbUint_mbUint (hv : v<2^32) (rest : Bytes) :
    readMbUint (mbUint v++rest)=.ok (v,rest) := by
  rw [readMbUint,mbUint,Nat.mod_eq_of_lt hv]
  obtain ⟨j,hj,hread⟩ := readGroups_mbGroups [UInt8.ofNat (v%128)]
    (show v/128<128^4 by omega) (by omega) rest
  have hfuel : 5=(4-j)+1+j := by omega
  rw [hfuel,hread]
  exact readGroups_last hv rest

theorem cstr_text {s : Bytes} (hs : 0∉s) (rest : Bytes) :
    cstr (s.filter (· ≠ 0)++[0]++rest)=.ok (s,rest) := by
  induction s with
  | nil => rfl
  | cons c s ih =>
    have hc : c≠0 := fun he => hs (by simp [he])
    have hrest : 0∉s := fun hin => hs (List.mem_cons_of_mem _ hin)
    rw [List.filter_cons_of_pos (by simpa using hc),List.cons_append,List.cons_append,cstr,
      if_neg hc,ih hrest]
    rfl

theorem take_data (d rest : Bytes) : take d.length (d++rest)=.ok (d,rest) := by
  rw [take,if_pos (by simp),List.take_left,List.drop_left]

theorem token_facts : (List.range 64).all (fun t => let tok := UInt8.ofNat t
    t<5 || (decide (tok≠gSwitchPage) && decide (tok≠gEnd) && decide (tok≠gStrI) &&
      decide (tok≠gOpaque) && decide (tok &&& cbAttributes=0) && decide (tok &&& tokenMask=tok) &&
      decide (tok &&& cbContent=0) &&
      decide (tok ||| cbContent≠gSwitchPage) && decide (tok ||| cbContent≠gEnd) &&
      decide (tok ||| cbContent≠gStrI) && decide (tok ||| cbContent≠gOpaque) &&
      decide ((tok ||| cbContent) &&& cbAttributes=0) &&
      decide ((tok ||| cbContent) &&& tokenMask=tok) &&
      decide ((tok ||| cbContent) &&& cbContent≠0)))=true := by
  decide +kernel

structure Opens (tok : UInt8) (token : UInt8) (content : Bool) : Prop where
  switch : tok≠gSwitchPage
  close : tok≠gEnd
  str : tok≠gStrI
  blob : tok≠gOpaque
  attributes : tok &&& cbAttributes=0
  token : tok &&& tokenMask=token
  content : decide (tok &&& cbContent≠0)=content

theorem opens {token : UInt8} (h : 5≤token ∧ token≤0x3F) :
    Opens token token false ∧ Opens (token ||| cbContent) token true := by
  have hlt : token.toNat<64 := Nat.lt_succ_of_le (UInt8.le_iff_toNat_le.mp h.2)
  have hge : 5≤token.toNat := UInt8.le_iff_toNat_le.mp h.1
  have hall := List.all_eq_true.mp token_facts token.toNat (List.mem_range.mpr hlt)
  simp only [UInt8.ofNat_toNat,Bool.or_eq_true,Bool.and_eq_true,decide_eq_true_eq] at hall
  rcases hall with hsmall | hall
  · omega
  · obtain ⟨⟨⟨⟨⟨⟨⟨⟨⟨⟨⟨⟨⟨h1,h2⟩,h3⟩,h4⟩,h5⟩,h6⟩,h7⟩,g1⟩,g2⟩,g3⟩,g4⟩,g5⟩,g6⟩,g7⟩ := hall
    exact ⟨⟨h1,h2,h3,h4,h5,h6,by simp [h7]⟩,⟨g1,g2,g3,g4,g5,g6,by simp [g7]⟩⟩

theorem skipSwitchPages_self {c : UInt8} (hc : c≠gSwitchPage) :
    skipSwitchPages (c::b) page=.ok (page,c::b) := by
  cases b with
  | nil | cons p b => rw [skipSwitchPages,if_neg hc]

theorem skipSwitchPages_switch {c : UInt8} (hc : c≠gSwitchPage) :
    skipSwitchPages (switchTo tag page++c::b) page=.ok (tag.page,c::b) := by
  rw [switchTo]
  split_ifs with hpage
  · rw [List.nil_append,skipSwitchPages_self hc,hpage]
  · have hswitch : skipSwitchPages ([gSwitchPage,tag.page]++c::b) page =
        skipSwitchPages (c::b) tag.page := by
      rfl
    rw [hswitch,skipSwitchPages_self hc]

theorem startTag_open {token : UInt8} (h : Opens tok token content) (b : Bytes) :
    startTag page (tok::b)=.ok ((⟨page,token⟩,content),b) := by
  have hglobal : ¬(tok=gEnd ∨ tok=gStrI ∨ tok=gOpaque) := by
    rintro (he | he | he)
    · exact h.close he
    · exact h.str he
    · exact h.blob he
  have hattributes : ¬tok &&& cbAttributes≠0 := not_not.mpr h.attributes
  have hread : startTag page (tok::b) =
      (if tok &&& cbAttributes≠0 then .error .format
        else if tok=gEnd ∨ tok=gStrI ∨ tok=gOpaque then .error .format
        else .ok ((⟨page,tok &&& tokenMask⟩,tok &&& cbContent≠0),b)) := rfl
  rw [hread,if_neg hattributes,if_neg hglobal,h.token,h.content]

theorem readElement_open (h : Opens tok tag.token content) :
    readElement (levels+1) page (switchTo tag page++tok::b) =
      if content then readContent (readElement levels) (b.length+1) (.mk tag [] [] none) tag.page b
      else .ok (.mk tag [] [] none,tag.page,b) := by
  have hskip : skipSwitchPages (switchTo tag page++tok::b) page=.ok (tag.page,tok::b) :=
    skipSwitchPages_switch h.switch
  simp [readElement,hskip,bind,Except.bind,startTag_open h]

theorem readContent_end (k : Nat) (n : Node) (page : UInt8) (b : Bytes) :
    readContent child (k+1) n page (gEnd::b)=.ok (n,page,b) := by
  rw [readContent,if_pos rfl]

theorem readContent_text (k : Nat) (n : Node) (page : UInt8) {s : Bytes} (hs : 0∉s) (b : Bytes) :
    readContent child (k+1) n page (strI s++b)=readContent child k (n.addText s) page b := by
  have hcstr := cstr_text hs b
  rw [strI,List.cons_append,List.cons_append,readContent,if_neg (by decide),if_pos rfl,hcstr]
  rfl

theorem readContent_data (k : Nat) (n : Node) (page : UInt8) {d : Bytes} (hd : d.length<2^32)
    (b : Bytes) :
    readContent child (k+1) n page (gOpaque::(mbUint d.length++(d++b))) =
      readContent child k (n.addData d) page b := by
  rw [readContent,if_neg (by decide),if_neg (by decide),if_pos rfl]
  simp [bind,Except.bind,readMbUint_mbUint hd,take_data]

def Begins (b : Bytes) : Prop := ∃ c t,b=c::t ∧ c≠gEnd ∧ c≠gStrI ∧ c≠gOpaque

theorem Begins.length (h : Begins b) : 0<b.length := by
  obtain ⟨c,t,rfl,-⟩ := h
  exact Nat.succ_pos _

theorem begins_switch (h : Opens tok tag.token content) (page : UInt8) (b : Bytes) :
    Begins (switchTo tag page++tok::b) := by
  rw [switchTo]
  split_ifs
  · exact ⟨tok,b,rfl,h.close,h.str,h.blob⟩
  · exact ⟨gSwitchPage,_,rfl,by decide,by decide,by decide⟩

theorem readContent_child {child : UInt8 → Bytes → Read} {n c : Node} {page' : UInt8} {rest : Bytes}
    (hb : Begins b) (hchild : child page (b++rest)=.ok (c,page',rest)) :
    readContent child (k+1) n page (b++rest)=readContent child k (n.addChild c) page' rest := by
  obtain ⟨x,t,rfl,hend,hstr,hblob⟩ := hb
  rw [List.cons_append] at hchild ⊢
  rw [readContent,if_neg hend,if_neg hstr,if_neg hblob,hchild]
  rfl

namespace Node

theorem begins_element {tag : Tag} (h : 5≤tag.token ∧ tag.token≤0x3F) (children : List Node)
    (text : Bytes) (data : Option Bytes) (page : UInt8) :
    Begins ((mk tag children text data).element page).1 := by
  obtain ⟨hplain,hcontent⟩ := opens h
  rw [element]
  by_cases hchildren : children=[]
  · rw [if_pos hchildren]
    cases data with
    | none =>
      by_cases htext : text=[]
      · rw [Option.elim_none,if_pos htext]
        exact begins_switch hplain page []
      · rw [Option.elim_none,if_neg htext]
        exact begins_switch hcontent page _
    | some d => exact begins_switch hcontent page _
  · rw [if_neg hchildren]
    simp only [List.append_assoc]
    exact begins_switch hcontent page _

def Back (levels : Nat) (n : Node) : Prop := ∀ page rest,
  readElement levels page ((n.element page).1++rest)=.ok (n,(n.element page).2,rest)

theorem length_elements (hcs : ∀ c∈cs,∀ page,Begins (c.element page).1) (page : UInt8) :
    cs.length≤(element.elements cs page).1.length := by
  induction cs generalizing page with
  | nil => exact Nat.zero_le _
  | cons c cs ih =>
    have hc := (hcs c (by simp) page).length
    have hrest := ih (fun d hd => hcs d (by simp [hd])) (c.element page).2
    rw [element.elements,List.length_append,List.length_cons]
    omega

theorem readContent_children {k : Nat} (hk : cs.length<k)
    (hbegins : ∀ c∈cs,∀ page,Begins (c.element page).1) (hback : ∀ c∈cs,Back levels c) (tag : Tag)
    (before : List Node) (page : UInt8) (rest : Bytes) :
    readContent (readElement levels) k (mk tag before [] none) page
        ((element.elements cs page).1++gEnd::rest) =
      .ok (mk tag (before++cs) [] none,(element.elements cs page).2,rest) := by
  induction cs generalizing k before page with
  | nil =>
    obtain ⟨k,rfl⟩ := Nat.exists_eq_succ_of_ne_zero (Nat.ne_of_gt hk)
    rw [List.append_nil]
    exact readContent_end _ _ _ _ _
  | cons c cs ih =>
    obtain ⟨k,rfl⟩ := Nat.exists_eq_succ_of_ne_zero (Nat.ne_of_gt (Nat.lt_of_le_of_lt (Nat.zero_le _) hk))
    have hfirst := hback c (by simp) page
    simp only [element.elements,List.append_assoc]
    rw [readContent_child (hbegins c (by simp) page) (hfirst _),addChild,
      ih (Nat.lt_of_succ_lt_succ hk) (fun d hd => hbegins d (by simp [hd]))
        (fun d hd => hback d (by simp [hd]))]
    simp

theorem back_of_single (n : Node) (hsingle : n.All Single) (hshort : n.All Short)
    (hdepth : n.depth<levels) : Back levels n := by
  induction n using induct generalizing levels with
  | h tag children text data ih =>
    obtain ⟨⟨htoken,hkind⟩,hchildren⟩ := all_mk.mp hsingle
    obtain ⟨hdata,hshorts⟩ := all_mk.mp hshort
    obtain ⟨levels,rfl⟩ := Nat.exists_eq_succ_of_ne_zero (Nat.ne_of_gt (Nat.lt_of_le_of_lt (Nat.zero_le _) hdepth))
    obtain ⟨hplain,hcontent⟩ := opens htoken
    intro page rest
    rw [element]
    rcases hkind with ⟨hne,rfl,rfl⟩ | ⟨rfl,hne,hnul,rfl⟩ | ⟨rfl,rfl,d,hne,rfl⟩ | ⟨rfl,rfl,rfl⟩
    · have hbegins : ∀ c∈children,∀ page,Begins (c.element page).1 := by
        intro c hc page
        cases c with
        | mk t cs s d => exact begins_element (all_mk.mp (hchildren _ hc)).1.1 cs s d page
      have hback : ∀ c∈children,Back levels c := by
        intro c hc
        have hlt := depth_lt_depths hc
        have hle : depth.depths children<levels+1 := hdepth
        exact ih c hc (hchildren c hc) (hshorts c hc) (by omega)
      have hlength := length_elements hbegins tag.page
      rw [if_neg hne]
      simp only [List.append_assoc,List.cons_append]
      refine (readElement_open hcontent).trans ?_
      refine readContent_children ?_ hbegins hback tag [] tag.page rest
      rw [List.length_append]
      omega
    · rw [if_pos rfl,Option.elim_none,if_neg hne]
      simp only [List.append_assoc,List.cons_append,List.nil_append]
      refine (readElement_open hcontent).trans ?_
      rw [if_pos rfl]
      have hfuel : 1≤(strI text++gEnd::rest).length := by
        rw [List.length_append,List.length_cons]
        omega
      obtain ⟨k,hk⟩ := Nat.exists_eq_add_of_le hfuel
      rw [hk,Nat.add_comm 1 k,readContent_text _ _ _ _ hnul]
      exact readContent_end _ _ _ _ _
    · rw [if_pos rfl,Option.elim_some]
      simp only [List.append_assoc,List.cons_append,List.nil_append]
      refine (readElement_open hcontent).trans ?_
      rw [if_pos rfl]
      have hfuel : 1≤(gOpaque::(mbUint d.length++(d++gEnd::rest))).length := by simp
      obtain ⟨k,hk⟩ := Nat.exists_eq_add_of_le hfuel
      rw [hk,Nat.add_comm 1 k,readContent_data _ _ _ _ (hdata d rfl)]
      rw [addData,if_neg hne]
      rfl
    · rw [if_pos rfl,Option.elim_none,if_pos rfl]
      simp only [List.append_assoc]
      exact readElement_open hplain

end Node

theorem expect_self (hv : v<2^32) (rest : Bytes) : expect v (mbUint v++rest)=.ok rest := by
  simp [expect,readMbUint_mbUint hv,bind,Except.bind]

theorem unmarshal_header (b : Bytes) : unmarshal (header++b) =
    (readElement (maxNestingDepth+1) pageAirSync b).map fun r => r.1 := by
  have hid : expect publicID (mbUint publicID++(mbUint charsetUTF8++(mbUint stringTableLen++b))) =
      .ok (mbUint charsetUTF8++(mbUint stringTableLen++b)) := expect_self (by decide) _
  have hcharset : expect charsetUTF8 (mbUint charsetUTF8++(mbUint stringTableLen++b)) =
      .ok (mbUint stringTableLen++b) := expect_self (by decide) _
  have htable : expect stringTableLen (mbUint stringTableLen++b)=.ok b := expect_self (by decide) _
  have hbytes : header++b =
      version::(mbUint publicID++(mbUint charsetUTF8++(mbUint stringTableLen++b))) := by
    simp [header]
  rw [hbytes]
  simp only [unmarshal,readByte,bind,Except.bind,hid,hcharset,htable]
  cases readElement (maxNestingDepth+1) pageAirSync b <;> rfl

/-- Depth at most 64, one kind of content, under 4 GiB: read back. -/
theorem unmarshal_marshal (t : Node) (hsingle : t.All Node.Single) (hshort : t.All Node.Short)
    (hdepth : t.depth ≤ 64) (s : Bytes) : unmarshal (marshal t ++ s) = .ok t := by
  have hback := t.back_of_single hsingle hshort (Nat.lt_succ_of_le hdepth) pageAirSync s
  exact congrArg (Except.map fun r => r.1) hback

theorem unmarshal_marshal_pages :
    let t : Node := .mk ⟨0,0x05⟩ [.mk ⟨2,0x0F⟩ [] [0x41] none,.mk ⟨0,0x1C⟩ [] [] (some [0x00]),
      .mk ⟨2,0x10⟩ [] [] none] [] none
    marshal t ++ [0x01] = [0x03,0x01,0x6A,0x00,0x45,0x00,0x02,0x4F,0x03,0x41,0x00,0x01,0x00,0x00,0x5C,
        0xC3,0x01,0x00,0x01,0x00,0x02,0x10,0x01,0x01] ∧
      unmarshal (marshal t ++ [0x01]) = .ok t := by
  intro t
  have hsingle : t.All Node.Single := by simp [t,Node.All,Node.All.Alls,Node.Single]
  have hshort : t.All Node.Short := by simp [t,Node.All,Node.All.Alls,Node.Short]
  exact ⟨by decide,unmarshal_marshal t hsingle hshort (by decide) [0x01]⟩

theorem unmarshal_long (tag : Tag) (htoken : 5≤tag.token ∧ tag.token≤0x3F) (d : Bytes)
    (hlength : (gEnd::d).length=2^32) :
    unmarshal (marshal (.mk tag [] [] (some (gEnd::d))))=.ok (.mk tag [] [] none) := by
  have hfield : mbUint (gEnd::d).length=[0x00] := by
    rw [hlength]
    decide
  have hbytes : ((Node.mk tag [] [] (some (gEnd::d))).element pageAirSync).1 =
      switchTo tag pageAirSync++(tag.token ||| cbContent)::gOpaque::0x00::gEnd :: (d++[gEnd]) := by
    rw [Node.element,if_pos rfl,Option.elim_some,hfield]
    simp
  rw [marshal,unmarshal_header,hbytes,readElement_open (opens htoken).2,if_pos rfl,readContent,
    if_neg (by decide),if_neg (by decide),if_pos rfl]
  rfl

theorem long_data_lost :
    let t : Node := .mk ⟨0,5⟩ [] [] (some (List.replicate (2^32) 0x01))
    t.All Node.Single ∧ t.depth ≤ 64 ∧ unmarshal (marshal t ++ []) = .ok (.mk ⟨0,5⟩ [] [] none) ∧
      t ≠ .mk ⟨0,5⟩ [] [] none := by
  intro t
  have hreplicate : List.replicate (2^32) (0x01 : UInt8)=gEnd::List.replicate (2^32-1) 0x01 :=
    List.replicate_succ
  have hlength : (gEnd::List.replicate (2^32-1) 0x01).length=2^32 := by
    rw [List.length_cons,List.length_replicate]
    omega
  have htoken : (5 : UInt8)≤5 ∧ (5 : UInt8)≤0x3F := by decide
  refine ⟨Node.all_mk.mpr ⟨⟨htoken,.inr (.inr (.inl ⟨rfl,rfl,_,?_,rfl⟩))⟩,by simp⟩,by decide,?_,?_⟩
  · exact List.cons_ne_nil _ _
  · rw [List.append_nil]
    exact unmarshal_long ⟨0,5⟩ htoken _ hlength
  · intro he
    injection he with _ _ _ hdata
    cases hdata

end HermEX.Wbxml
