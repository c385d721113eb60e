import HermEX.Ics.CodecRoundTrip

namespace HermEX.Ics

open Framework Mapi

structure Parser where
  buf : Bytes
  pos : Nat

namespace Parser

def new : Parser := ⟨[],0⟩

def unread (ps : Parser) : Bytes := ps.buf.drop ps.pos

def feed (ps : Parser) (chunk : Bytes) : Parser :=
  if 0<ps.pos then ⟨ps.buf.drop ps.pos++chunk,0⟩ else ⟨ps.buf++chunk,ps.pos⟩

def next (ps : Parser) : Except FxError (Option Item)×Parser :=
  match decodeElement ps.unread with
  | .fail e => (.error e,ps)
  | .more => (.ok none,ps)
  | .done it consumed => (.ok (some it),{ps with pos:=ps.pos+consumed})

/-- What a caller holds after some reads. -/
structure Progress where
  items : List Item
  err : Option FxError
  parser : Parser

def nextAll : Nat → Parser → Progress
  | 0,ps => ⟨[],none,ps⟩
  | fuel+1,ps => match ps.next with
    | (.error e,ps) => ⟨[],some e,ps⟩
    | (.ok none,ps) => ⟨[],none,ps⟩
    | (.ok (some it),ps) =>
      let r := nextAll fuel ps
      ⟨it::r.items,r.err,r.parser⟩

def step (p : Progress) (chunk : Bytes) : Progress :=
  match p.err with
  | some _ => p
  | none =>
    let ps := p.parser.feed chunk
    let r := nextAll ps.unread.length ps
    ⟨p.items++r.items,r.err,r.parser⟩

def run (chunks : List Bytes) : Progress := chunks.foldl step ⟨[],none,new⟩

theorem feed_unread (ps : Parser) (chunk : Bytes) :
    (ps.feed chunk).unread=ps.unread++chunk := by
  unfold feed
  split_ifs with hp
  · rfl
  · have h0 : ps.pos=0 := by omega
    simp [unread,h0]

theorem feed_pos (ps : Parser) (chunk : Bytes) (h : ps.pos≤ps.buf.length) :
    (ps.feed chunk).pos≤(ps.feed chunk).buf.length := by
  unfold feed
  split_ifs with hp
  · simp
  · simp only [List.length_append]
    omega

def Progress.view (p : Progress) : Drained UInt8 FxError Item := ⟨p.items,p.err,p.parser.unread⟩

attribute [local simp] Progress.view

theorem nextAll_view (fuel : Nat) (ps : Parser) (h : ps.pos≤ps.buf.length) :
    (nextAll fuel ps).view=drainFuel decodeElement fuel ps.unread ∧
      (nextAll fuel ps).parser.pos≤(nextAll fuel ps).parser.buf.length := by
  induction fuel generalizing ps with
  | zero => exact ⟨rfl,h⟩
  | succ fuel ih =>
    cases hd : decodeElement ps.unread with
    | more | fail e => simpa [nextAll,next,hd,drainFuel] using h
    | done it n =>
      have hn := (decodeElement_decodes.done_length elementFrame_whole_ne_nil hd).2
      have hlen : ps.pos+n≤ps.buf.length := by
        simp only [unread,List.length_drop] at hn
        omega
      obtain ⟨hv,hp⟩ := ih {ps with pos:=ps.pos+n} hlen
      have hu : ({ps with pos:=ps.pos+n} : Parser).unread=ps.unread.drop n := by simp [unread]
      rw [hu] at hv
      refine ⟨?_,by simpa [nextAll,next,hd] using hp⟩
      simp [nextAll,next,hd,drainFuel,← hv]

theorem step_view (p : Progress) (chunk : Bytes) (h : p.parser.pos≤p.parser.buf.length) :
    (step p chunk).view=feedChunk decodeElement p.view chunk ∧
      (step p chunk).parser.pos≤(step p chunk).parser.buf.length := by
  cases he : p.err with
  | some e => simpa [step,he,feedChunk] using h
  | none =>
    obtain ⟨hv,hp⟩ := nextAll_view ((p.parser.feed chunk).unread.length)
      (p.parser.feed chunk) (feed_pos _ _ h)
    have hd : drainFuel decodeElement (p.parser.feed chunk).unread.length
        (p.parser.feed chunk).unread=drain decodeElement (p.parser.unread++chunk) := by
      rw [← feed_unread]
      rfl
    rw [hd] at hv
    refine ⟨?_,by simpa [step,he] using hp⟩
    simp [step,he,feedChunk,← hv]

theorem run_view (chunks : List Bytes) :
    (run chunks).view=feedAll decodeElement chunks := by
  have h (p : Progress) (hp : p.parser.pos≤p.parser.buf.length) :
      (chunks.foldl step p).view=chunks.foldl (feedChunk decodeElement) p.view := by
    induction chunks generalizing p with
    | nil => rfl
    | cons c cs ih =>
      obtain ⟨hv,hq⟩ := step_view p c hp
      rw [List.foldl_cons,List.foldl_cons,ih _ hq,hv]
  exact h _ (Nat.zero_le _)

end Parser

inductive Element where
  | marker (m : UInt32) (known : isMarker m)
  | prop (p : StreamProp)

def Element.encode : Element → Except FxError Bytes
  | .marker m _ => .ok (leBytes 4 m.toNat)
  | .prop p => (encodeProp p).map fun x => x.1++x.2

def encodeStream : List Element → Except FxError Bytes
  | [] => .ok []
  | e::es => e.encode.bind fun b => (encodeStream es).map fun s => b++s

def Element.Plain : Element → Prop
  | .marker _ _ => True
  | .prop p => isMarker p.tag=false ∧ p.tag≠metaTagIdsetGiven ∧ Transferable p.value ∧
      ∀ n,p.name=some n → ValidUTF8 n.name ∧ 0∉n.name

theorem elementFrame_whole_of_yields {w : Bytes} {x : Item} (h : Yields w decodeElement x) :
    elementFrame.whole w := by
  have hdone := h []
  rw [List.append_nil] at hdone
  obtain ⟨w',t,rfl,hlength,hw⟩ := decodeElement_decodes.done_inv _ _ _ hdone
  have ht : t=[] := by
    rw [List.length_append] at hlength
    exact List.length_eq_zero_iff.mp (by omega)
  rwa [ht,List.append_nil]

theorem Element.encode_whole {e : Element} {w : Bytes} (he : e.Plain) (h : e.encode=.ok w) :
    elementFrame.whole w := by
  cases e with
  | marker m known =>
    cases h
    refine elementFrame_whole_of_yields (x := .marker m) fun rest => ?_
    have hword := Returns.u32 m rest
    simp [decodeElement,Outcome.seq,hword,decodeAfterWord,known,Outcome.after]
  | prop p =>
    obtain ⟨hm,hg,hvalue,hname⟩ := he
    cases hp : encodeProp p with
    | error err =>
      rw [Element.encode,hp] at h
      cases h
    | ok x =>
      rw [Element.encode,hp] at h
      cases h
      exact elementFrame_whole_of_yields (encodeProp_yields hp hm hg hvalue hname)

theorem encodeStream_framed {es : List Element} {b : Bytes} (hes : ∀ e∈es,e.Plain)
    (h : encodeStream es=.ok b) : elementFrame.Framed b := by
  induction es generalizing b with
  | nil =>
    cases h
    exact Frame.framed_of_part elementFrame_part_nil
  | cons e es ih =>
    cases hw : e.encode with
    | error err =>
      rw [encodeStream,hw] at h
      cases h
    | ok w =>
      cases hs : encodeStream es with
      | error err =>
        rw [encodeStream,hw,hs] at h
        cases h
      | ok s =>
        rw [encodeStream,hw,hs] at h
        cases h
        exact Frame.framed_append (Element.encode_whole (hes e (by simp)) hw)
          (ih (fun e he => hes e (by simp [he])) hs)

/-- The chunks give the stream's items just when no boundary starves an unfinished element. -/
theorem Parser.run_chunks_iff (cs : List Bytes) :
    ((Parser.run cs).err=none ∧ (Parser.run cs).items=(Parser.run [cs.flatten]).items) ↔
      ∀ k,elementFrame.Framed (cs.take k).flatten := by
  have he : (Parser.run cs).err=(feedAll decodeElement cs).err := by rw [← Parser.run_view]; rfl
  have hi (ds : List Bytes) : (Parser.run ds).items=(feedAll decodeElement ds).items := by
    rw [← Parser.run_view]; rfl
  rw [he,hi,hi]
  exact reassembly_iff decodeElement_decodes elementFrame_whole_ne_nil elementFrame_part_nil cs

/-- A multivalue of one long, cut after its count. -/
theorem Parser.run_cut_multivalue :
    let cs : List Bytes := [[0x03,0x10,0x00,0x66,1,0,0,0],[7,0,0,0]]
    encodeStream [.prop ⟨0x66001003,none,.int32s [7]⟩]=.ok cs.flatten ∧
      ¬((Parser.run cs).err=none ∧ (Parser.run cs).items=(Parser.run [cs.flatten]).items) := by
  decide

end HermEX.Ics
