import HermEX.Framework.Text

namespace HermEX.Imap

open Framework

inductive Token where
  | atom (val : Bytes)
  | string (val : Bytes) (literal : Bool)
  | lparen
  | rparen
  | lbracket
  | rbracket

/-- A line past the cap, with the byte that passed it. -/
inductive ReadErr where
  | eof
  | lineTooLong (passed : Nat)
  | protocol

/-- The bytes, the next offset, what is counted of the line, and the continuations written. -/
structure CommandReader where
  stream : Bytes
  pos : Nat
  lineBytes : Nat
  ready : Nat

def discardLine (s : Bytes) (p : Nat) : Option Nat := ((s.drop p).idxOf? 0x0A).map (p+·+1)

/-- A line past the cap is left behind its LF. -/
structure Reading (α : Type) where
  run : CommandReader → Except ReadErr α×CommandReader
  framed : ∀ r,(run r).2.stream=r.stream ∧ ∀ p,(run r).1=.error (.lineTooLong p) →
    p < r.stream.length ∧ discardLine r.stream (p+1)=some (run r).2.pos

def Reading.fail {α : Type} (e : ReadErr) (he : ∀ p,e≠.lineTooLong p := by simp) : Reading α :=
  ⟨fun r => (.error e,r),fun _ => ⟨rfl,fun p h => absurd (Except.error.inj h) (he p)⟩⟩

instance : Monad Reading where
  pure a := ⟨fun r => (.ok a,r),by simp⟩
  bind x f :=
    { run r := match x.run r with
        | (.ok a,s) => (f a).run s
        | (.error e,s) => (.error e,s)
      framed r := by
        have hx := x.framed r
        split at * <;> rename_i a s h
        · have hs := (f a).framed s
          simp_all
        · simp_all }

def lineLimit (maxLine : Int) : Nat := if 0 < maxLine then maxLine.toNat else 65536

def literalLimit (maxLiteral : Int) : Nat := if 0 < maxLiteral then maxLiteral.toNat else 52428800

variable (maxLine maxLiteral : Int)

def readByte : Reading UInt8 where
  run r := match r.stream[r.pos]? with
    | none => (.error .eof,r)
    | some b =>
      let r' := {r with pos:=r.pos+1,lineBytes:=r.lineBytes+1}
      if r'.lineBytes≤lineLimit maxLine then (.ok b,r')
      else match discardLine r.stream r'.pos with
        | none => (.error .eof,{r' with pos:=r.stream.length})
        | some p => (.error (.lineTooLong r.pos),{r' with pos:=p})
  framed r := by
    cases hb : r.stream[r.pos]? with
    | none => simp
    | some b =>
      have hp := (List.getElem?_eq_some_iff.mp hb).1
      dsimp only
      split_ifs
      · simp
      cases ha : discardLine r.stream (r.pos+1) with
      | none => simp
      | some q => simpa [hp] using ha

def readFull (n : Nat) : Reading Bytes where
  run r :=
    if r.pos+n ≤ r.stream.length then
      (.ok ((r.stream.drop r.pos).take n),{r with pos:=r.pos+n})
    else (.error .eof,{r with pos:=r.stream.length})
  framed r := by split_ifs <;> simp

def unread : Reading Unit :=
  ⟨fun r => (.ok (),{r with pos:=r.pos-1,lineBytes:=r.lineBytes-1}),by simp⟩

def writeReady : Reading Unit := ⟨fun r => (.ok (),{r with ready:=r.ready+1}),by simp⟩

def Reading.orEnd {α : Type} (x : Reading α) : Reading (Option α) where
  run r := match x.run r with
    | (.ok a,s) => (.ok (some a),s)
    | (.error (.lineTooLong p),s) => (.error (.lineTooLong p),s)
    | (.error _,s) => (.ok none,s)
  framed r := by
    have hx := x.framed r
    split at * <;> simp_all

def expectLF : Reading Unit := do
  if (← readFull 1)=[0x0A] then pure () else .fail .protocol

def expectCRLF : Reading Unit := do
  let b ← readFull 1
  if b=[0x0D] then expectLF else if b=[0x0A] then pure () else .fail .protocol

def isAtomDelimiter (b : UInt8) : Bool := [0x20,0x0D,0x0A,0x28,0x29,0x5B,0x5D,0x22,0x7B].contains b

def readAtom : Nat → Bytes → Reading Bytes
  | 0,_ => .fail .eof
  | k+1,sb => do
    match ← (readByte maxLine).orEnd with
    | none => pure sb
    | some b =>
      if isAtomDelimiter b then
        unread
        pure sb
      else readAtom k (sb++[b])

def readQuoted : Nat → Bytes → Reading Bytes
  | 0,_ => .fail .eof
  | k+1,sb => do
    let b ← readByte maxLine
    if b=0x22 then pure sb
    else if b=0x5C then readQuoted k (sb++[← readByte maxLine])
    else if b=0x0D ∨ b=0x0A then .fail .protocol
    else readQuoted k (sb++[b])

def readLiteralHeader : Nat → Bytes → Bool → Reading (Nat×Bool)
  | 0,_,_ => .fail .eof
  | k+1,digits,nonSync => do
    let b ← readByte maxLine
    if b=0x7D then
      match parseUint 63 digits with
      | some n => pure (n,nonSync)
      | none => .fail .protocol
    else if b=0x2B then readLiteralHeader k digits true
    else if ¬isDigit b ∨ nonSync then .fail .protocol
    else readLiteralHeader k (digits++[b]) nonSync

def readLiteral (fuel : Nat) : Reading Bytes := do
  let (n,nonSync) ← readLiteralHeader maxLine fuel [] false
  if literalLimit maxLiteral<n then .fail .protocol
  else
    expectCRLF
    if ¬nonSync then writeReady
    readFull n

def punctuationTokens : List (UInt8×Token) :=
  [(0x28,.lparen),(0x29,.rparen),(0x5B,.lbracket),(0x5D,.rbracket)]

def readToken (fuel : Nat) (b : UInt8) : Reading Token := do
  match punctuationTokens.lookup b with
  | some t => pure t
  | none =>
    if b=0x22 then return .string (← readQuoted maxLine fuel []) false
    else if b=0x7B then return .string (← readLiteral maxLine maxLiteral fuel) true
    else
      unread
      return .atom (← readAtom maxLine fuel [])

def readTokens (fuel : Nat) : Nat → List Token → Reading (List Token)
  | 0,_ => .fail .eof
  | k+1,toks => do
    let b ← readByte maxLine
    if b=0x0D then
      expectLF
      return toks
    else if b=0x0A then return toks
    else if b=0x20 then readTokens fuel k toks
    else readTokens fuel k (toks++[← readToken maxLine maxLiteral fuel b])

def readCommand : Reading (List Token) where
  run r :=
    let fuel := r.stream.length+1
    (readTokens maxLine maxLiteral fuel fuel []).run {r with lineBytes:=0}
  framed r := (readTokens maxLine maxLiteral _ _ []).framed {r with lineBytes:=0}

theorem discardLine_of_lt {p : Nat} (s : Bytes) (hp : p<s.length) :
    discardLine s p=if s[p]=0x0A then some (p+1) else discardLine s (p+1) := by
  simp only [discardLine,List.drop_eq_getElem_cons hp,List.idxOf?_cons,beq_iff_eq]
  split_ifs
  · simp
  simp only [Option.map_map]
  congr 1
  funext i
  simp only [Function.comp_apply]
  omega

theorem readCommand_resumes {r r' : CommandReader} {p : Nat}
    (h : (readCommand maxLine maxLiteral).run r=(.error (.lineTooLong p),r')) :
    discardLine r.stream p=some r'.pos ↔ r.stream[p]?≠some 0x0A := by
  have hf := ((readCommand maxLine maxLiteral).framed r).2 p
  rw [h] at hf
  obtain ⟨hp,hpos⟩ := hf rfl
  obtain ⟨i,-,hi⟩ := Option.map_eq_some_iff.mp hpos
  rw [discardLine_of_lt r.stream hp,List.getElem?_eq_getElem hp]
  by_cases hlf : r.stream[p]=0x0A
  · have hne : p+1≠r'.pos := by
      dsimp only at hi
      omega
    simp [hlf,hne]
  · simpa [hlf] using hpos

/-- The rest of a long line goes, and the next command is read. -/
theorem readCommand_resumes_atom :
    let input : Bytes := [0x61,0x61,0x61,0x0A,0x62,0x0A]
    (readCommand 2 0).run ⟨input,0,0,0⟩=(.error (.lineTooLong 2),⟨input,4,3,0⟩) ∧
    discardLine input 2=some 4 ∧
    (readCommand 2 0).run ⟨input,4,3,0⟩=(.ok [.atom [0x62]],⟨input,6,2,0⟩) :=
  have h := rfl
  ⟨h,(readCommand_resumes 2 0 h).mpr (by decide),rfl⟩

theorem readCommand_swallows :
    (readCommand 1 0).run ⟨[0x61,0x0A,0x62,0x0A],0,0,0⟩=
      (.error (.lineTooLong 1),⟨[0x61,0x0A,0x62,0x0A],4,2,0⟩) ∧
    discardLine [0x61,0x0A,0x62,0x0A] 1=some 2 :=
  ⟨rfl,rfl⟩

end HermEX.Imap
