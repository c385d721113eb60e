import HermEX.Framework.Codec
import HermEX.Rpchttp.Emsmdb

namespace HermEX.Mapihttp

open Framework Mapi Rpchttp

def rheFlagCompressed : UInt16 := 1
def rheFlagXorMagic : UInt16 := 2
def rheFlagLast : UInt16 := 4
def xorMagic : UInt8 := 0xA5

def header (b : Bytes) : Option (UInt16×Bytes×Nat) := do
  guard (8≤b.length)
  let flags := u16At b 2
  let size := (u16At b 4).toNat
  let sizeActual := (u16At b 6).toNat
  guard (flags &&& rheFlagLast≠0)
  guard (size≠0 ∧ 8+size≤b.length)
  guard (sizeActual≠0 ∧ sizeActual≤ maxROPBuffer)
  return (flags,(b.drop 8).take size,sizeActual)

def deobfuscate (payload : Bytes) (flags : UInt16) : Bytes :=
  if flags &&& rheFlagXorMagic=0 then payload else payload.map (· ^^^ xorMagic)

def ropBuffer (decompress : Bytes → Nat → Option Bytes) (b : Bytes) : Option Bytes := do
  let (flags,payload,sizeActual) ← header b
  let sent := deobfuscate payload flags
  let dec ← if flags &&& rheFlagCompressed≠0 then decompress sent sizeActual else some sent
  guard (sizeActual≤dec.length)
  return dec.take sizeActual

def splitROPBuffer (rb : Bytes) : Option (Bytes×List UInt32) := do
  guard (2≤ rb.length)
  let ropSize := (u16At rb 0).toNat
  guard (2≤ ropSize ∧ ropSize≤ rb.length)
  let tail := rb.drop ropSize
  guard (tail.length%4=0)
  return ((rb.take ropSize).drop 2,(List.range (tail.length/4)).map fun i => u32At tail (i*4))

def decodeExecute (decompress : Bytes → Nat → Option Bytes) (b : Bytes) :
    Option (Bytes×List UInt32) :=
  (ropBuffer decompress b).bind splitROPBuffer

def encodeExecute (rops : Bytes) (handles : List UInt32) : Bytes :=
  let rb := put16 (UInt16.ofNat (rops.length+2))++rops++handles.flatMap put32
  let sizeActual := put16 (UInt16.ofNat rb.length)
  put16 0++put16 4++sizeActual++sizeActual++rb

/-- The X-ResponseCode values of the endpoint. -/
inductive ResponseCode where
  | success
  | invalidCtxCookie
  | noPriv
  | invalidReqBody
  | missingCookie
  | invalidSeq

/-- The state behind a sid cookie; `user` connected. -/
structure SessionContext (ρ : Type) where
  sid : String
  user : String
  mailbox : String
  sequence : String
  ropSess : ρ
  lastSeen : Nat
  created : Nat

/-- A `maxAge` of zero sets no limit. -/
structure SessionStore (ρ : Type) where
  m : Table fun c : SessionContext ρ => c.sid
  maxAge : Nat

def SessionStore.new (ρ : Type) (maxAge : Nat) : SessionStore ρ := ⟨.empty,maxAge⟩

namespace SessionStore

variable {ρ : Type}

def tooOld (s : SessionStore ρ) (c : SessionContext ρ) (now : Nat) : Bool :=
  decide (s.maxAge>0 ∧ now-c.created≥s.maxAge)

def update (s : SessionStore ρ) (sid : String) (f : SessionContext ρ → SessionContext ρ)
    (hf : ∀ c,(f c).sid=c.sid) : SessionStore ρ :=
  {s with m:=s.m.updateWhere (fun c => c.sid=sid) f hf}

def create (s : SessionStore ρ) (R : RopLayer ρ) (user mailbox : String) (locale : Rpchttp.Locale)
    (sid sequence : String) (now : Nat) : SessionStore ρ :=
  {s with m:=s.m.put ⟨sid,user,mailbox,sequence,R.newSession mailbox user locale,now,now⟩}

def execute (s : SessionStore ρ) (sid seq user newSeq : String) (now : Nat) :
    Except ResponseCode (SessionContext ρ×SessionStore ρ) :=
  match s.m.get sid with
  | none => .error .invalidCtxCookie
  | some c =>
    if s.tooOld c now then .error .invalidCtxCookie
    else if c.user≠user then .error .noPriv
    else if c.sequence≠seq then .error .invalidSeq
    else .ok (c,s.update sid (fun c => {c with sequence:=newSeq,lastSeen:=now}) fun _ => rfl)

def lookup (s : SessionStore ρ) (sid user : String) (now : Nat) :
    Option (SessionContext ρ×SessionStore ρ) :=
  match s.m.get sid with
  | none => none
  | some c =>
    if c.user≠user ∨ s.tooOld c now then none
    else some (c,s.update sid (fun c => {c with lastSeen:=now}) fun _ => rfl)

def drop (s : SessionStore ρ) (sid : String) : SessionStore ρ :=
  {s with m:=s.m.deleteWhere fun c => c.sid=sid}

def sweep (s : SessionStore ρ) (now ttl : Nat) : SessionStore ρ :=
  {s with m:=s.m.deleteWhere fun c => decide (now-c.lastSeen≥ttl) || s.tooOld c now}

end SessionStore

structure HttpCaller where
  user : String
  mailbox : String
  now : Nat

/-- Its cookies, its body, and the tokens drawn if needed. -/
inductive HttpRequest where
  | connect (body : Bytes) (sid sequence : String)
  | execute (sid sequence : Option String) (body : Bytes) (newSeq : String)
  | disconnect (sid : Option String)
  | notificationWait (sid : Option String) (polls : Nat)

inductive HttpReply where
  | respError (code : ResponseCode)
  | connected (sid sequence displayName : String)
  | executed (newSeq : String) (errorCode : UInt32) (ropBuffer : Bytes)
  | malformed (newSeq : String)
  | disconnected
  | notified (flags : UInt32)

def cstr : Bytes → Option Bytes
  | [] => none
  | b::bs => if b=0 then some bs else cstr bs

def connectBody (body : Bytes) : Option Rpchttp.Locale := do
  let rest ← cstr body
  let (_flags,rest) ← Reader.u32 rest
  let (codePage,rest) ← Reader.u32 rest
  let (lcidString,rest) ← Reader.u32 rest
  let (lcidSort,_) ← Reader.u32 rest
  return ⟨codePage,lcidString,lcidSort⟩

def executeBody (body : Bytes) : Option Bytes := do
  let (_flags,rest) ← Reader.u32 body
  let (cbIn,rest) ← Reader.u32 rest
  let (ropBuf,rest) ← Reader.bytes cbIn.toNat rest
  let _ ← Reader.u32 rest
  return ropBuf

def waitForNotification {ρ : Type} (R : RopLayer ρ) : Nat → ρ → Bool×ρ
  | 0,rop => (false,rop)
  | n+1,rop =>
    match R.pollForChange rop with
    | (true,rop) => (true,rop)
    | (false,rop) => waitForNotification R n rop

section Endpoint

variable {ρ : Type}

def emsConnect (R : RopLayer ρ) (s : SessionStore ρ) (c : HttpCaller) (body : Bytes)
    (sid sequence : String) : HttpReply×SessionStore ρ×List Touch :=
  match connectBody body with
  | none => (.respError .invalidReqBody,s,[])
  | some locale =>
    (.connected sid sequence c.user,s.create R c.user c.mailbox locale sid sequence c.now,
      (s.m.get sid).toList.map fun old => ⟨.destroys,old.user⟩)

def emsExecute (R : RopLayer ρ) (s : SessionStore ρ) (c : HttpCaller)
    (sid seq : Option String) (body : Bytes) (newSeq : String) :
    HttpReply×SessionStore ρ×List Touch :=
  match sid,seq with
  | some sid,some seq =>
    match s.execute sid seq c.user newSeq c.now with
    | .error code => (.respError code,s,[])
    | .ok (ctx,s) =>
      match executeBody body with
      | none => (.malformed newSeq,s,[])
      | some ropBuf =>
        if ropBuf=[] then (.executed newSeq 0 (R.encodeExecute [] []),s,[])
        else match R.decodeExecute ropBuf with
          | none => (.malformed newSeq,s,[])
          | some (rops,handles) =>
            let ((rops,handles),rop) := R.dispatch ctx.ropSess rops handles
            let s := s.update ctx.sid (fun c => {c with ropSess:=rop}) fun _ => rfl
            let reply := if ropBufferSize rops handles>maxROPBuffer then
                .executed newSeq ecResponseTooBig []
              else .executed newSeq 0 (R.encodeExecute rops handles)
            (reply,s,[⟨.runs,ctx.user⟩])
  | _,_ => (.respError .missingCookie,s,[])

def emsDisconnect (s : SessionStore ρ) (sid : Option String) :
    HttpReply×SessionStore ρ×List Touch :=
  match sid with
  | none => (.respError .missingCookie,s,[])
  | some sid => (.disconnected,s.drop sid,
      (s.m.get sid).toList.map fun old => ⟨.destroys,old.user⟩)

def emsNotificationWait (R : RopLayer ρ) (s : SessionStore ρ) (c : HttpCaller)
    (sid : Option String) (polls : Nat) : HttpReply×SessionStore ρ×List Touch :=
  match sid with
  | none => (.respError .missingCookie,s,[])
  | some sid =>
    match s.lookup sid c.user c.now with
    | none => (.respError .invalidCtxCookie,s,[])
    | some (ctx,s) =>
      let (pending,rop) := waitForNotification R polls ctx.ropSess
      let s := s.update ctx.sid (fun c => {c with ropSess:=rop}) fun _ => rfl
      (.notified (if pending then flagNotificationPending else 0),s,[⟨.waits,ctx.user⟩])

def emsDispatch (R : RopLayer ρ) (s : SessionStore ρ) (c : HttpCaller) :
    HttpRequest → HttpReply×SessionStore ρ×List Touch
  | .connect body sid sequence => emsConnect R s c body sid sequence
  | .execute sid seq body newSeq => emsExecute R s c sid seq body newSeq
  | .disconnect sid => emsDisconnect s sid
  | .notificationWait sid polls => emsNotificationWait R s c sid polls

end Endpoint
end HermEX.Mapihttp
