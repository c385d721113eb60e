import HermEX.Framework.Table
import HermEX.Ndr.Pull

namespace HermEX.Rpchttp

open Framework Mapi Ndr

/-- An attributes word and the GUID that keys the session. -/
structure ContextHandle where
  handleType : UInt32
  guid : GUID

def pullCtxHandle : PullM ContextHandle := do
  let handleType ← Pull.uint32
  let guid ← Pull.guid
  return ⟨handleType,guid⟩

structure Locale where
  codePage : UInt32
  lcidString : UInt32
  lcidSort : UInt32

def pullUserDN : PullM Bytes := do
  let size ← Pull.uint32
  let offset ← Pull.uint32
  let length ← Pull.uint32
  if offset≠0 ∨ length>size ∨ length>1024 then throw .format
  let dn ← Pull.raw length.toNat
  return dn.takeWhile (·≠0)

def skipUint32 : Nat → PullM Unit
  | 0 => return
  | n+1 => do
      let _ ← Pull.uint32
      skipUint32 n

def pullConnectExScalars : PullM Locale := do
  let _flags ← Pull.uint32
  skipUint32 2
  let cpid ← Pull.uint32
  let lcidString ← Pull.uint32
  let lcidSort ← Pull.uint32
  skipUint32 1
  let _cnvtCps ← Pull.uint16
  let _vers0 ← Pull.uint16
  let _vers1 ← Pull.uint16
  let _vers2 ← Pull.uint16
  let _timestamp ← Pull.uint32
  return ⟨cpid,lcidString,lcidSort⟩

def skipAuxIn : PullM Unit := do
  let auxSize ← Pull.uint32
  let _ ← Pull.raw auxSize.toNat

def pullConnectEx (stub : Bytes) : Except NdrErr Locale :=
  runPull (do
    let _dn ← pullUserDN
    let locale ← pullConnectExScalars
    skipAuxIn
    return locale) stub

structure RpcExt2In where
  cxh : ContextHandle
  flags : UInt32
  pin : Bytes
  cbOut : UInt32

def pullRpcExt2 (stub : Bytes) : Except NdrErr RpcExt2In :=
  runPull (do
    let cxh ← pullCtxHandle
    let flags ← Pull.uint32
    let size ← Pull.uint32
    let pin ← Pull.raw size.toNat
    let cbIn ← Pull.uint32
    if cbIn≠size then throw .format
    let cbOut ← Pull.uint32
    skipAuxIn
    return ⟨cxh,flags,pin,cbOut⟩) stub

def pullAsyncWaitEx (stub : Bytes) : Except NdrErr ContextHandle :=
  runPull (do
    let acxh ← pullCtxHandle
    let _flagsIn ← Pull.uint32
    return acxh) stub

/-- A session of the ROP processor and the calls on it. -/
structure RopLayer (ρ : Type) where
  newSession : (mailbox user : String) → Locale → ρ
  decodeExecute : Bytes → Option (Bytes×List UInt32)
  dispatch : ρ → Bytes → List UInt32 → (Bytes×List UInt32)×ρ
  encodeExecute : Bytes → List UInt32 → Bytes
  pollForChange : ρ → Bool×ρ

def maxROPBuffer : Nat := 0x8000

def ropBufferSize (rops : Bytes) (handles : List UInt32) : Nat := 2+rops.length+4*handles.length

/-- `user` connected. -/
structure EmsmdbSession (ρ : Type) where
  guid : GUID
  user : String
  mailbox : String
  cpid : UInt32
  rop : ρ
  waiting : Bool
  lastSeen : Nat

structure EMSMDB (ρ : Type) where
  sessions : Table fun s : EmsmdbSession ρ => s.guid
  seq : UInt32

def EMSMDB.new (ρ : Type) : EMSMDB ρ := ⟨.empty,0⟩

/-- Who authenticated, if there is an OUT channel, and the time. -/
structure Caller where
  user : String
  mailbox : String
  vc : Bool
  now : Nat

inductive Fault where
  | opRngError
  | contextMismatch
  | ndr
  | parked

inductive Reply where
  | connected (cxh : ContextHandle) (displayName : String)
  | executed (cxh : ContextHandle) (pout : Bytes) (result : UInt32)
  | asyncHandle (acxh : ContextHandle)
  | waited (flagsOut result : UInt32)
  | disconnected
  | fault (f : Fault)

inductive Use where
  | runs
  | waits
  | destroys
deriving DecidableEq

structure Touch where
  use : Use
  owner : String
deriving DecidableEq

def ecSuccess : UInt32 := 0
def ecResponseTooBig : UInt32 := 0x47D
def ecRejected : UInt32 := 0x7EE
def flagNotificationPending : UInt32 := 1
def asyncHandleType : UInt32 := 3

namespace EMSMDB

variable {ρ : Type}

def updateSession (e : EMSMDB ρ) (g : GUID) (f : EmsmdbSession ρ → EmsmdbSession ρ)
    (hf : ∀ s,(f s).guid=s.guid) : EMSMDB ρ :=
  {e with sessions:=e.sessions.updateWhere (fun s => s.guid=g) f hf}

def lookup (e : EMSMDB ρ) (g : GUID) (now : Nat) : Option (EmsmdbSession ρ)×EMSMDB ρ :=
  (e.sessions.get g,e.updateSession g (fun s => {s with lastSeen:=now}) fun _ => rfl)

def mintHandle (e : EMSMDB ρ) : ContextHandle×EMSMDB ρ :=
  let n := e.seq+1
  (⟨0,⟨n,0,0,#v[0x68,0x65,0x72,0x6D,0x65,0x78,0,0]⟩⟩,{e with seq:=n})

def connectEx (R : RopLayer ρ) (e : EMSMDB ρ) (c : Caller) (stub : Bytes) :
    Reply×EMSMDB ρ×List Touch :=
  match pullConnectEx stub with
  | .error _ => (.fault .ndr,e,[])
  | .ok locale =>
    let (cxh,e) := e.mintHandle
    let old := (e.sessions.get cxh.guid).toList.map fun s => ⟨.destroys,s.user⟩
    let s := ⟨cxh.guid,c.user,c.mailbox,locale.codePage,R.newSession c.mailbox c.user locale,
      false,c.now⟩
    (.connected cxh c.user,{e with sessions:=e.sessions.put s},old)

def rpcExt2 (R : RopLayer ρ) (e : EMSMDB ρ) (c : Caller) (stub : Bytes) :
    Reply×EMSMDB ρ×List Touch :=
  match pullRpcExt2 stub with
  | .error _ => (.fault .ndr,e,[])
  | .ok r =>
    match e.lookup r.cxh.guid c.now with
    | (none,e) => (.fault .contextMismatch,e,[])
    | (some s,e) =>
      if r.pin=[] then (.executed r.cxh (R.encodeExecute [] []) ecSuccess,e,[])
      else match R.decodeExecute r.pin with
        | none => (.fault .ndr,e,[])
        | some (rops,handles) =>
          let ((rops,handles),rop) := R.dispatch s.rop rops handles
          let e := e.updateSession s.guid (fun s => {s with rop:=rop}) fun _ => rfl
          let size := ropBufferSize rops handles
          let reply := if size>maxROPBuffer ∨ size+8>r.cbOut.toNat then
              .executed r.cxh [] ecResponseTooBig
            else .executed r.cxh (R.encodeExecute rops handles) ecSuccess
          (reply,e,[⟨.runs,s.user⟩])

def asyncConnectEx (e : EMSMDB ρ) (c : Caller) (stub : Bytes) : Reply×EMSMDB ρ×List Touch :=
  match runPull pullCtxHandle stub with
  | .error _ => (.fault .ndr,e,[])
  | .ok cxh =>
    match e.lookup cxh.guid c.now with
    | (none,e) => (.fault .contextMismatch,e,[])
    | (some _,e) => (.asyncHandle ⟨asyncHandleType,cxh.guid⟩,e,[])

def disconnect (e : EMSMDB ρ) (stub : Bytes) : Reply×EMSMDB ρ×List Touch :=
  match runPull pullCtxHandle stub with
  | .error _ => (.fault .ndr,e,[])
  | .ok h =>
    (.disconnected,{e with sessions:=e.sessions.deleteWhere fun s => s.guid=h.guid},
      (e.sessions.get h.guid).toList.map fun s => ⟨.destroys,s.user⟩)

def handle (R : RopLayer ρ) (e : EMSMDB ρ) (c : Caller) (opnum : UInt16) (stub : Bytes) :
    Reply×EMSMDB ρ×List Touch :=
  if opnum=10 then e.connectEx R c stub
  else if opnum=11 then e.rpcExt2 R c stub
  else if opnum=14 then e.asyncConnectEx c stub
  else if opnum=1 then e.disconnect stub
  else (.fault .opRngError,e,[])

def asyncWaitEx (R : RopLayer ρ) (e : EMSMDB ρ) (c : Caller) (stub : Bytes) :
    Reply×EMSMDB ρ×List Touch :=
  match pullAsyncWaitEx stub with
  | .error _ => (.fault .ndr,e,[])
  | .ok acxh =>
    match e.lookup acxh.guid c.now with
    | (none,e) => (.waited 0 ecRejected,e,[])
    | (some s,e) =>
      if s.user≠c.user then (.waited 0 ecRejected,e,[])
      else
        let (pending,rop) := R.pollForChange s.rop
        let e := e.updateSession s.guid (fun s => {s with rop:=rop}) fun _ => rfl
        let touched := [⟨.waits,s.user⟩]
        if pending then (.waited flagNotificationPending ecSuccess,e,touched)
        else if ¬c.vc ∨ s.waiting then (.waited 0 ecSuccess,e,touched)
        else (.fault .parked,
          e.updateSession s.guid (fun s => {s with waiting:=true}) fun _ => rfl,touched)

def asyncHandle (R : RopLayer ρ) (e : EMSMDB ρ) (c : Caller) (opnum : UInt16) (stub : Bytes) :
    Reply×EMSMDB ρ×List Touch :=
  if opnum=0 then e.asyncWaitEx R c stub else (.fault .opRngError,e,[])

def pollParked (R : RopLayer ρ) (e : EMSMDB ρ) (g : GUID) (ends : Bool) : EMSMDB ρ :=
  e.updateSession g (fun s => if s.waiting then
    {s with rop:=(R.pollForChange s.rop).2,waiting:=!ends} else s) fun s => by split <;> rfl

def sweep (e : EMSMDB ρ) (now ttl : Nat) : EMSMDB ρ :=
  {e with sessions:=e.sessions.deleteWhere fun s => now-s.lastSeen≥ttl}

end EMSMDB
end HermEX.Rpchttp
