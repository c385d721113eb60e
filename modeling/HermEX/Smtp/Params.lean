import HermEX.Framework.Text

namespace HermEX.Smtp

open Framework

/-- Of RFC 3461; empty means that there was none. -/
structure MailParams where
  ret : Bytes
  envid : Bytes

structure RcptParams where
  notify : Bytes
  orcpt : Bytes

/-- A deferral, a rejection, an over-size body, or anything else. -/
inductive SessionErr where
  | temp (message : Bytes)
  | perm (message : Bytes)
  | tooLarge
  | internal

section Params

variable (T : Strings)

def extractPath (arg pre : Bytes) : Option Bytes :=
  let arg := T.trimSpace arg
  if arg.length<pre.length || !T.equalFold (arg.take pre.length) pre then none
  else match T.trimSpace (arg.drop pre.length) with
    | 0x3C::rest => (cut 0x3E rest).map Prod.fst
    | _ => none

def needsUTF8Keyword (addr : Bytes) (negotiated : Bool) : Bool :=
  !negotiated && addr.any fun b => 0x7F<b

def paramFields (arg : Bytes) : List (Bytes×Bytes) :=
  match cut 0x3E arg with
  | none => []
  | some (_,after) => (T.fields after).map fun f => (cut 0x3D f).getD (f,[])

def esmtpParams (arg : Bytes) : List (Bytes×Bytes) :=
  (paramFields T arg).map fun f => (T.toUpper f.1,f.2)

def param (params : List (Bytes×Bytes)) (key : String) : Option Bytes :=
  params.reverse.lookup (lit key)

def declaredSize (params : List (Bytes×Bytes)) : Option Int :=
  ((param params "SIZE").bind parseInt).filter fun n => 0≤n

def mtPriorityValid (arg : Bytes) : Bool×Bool :=
  match (paramFields T arg).filter fun f => T.equalFold f.1 (lit "MT-PRIORITY") with
  | [] => (false,true)
  | [(_,raw)] =>
    match parseInt raw with
    | none => (true,false)
    | some n => (true,-9≤n && n≤9)
  | _ => (true,false)

def validRET (up : Bytes) : Bool := up=lit "FULL" || up=lit "HDRS"

def isHexUpper (c : UInt8) : Bool := (0x30 ≤ c && c≤0x39) || (0x41 ≤ c && c≤0x46)

def validXtext : Bytes → Bool
  | [] => true
  | 0x2B::a::b::s => isHexUpper a && isHexUpper b && validXtext s
  | c::s => (c≠0x2B && 0x21 ≤ c && c≤0x7E && c≠0x3D) && validXtext s

def validEnvID (v : Bytes) : Bool := v.length≤100 && validXtext v

/-- Names, checks and the values recorded. -/
structure DsnPair where
  first : String
  second : String
  check : Bytes → Option Bytes
  check' : Bytes → Option Bytes

def DsnPair.parse (P : DsnPair) (arg : Bytes) : Option (Bytes×Bytes) :=
  let step (st : (Nat×Bytes)×(Nat×Bytes)) (f : Bytes×Bytes) :
      Option ((Nat×Bytes)×(Nat×Bytes)) :=
    if T.toUpper f.1=lit P.first then (P.check f.2).map fun v => ((st.1.1+1,v),st.2)
    else if T.toUpper f.1=lit P.second then (P.check' f.2).map fun v => (st.1,(st.2.1+1,v))
    else some st
  match (paramFields T arg).foldlM step ((0,[]),(0,[])) with
  | none => none
  | some ((n,v),(n',v')) => if n > 1 || n' > 1 then none else some (v,v')

def dsnMailParams (arg : Bytes) : Option MailParams :=
  let ret (v : Bytes) := if validRET (T.toUpper v) then some (T.toUpper v) else none
  let envid (v : Bytes) := if validEnvID v then some v else none
  (DsnPair.parse T ⟨"RET","ENVID",ret,envid⟩ arg).map fun p => ⟨p.1,p.2⟩

def validNotify (v : Bytes) : Bool :=
  if v=[] then false
  else if T.equalFold v (lit "NEVER") then true
  else (split 0x2C v).all fun e =>
    T.toUpper e=lit "SUCCESS" || T.toUpper e=lit "FAILURE" || T.toUpper e=lit "DELAY"

def isAtom (s : Bytes) : Bool :=
  s≠[] && s.all fun c => 0x20 < c && c<0x7F && c∉lit "()<>@,;:\\\"/[]?="

def validORCPT (v : Bytes) : Bool :=
  match cut 0x3B v with
  | none => false
  | some (atype,xt) => isAtom atype && validXtext xt

def dsnRcptParams (arg : Bytes) : Option RcptParams :=
  let notify (v : Bytes) := if validNotify T v then some v else none
  let orcpt (v : Bytes) := if v.length≤500 && validORCPT v then some v else none
  (DsnPair.parse T ⟨"NOTIFY","ORCPT",notify,orcpt⟩ arg).map fun p => ⟨p.1,p.2⟩

def parseBDAT (arg : Bytes) : Option (Nat×Bool) :=
  let size (f : Bytes) : Option Nat := ((parseInt f).filter fun n => 0≤n).map Int.toNat
  match T.fields arg with
  | [f] => (size f).map fun n => (n,false)
  | [f,l] => (size f).bind fun n => if T.equalFold l (lit "LAST") then some (n,true) else none
  | _ => none

end Params

def base64Digit (b : UInt8) : Option Nat :=
  if 0x41≤b ∧ b≤0x5A then some (b.toNat-0x41)
  else if 0x61≤b ∧ b≤0x7A then some (b.toNat-0x61+26)
  else if 0x30≤b ∧ b≤0x39 then some (b.toNat-0x30+52)
  else if b=0x2B then some 62
  else if b=0x2F then some 63
  else none

def base64Quanta : Bytes → Option Bytes
  | [] => some []
  | [a,b,0x3D,0x3D] => do
      let a ← base64Digit a
      let b ← base64Digit b
      return [UInt8.ofNat (a*4+b/16)]
  | [a,b,c,0x3D] => do
      let a ← base64Digit a
      let b ← base64Digit b
      let c ← base64Digit c
      return [UInt8.ofNat (a*4+b/16),UInt8.ofNat (b*16+c/4)]
  | a::b::c::d::s => do
      let a ← base64Digit a
      let b ← base64Digit b
      let c ← base64Digit c
      let d ← base64Digit d
      let rest ← base64Quanta s
      return UInt8.ofNat (a*4+b/16)::UInt8.ofNat (b*16+c/4)::UInt8.ofNat (c*64+d)::rest
  | _ => none

def base64Decode (s : Bytes) : Option Bytes := base64Quanta (s.filter fun b => b≠0x0D && b≠0x0A)

example : base64Decode (lit "AHVzZXIAcHc=") = some [0,0x75,0x73,0x65,0x72,0,0x70,0x77] := by decide

end HermEX.Smtp
