import HermEX.Framework.Text

namespace HermEX.Directory

open Framework

abbrev Address := Bytes

abbrev Path := Bytes

inductive ForwardType where
  | cc
  | redirect
deriving DecidableEq

structure ForwardInfo where
  type : ForwardType
  destination : Address
deriving DecidableEq

inductive MListResult where
  | ok
  | none
  | privilDomain
  | privilInternal
  | privilSpecified

inductive DirErr where
  | unavailable
deriving DecidableEq

/-- Grants, quotas in KiB (0 is unlimited), size. -/
structure MailboxInfo where
  sendAs : Except DirErr (List Address)
  sendOnBehalf : Except DirErr (List Address)
  receiveKB : Except DirErr Nat
  sendKB : Except DirErr Nat
  size : Except DirErr Nat

/-- `directory.Accounts`; `none` is a capability it lacks. -/
structure Accounts where
  resolve : Address → Option Path
  resolveCatchAll : Option (Address → Option Path)
  authenticate : Option (Address → Bytes → Option Path)
  smtpPrivilege : Address → Bool
  identities : Option (Address → Except DirErr (List Address))
  isLocalDomain : Option (Bytes → Except DirErr Bool)
  splitRelayHost : Option (Bytes → Except DirErr Bytes)
  getForward : Option (Address → Except DirErr (Option ForwardInfo))
  expandMList : Option (Address → Address → Except DirErr (List Address×MListResult))
  openStore : Path → Option MailboxInfo

end HermEX.Directory

namespace HermEX.Sendas

open Framework Directory

inductive Grant where
  | none
  | own
  | sendAs
  | onBehalf
deriving DecidableEq

section Sendas

variable (T : Strings)

def containsFold (list : List Address) (want : Address) : Bool :=
  list.any fun a => T.toLower (T.trimSpace a)=want

def grants (list ids : List Address) : Bool :=
  list.any fun g => containsFold T ids (T.toLower (T.trimSpace g))

def identities (accounts : Accounts) (caller : Address) : List Address :=
  match accounts.identities with
  | none => [caller]
  | some id =>
    match id caller with
    | .ok (a::as) => a::as
    | _ => [caller]

def grantOf (accounts : Accounts) (want : Address) (ids : List Address) : Grant :=
  match (accounts.resolve want).bind accounts.openStore with
  | none => .none
  | some st =>
    if grants T (st.sendAs.toOption.getD []) ids then .sendAs
    else if grants T (st.sendOnBehalf.toOption.getD []) ids then .onBehalf
    else .none

def resolve (accounts : Accounts) (caller want : Address) : Address×Address×Grant :=
  let want := T.toLower (T.trimSpace want)
  if want=[] || T.equalFold want caller then (caller,caller,.own)
  else
    let ids := identities accounts caller
    if containsFold T ids want then (want,want,.own)
    else match grantOf T accounts want ids with
      | .sendAs => (want,want,.sendAs)
      | .onBehalf => (want,caller,.onBehalf)
      | _ => ([],[],.none)

def allows (accounts : Accounts) (caller want : Address) : Bool :=
  T.trimSpace want≠[] && (resolve T accounts caller want).2.2 ≠ .none

end Sendas
end HermEX.Sendas
