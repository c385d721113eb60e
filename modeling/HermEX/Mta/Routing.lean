import HermEX.Directory.Accounts

namespace HermEX.Mta

open Framework Directory

section Routing

variable (T : Strings)

def isExternalDomain (accounts : Accounts) (rcpt : Address) : Except DirErr Bool :=
  match accounts.isLocalDomain with
  | none => .ok false
  | some isLocalDomain =>
    match cutLast 0x40 rcpt with
    | none => .ok false
    | some (_,[]) => .ok false
    | some (_,domain) => (isLocalDomain domain).map fun l => !l

def isRelayable (accounts : Accounts) (rcpt : Address) : Except DirErr Bool :=
  match isExternalDomain accounts rcpt with
  | .error e => .error e
  | .ok true => .ok true
  | .ok false =>
    match accounts.splitRelayHost,cutLast 0x40 rcpt with
    | some splitRelayHost,some (user,domain) =>
      if user=[] || T.equalFold user (lit "postmaster") then .ok false
      else (splitRelayHost domain).map fun host => host≠[]
    | _,_ => .ok false

def overQuota (limit size : Except DirErr Nat) : Bool :=
  match limit,size with
  | .ok kb,.ok size => kb≠0 && kb*1024 < size
  | _,_ => false

def overReceiveQuota (accounts : Accounts) (path : Path) : Bool :=
  match accounts.openStore path with
  | none => false
  | some st => overQuota st.receiveKB st.size

def overSendQuota (accounts : Accounts) (sender : Address) : Bool :=
  match (accounts.resolve sender).bind accounts.openStore with
  | none => false
  | some st => overQuota st.sendKB st.size

def maxListDepth : Nat := 20

def collectListMembers (expand : Address → Address → Except DirErr (List Address×MListResult))
    (sender : Address) : Nat → List Address → List Bytes×List Address → List Bytes×List Address
  | 0,addrs,st =>
    addrs.foldl (fun st m =>
      let key := T.toLower (T.trimSpace m)
      if key=[] || key∈st.1 then st else (key::st.1,st.2++[m])) st
  | k+1,addrs,st =>
    addrs.foldl (fun st m =>
      let key := T.toLower (T.trimSpace m)
      if key=[] || key∈st.1 then st
      else match expand m sender with
        | .error _ => (key::st.1,st.2++[m])
        | .ok (_,.none) => (key::st.1,st.2++[m])
        | .ok (sub,.ok) => collectListMembers expand sender k sub (key::st.1,st.2)
        | .ok _ => (key::st.1,st.2)) st

inductive ListExpansion where
  | notList
  | refused
  | members (leaves : List Address)

def expandMailingList (expand : Address → Address → Except DirErr (List Address×MListResult))
    (sender rcpt : Address) : Except DirErr ListExpansion :=
  match expand rcpt sender with
  | .error e => .error e
  | .ok (_,.none) => .ok .notList
  | .ok (members,.ok) =>
    .ok (.members (collectListMembers T expand sender (maxListDepth-1) members
      ([T.toLower (T.trimSpace rcpt)],[])).2)
  | .ok _ => .ok .refused

end Routing
end HermEX.Mta
