import HermEX.Framework.ListView
import HermEX.Objectstore.Uids

namespace HermEX.Imap

open Framework Mapi Objectstore

def seqStar : Nat := 2^32-1

structure SeqRange where
  lo : Nat
  hi : Nat

abbrev SeqSet := List SeqRange

def SeqRange.resolve (r : SeqRange) (max : Nat) : Nat×Nat :=
  (if r.lo=seqStar then max else r.lo,if r.hi=seqStar then max else r.hi)

def SeqSet.contains (ss : SeqSet) (n max : Nat) : Bool :=
  ss.any fun r =>
    let (lo,hi) := r.resolve max
    let (lo,hi) := if lo>hi then (hi,lo) else (lo,hi)
    decide (n≥lo ∧ n≤hi)

structure MessageInfo where
  uid : Nat
  flags : Flags

def loadMailbox (s : Store) (fid : Nat) : Except StoreErr (List MessageInfo)×Store :=
  let msgs := (s.listMessages fid).map fun r => ⟨r.uid,r.flags⟩
  match s.idxdb.ensureIndexFolder s.objdb fid with
  | .error e => (.error e,s)
  | .ok idx => (.ok msgs,{s with idxdb:=idx})

def maxSeq (msgs : List MessageInfo) : Nat := msgs.length

def maxUID (msgs : List MessageInfo) : Nat := (msgs.getLast?.map MessageInfo.uid).getD 0

/-- The untagged responses on the message list. -/
inductive Response where
  | exists_ (n : Nat)
  | recent (n : Nat)
  | expunge (seq : Nat)
  | vanished (uids : List Nat)

/-- A loop of soft deletions; `rest` is still to be looked at. -/
structure Expunging where
  picks : MessageInfo → Bool
  silent : Bool
  rest : List MessageInfo
  survivors : List MessageInfo
  vanished : List Nat

/-- Where a command stands between two store calls. -/
inductive Phase where
  | idle
  | copying (destFID : Option Nat) (raw : Option MessageHead) (rest : List MessageInfo)
      (srcUIDs : List Nat)
  | expunging (e : Expunging)

structure Conn where
  id : Nat
  msgs : List MessageInfo
  qresync : Bool
  readOnly : Bool
  phase : Phase

namespace Conn

def poll (c : Conn) (s : Store) : List Response×Conn×Store :=
  match loadMailbox s c.id with
  | (.error _,s) => ([],c,s)
  | (.ok fresh,s) =>
    let live (m : MessageInfo) := decide (m.uid∈fresh.map MessageInfo.uid)
    let gone := (dropPositions live c.msgs 0).map Response.expunge
    let view := c.msgs.filter live
    let grown := if fresh.length≠view.length then [.exists_ (maxSeq fresh),.recent 0] else []
    (gone++grown,{c with msgs:=fresh},s)

def doExpunge (c : Conn) : Conn :=
  {c with phase:=.expunging ⟨fun m => .deleted∈m.flags,c.qresync,c.msgs,[],[]⟩}

def expungeDeleted (c : Conn) (set : SeqSet) : Conn :=
  let max := maxUID c.msgs
  let picks (m : MessageInfo) := decide (.deleted∈m.flags) && set.contains m.uid max
  {c with phase:=.expunging ⟨picks,c.qresync,c.msgs,[],[]⟩}

def expungeMoved (c : Conn) (srcUIDs : List Nat) : Conn :=
  {c with phase:=.expunging ⟨fun m => m.uid∈srcUIDs,false,c.msgs,[],[]⟩}

def copyToDest (c : Conn) (byUID : Bool) (set : SeqSet) (destFID : Option Nat) : Conn :=
  let max := if byUID then maxUID c.msgs else maxSeq c.msgs
  let named := (c.msgs.zipIdx 1).filter fun (m,seq) =>
    set.contains (if byUID then m.uid else seq) max
  {c with phase:=.copying destFID none (named.map Prod.fst) []}

def expungeNext (c : Conn) (e : Expunging) (s : Store) : List Response×Conn×Store :=
  match e.rest with
  | [] =>
    (if e.silent ∧ e.vanished≠[] then [.vanished e.vanished] else [],
      {c with msgs:=e.survivors,phase:=.idle},s)
  | m::rest =>
    if e.picks m then
      match s.softDeleteMessage c.id m.uid with
      | (.ok (),s) =>
        let e' := {e with rest:=rest,vanished:=e.vanished++[m.uid]}
        (if e.silent then [] else [.expunge (e.survivors.length+1)],
          {c with phase:=.expunging e'},s)
      | (.error _,s) => ([],{c with phase:=.expunging {e with rest:=rest}},s)
    else
      let e' := {e with rest:=rest,survivors:=e.survivors++[m]}
      ([],{c with phase:=.expunging e'},s)

def copyNext (c : Conn) (destFID : Option Nat) (fetched : Option MessageHead)
    (rest : List MessageInfo) (srcUIDs : List Nat) (raw : Except StoreErr MessageHead)
    (s : Store) : Conn×Store :=
  match rest,fetched with
  | [],_ => if srcUIDs=[] then ({c with phase:=.idle},s) else (c.expungeMoved srcUIDs,s)
  | m::rest,none =>
    match s.idxdb.byUID c.id m.uid,raw with
    | some _,.ok msg => ({c with phase:=.copying destFID (some msg) (m::rest) srcUIDs},s)
    | _,_ => ({c with phase:=.idle},s)
  | m::rest,some msg =>
    match destFID with
    | none => match raw with
      | .ok _ => ({c with phase:=.copying none none rest (srcUIDs++[m.uid])},s)
      | .error _ => ({c with phase:=.idle},s)
    | some fid => match s.appendMessage fid msg m.flags with
      | (.ok _,s) => ({c with phase:=.copying (some fid) none rest (srcUIDs++[m.uid])},s)
      | (.error _,s) => ({c with phase:=.idle},s)

end Conn

/-- A session, the store it shares, and its client's UIDs. -/
structure SessionWorld where
  conn : Conn
  store : Store
  client : List Nat

def receive (fetch : List Nat) (view : List Nat) : Response → List Nat
  | .exists_ n => view++(fetch.take n).drop view.length
  | .recent _ => view
  | .expunge seq => removeAt view seq
  | .vanished uids => view.filter fun u => u∉uids

inductive SessionStep where
  | poll
  | expunge
  | uidExpunge (set : SeqSet)
  | move (byUID : Bool) (set : SeqSet) (destFID : Option Nat)
  | next (raw : Except StoreErr MessageHead)
  | other (a : IndexStep)

namespace SessionWorld

def deliver (w : SessionWorld) (out : List Response×Conn×Store) : SessionWorld :=
  ⟨out.2.1,out.2.2,out.1.foldl (receive (out.2.1.msgs.map MessageInfo.uid)) w.client⟩

def step (w : SessionWorld) : SessionStep → SessionWorld
  | .other a => {w with store:=w.store.indexStep a}
  | .next raw => match w.conn.phase with
    | .idle => w
    | .copying destFID fetched rest srcUIDs =>
      let (c,s) := w.conn.copyNext destFID fetched rest srcUIDs raw w.store
      {w with conn:=c,store:=s}
    | .expunging e => w.deliver (w.conn.expungeNext e w.store)
  | .poll => match w.conn.phase with
    | .idle => w.deliver (w.conn.poll w.store)
    | _ => w
  | .expunge => match w.conn.phase,w.conn.readOnly with
    | .idle,false => {w with conn:=w.conn.doExpunge}
    | _,_ => w
  | .uidExpunge set => match w.conn.phase,w.conn.readOnly with
    | .idle,false => {w with conn:=w.conn.expungeDeleted set}
    | _,_ => w
  | .move byUID set destFID => match w.conn.phase,w.conn.readOnly with
    | .idle,false => {w with conn:=w.conn.copyToDest byUID set destFID}
    | _,_ => w

def select (s : Store) (fid : Nat) (qresync readOnly : Bool) : Option SessionWorld :=
  match loadMailbox s fid with
  | (.error _,_) => none
  | (.ok msgs,s) => some ⟨⟨fid,msgs,qresync,readOnly,.idle⟩,s,
      receive (msgs.map MessageInfo.uid) [] (.exists_ (maxSeq msgs))⟩

end SessionWorld
end HermEX.Imap
