import HermEX.Framework.Scripts
import HermEX.Relay.Spool

namespace HermEX.Relay

open Framework

/-- With the reply code of an SMTP rejection. -/
structure Err where
  code : Option Nat
  text : Bytes

/-- The retry policy and if the hook is set; in nanoseconds. -/
structure Worker where
  backoff : Int
  maxAttempts : Int
  batch : Int
  backoffOverride : Int
  maxAttemptsOverride : Int
  onGiveUp : Bool

def second : Int := 1000000000

def defaultBatch : Int := 64
def defaultBackoff : Int := 5*60*second
def defaultMaxAttempts : Int := 10
def maxBackoff : Int := 6*3600*second
def bounceRetryBackoff : Int := maxBackoff

def unix (t : Int) : Int := t/second

def isPermanent (e : Err) : Bool := e.code.any fun c => 500 ≤ c && c<600

namespace Worker

def attemptsAllowed (w : Worker) : Int :=
  if 0<w.maxAttemptsOverride then w.maxAttemptsOverride
  else if 0<w.maxAttempts then w.maxAttempts else defaultMaxAttempts

def retryDelay (w : Worker) (attempts : Nat) : Int :=
  let base := if 0<w.backoffOverride then w.backoffOverride else w.backoff
  let base := if 0<base then base else defaultBackoff
  let d := (base*2^attempts).bmod (2^64)
  if d≤0 ∨ maxBackoff<d then maxBackoff else d

def batchSize (w : Worker) : Nat := (if 0<w.batch then w.batch else defaultBatch).toNat

end Worker

inductive Query where
  | unsettled
  | claim (now : Int) (limit : Nat)

inductive Write where
  | markStarted (id : Nat) (now : Int)
  | clearStarted (id : Nat)
  | markDelivered (id : Nat)
  | sent (id : Nat)
  | fail (id : Nat)
  | retry (id : Nat) (nextAttempt : Int) (lastErr : Bytes)

/-- The SMTP session and the hook that tells the sender. -/
inductive Call where
  | deliver (it : Item)
  | onGiveUp (it : Item) (cause : Err)

/-- What others do to the spool meanwhile. -/
inductive Other where
  | enqueueDSN (from_ ret envid : Bytes) (recipients : List DSNRecipient) (body : Bytes) (now : Int)
  | retryNow (id : Nat) (when_ : Int)
  | delete (id : Nat)

def Query.rows : Query → World → List Item
  | .unsettled,w => w.unsettled
  | .claim now limit,w => w.claim now limit

def Write.apply : Write → World → World
  | .markStarted id now => .markStarted id now
  | .clearStarted id => .clearStarted id
  | .markDelivered id => .markDelivered id
  | .sent id => .sent id
  | .fail id => .fail id
  | .retry id nextAttempt lastErr => .retry id nextAttempt lastErr

def Call.answered : Call → Option Err → World → World
  | .deliver it,none,w => {w with accepted:=w.accepted++[it.serial]}
  | .onGiveUp it _,none,w => {w with told:=w.told++[it.serial]}
  | _,some _,w => w

def Other.apply : Other → World → World
  | .enqueueDSN from_ ret envid recipients body now =>
    .enqueueDSN from_ ret envid recipients body now
  | .retryNow id when_ => .retryNow id when_
  | .delete id => .delete id

abbrev setting : Setting where
  State := World
  Query := Query
  Row := Item
  Write := Write
  Call := Call
  Answer := Option Err
  Other := Other
  rows := Query.rows
  write := Write.apply
  answer := Call.answered
  other := Other.apply

abbrev Pass : Type := Script setting

def errInterruptedDelivery : Err :=
  ⟨none,lit "delivery was interrupted and its outcome is unknown; " ++
    lit "it was not sent again, to avoid delivering the message twice"⟩

variable (w : Worker) (it : Item)

def giveUp (cause : Err) (k : Option Err → Pass) : Pass :=
  if w.onGiveUp then .call (.onGiveUp it cause) k else k none

def settleGiveUp (now : Int) (e : Err) (k : Pass) : Pass :=
  giveUp w it e fun
    | none => .write (.fail it.recipientID) k
    | some be => .write (.retry it.recipientID (unix (now+bounceRetryBackoff))
        (lit "bounce undeliverable: " ++ be.text)) k

def settleFailure (now : Int) (e : Err) (k : Pass) : Pass :=
  if isPermanent e ∨ w.attemptsAllowed ≤ it.attempts+1 then settleGiveUp w it now e k
  else .write (.retry it.recipientID (unix (now+w.retryDelay it.attempts)) e.text) k

def settleDelivered (k : Pass) : Pass :=
  .write (.markDelivered it.recipientID) (.write (.sent it.recipientID) k)

def attempt (now : Int) (it : Item) (k : Pass) : Pass :=
  .write (.markStarted it.recipientID (unix now)) (.call (.deliver it) fun
    | none => settleDelivered it k
    | some e => .write (.clearStarted it.recipientID) (settleFailure w it now e k))

def resolve (now : Int) (it : Item) (k : Pass) : Pass :=
  if it.delivered then .write (.sent it.recipientID) k
  else giveUp w it errInterruptedDelivery fun
    | none => .write (.fail it.recipientID) k
    | some be => .write (.clearStarted it.recipientID)
        (.write (.retry it.recipientID (unix (now+bounceRetryBackoff))
          (lit "interrupted delivery, bounce undeliverable: " ++ be.text)) k)

def resolveUnsettled (now : Int) (k : Pass) : Pass :=
  .read .unsettled fun items => items.foldr (resolve w now) k

def processDue (now : Int) : Pass :=
  resolveUnsettled w now (.read (.claim (unix now) w.batchSize) fun items =>
    items.foldr (attempt w now) .done)

abbrev Drainer : Type := Running setting

abbrev Step : Type := Turn setting (Worker×Int)

def drain : Drainer → Step → Drainer := Running.step fun i => processDue i.1 i.2

def Drainer.empty : Drainer := ⟨.empty,.done⟩

end HermEX.Relay
