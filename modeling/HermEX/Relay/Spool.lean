import HermEX.Framework.Table
import HermEX.Framework.Text
import Mathlib.Data.List.Sort

namespace HermEX.Relay

open Framework

/-- Its body is there once for all recipients. -/
structure Message where
  id : Nat
  envelopeFrom : Bytes
  body : Bytes
  enqueuedAt : Int
  ret : Bytes
  envid : Bytes

/-- The serial is no column: it tells rows of one id apart. -/
structure Recipient where
  id : Nat
  messageId : Nat
  recipient : Bytes
  attempts : Nat
  nextAttempt : Int
  lastError : Bytes
  notify : Bytes
  orcpt : Bytes
  deliveryStarted : Int
  delivered : Bool
  serial : Nat

structure DSNRecipient where
  addr : Bytes
  notify : Bytes
  orcpt : Bytes

structure Item where
  recipientID : Nat
  envelopeFrom : Bytes
  recipient : Bytes
  body : Bytes
  attempts : Nat
  notify : Bytes
  delivered : Bool
  serial : Nat

structure Enqueued where
  envelopeFrom : Bytes
  recipient : Bytes
  body : Bytes
deriving DecidableEq

/-- The spool, and who accepted, was told of, or deleted. -/
structure World where
  messages : Table Message.id
  recipients : Table Recipient.id
  log : List Enqueued
  accepted : List Nat
  told : List Nat
  deleted : List Nat

def nextId {α : Type} {key : α → Nat} (t : Table key) : Nat := (t.rows.map key).foldr max 0+1

namespace World

def empty : World := ⟨.empty,.empty,[],[],[],[]⟩

def insertMessage (m : Message) (w : World) : World := {w with messages:=w.messages.put m}

def insertRecipient (from_ body : Bytes) (mid : Nat) (now : Int) (w : World) (rcpt : DSNRecipient) :
    World :=
  {w with
    recipients:=w.recipients.put ⟨nextId w.recipients,mid,rcpt.addr,0,now,[],rcpt.notify,
      rcpt.orcpt,0,false,w.log.length⟩
    log:=w.log++[⟨from_,rcpt.addr,body⟩]}

def enqueueDSN (from_ ret envid : Bytes) (recipients : List DSNRecipient) (body : Bytes) (now : Int)
    (w : World) : World :=
  if recipients=[] then w
  else recipients.foldl (insertRecipient from_ body (nextId w.messages) now)
    (w.insertMessage ⟨nextId w.messages,from_,body,now,ret,envid⟩)

variable (id : Nat) (w : World)

def updateRecipient (f : Recipient → Recipient) (hf : ∀ r,(f r).id=r.id) (w : World) :
    World :=
  {w with recipients:=w.recipients.updateWhere (fun r => r.id == id) f hf}

def markStarted (now : Int) : World → World :=
  updateRecipient id (fun r => {r with deliveryStarted:=now}) fun _ => rfl

def clearStarted : World → World :=
  updateRecipient id (fun r => {r with deliveryStarted:=0}) fun _ => rfl

def markDelivered : World → World :=
  updateRecipient id (fun r => {r with delivered:=true}) fun _ => rfl

def retry (nextAttempt : Int) (lastErr : Bytes) : World → World :=
  updateRecipient id (fun r => {r with
    attempts:=r.attempts+1,nextAttempt:=nextAttempt,lastError:=lastErr}) fun _ => rfl

def retryNow (when_ : Int) : World → World :=
  updateRecipient id (fun r => {r with nextAttempt:=when_}) fun _ => rfl

def settle : World :=
  (w.recipients.get id).elim w fun r =>
    let recipients := w.recipients.deleteWhere fun r => r.id == id
    {w with
      recipients:=recipients
      messages :=
        if recipients.rows.any fun r' => r'.messageId == r.messageId then w.messages
        else w.messages.deleteWhere fun m => m.id == r.messageId}

def sent : World → World := settle id

def fail : World → World := settle id

def delete : World :=
  {settle id w with deleted:=w.deleted++(w.recipients.get id).toList.map (·.serial)}

def item (r : Recipient) : Option Item :=
  (w.messages.get r.messageId).map fun m =>
    ⟨r.id,m.envelopeFrom,r.recipient,m.body,r.attempts,r.notify,r.delivered,r.serial⟩

def byDue (a b : Recipient) : Prop :=
  a.nextAttempt<b.nextAttempt ∨ a.nextAttempt=b.nextAttempt ∧ a.id≤b.id

instance : DecidableRel byDue := fun _ _ => inferInstanceAs (Decidable (_ ∨ _ ∧ _))

def claim (now : Int) (limit : Nat) (w : World) : List Item :=
  (((w.recipients.rows.filter fun r =>
    r.nextAttempt≤now && r.deliveryStarted == 0 && !r.delivered).insertionSort
      byDue).filterMap w.item).take limit

def unsettled : List Item :=
  ((w.recipients.rows.filter fun r => decide (0 < r.deliveryStarted) || r.delivered).insertionSort
    fun a b => a.id≤b.id).filterMap w.item

end World
end HermEX.Relay
