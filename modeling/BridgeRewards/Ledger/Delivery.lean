import BridgeRewards.Ledger.Basic

/-!
# Delivering records

Log records are delivered in order, and each takes effect once: its key is noted when it has been
dealt with, and a record whose key is noted is passed over.  A record that is refused is not
noted, so that it can be delivered again.  A fill may come before its deposit; it waits, and the
deposit takes the waiting fills in the order in which they came.
-/

set_option autoImplicit false

namespace BridgeRewards

/-- What became of a record. -/
inductive Delivery
  | applied
  /-- The record, or one in its place, is known already. -/
  | duplicate
  /-- A fill waits for its deposit. -/
  | parked
  /-- The record is valid but comes too late to matter. -/
  | ignored
  deriving DecidableEq, Repr

namespace Delivery

/-- The name of what became of a record. -/
def name : Delivery → String
  | applied => "applied"
  | duplicate => "duplicate"
  | parked => "parked"
  | ignored => "ignored"

/-- Applied if a row could be written, a duplicate of the one in its place otherwise. -/
def ofInsert (ledger : Ledger) : Option Ledger → Ledger × Except RewardError Delivery
  | some after => (after, .ok applied)
  | none => (ledger, .ok duplicate)

end Delivery

/-- How many records met each fate. -/
structure DeliveryCount where
  applied : Nat := 0
  duplicates : Nat := 0
  parked : Nat := 0
  ignored : Nat := 0
  deriving DecidableEq

namespace DeliveryCount

/-- The count with one more record. -/
def add (count : DeliveryCount) : Delivery → DeliveryCount
  | .applied => { count with applied := count.applied + 1 }
  | .duplicate => { count with duplicates := count.duplicates + 1 }
  | .parked => { count with parked := count.parked + 1 }
  | .ignored => { count with ignored := count.ignored + 1 }

def toJson (count : DeliveryCount) : Json :=
  .object [("applied", .nat count.applied), ("duplicates", .nat count.duplicates),
    ("parked", .nat count.parked), ("ignored", .nat count.ignored)]

end DeliveryCount

/-- A deposit after a list of fills, with the liquidity fee capped. -/
def Deposit.fillAll (lpFeeCap : Decimal) : Deposit → List FillRecord → Except RewardError Deposit
  | d, [] => .ok d
  | d, record :: rest => do
    let (_, filled) ← d.fill record lpFeeCap
    fillAll lpFeeCap filled rest

namespace Ledger

/-- The ledger after a depositor came with a referral address or without one. -/
def firstTouch (ledger : Ledger) (depositor : Address) : Option Address → Ledger
  | some referral => ledger.setStickyReferral depositor referral
  | none => ledger

/-- A new deposit as the ledger completes it: with the routed token if the record names none, and
with the depositor's referral address. -/
def completed (ledger : Ledger) (event : DepositEvent) : Deposit :=
  { event.toDeposit with
    outputToken := event.outputToken <|> ledger.routed? event.inputToken event.destinationChainId
    stickyReferralAddress := ledger.stickyReferral? event.depositor }

/-- What a deposit record does.  The fills that wait for the deposit are used up unless one of
them is refused. -/
def receiveDeposit (lpFeeCap : Decimal) (ledger : Ledger) (event : DepositEvent) :
    Ledger × Except RewardError Delivery :=
  let touched := ledger.firstTouch event.depositor event.referralAddress
  match (touched.completed event).fillAll lpFeeCap (touched.parkedFor event.key) with
  | .error e => (touched, .error e)
  | .ok d =>
    let settled := touched.dropParked event.key
    Delivery.ofInsert settled (settled.insertDeposit d).toOption

/-- What a fill record does. -/
def receiveFill (lpFeeCap : Decimal) (ledger : Ledger) (event : FillEvent) :
    Ledger × Except RewardError Delivery :=
  match ledger.deposits.find? event.key with
  | none => (ledger.parkFill event.toRecord, .ok .parked)
  | some d =>
    match d.fill event.toRecord lpFeeCap with
    | .error e => (ledger, .error e)
    | .ok (.alreadyFilled, _) => (ledger, .ok .ignored)
    | .ok (_, filled) => (ledger.putDeposit filled, .ok .applied)

/-- What a speed-up record does. -/
def receiveSpeedUp (ledger : Ledger) (event : SpeedUpEvent) :
    Ledger × Except RewardError Delivery :=
  match ledger.deposits.find? event.key with
  | none => (ledger, .ok .ignored)
  | some d =>
    match d.speedUp event.newRelayerFeePct with
    | .error e => (ledger, .error e)
    | .ok none => (ledger, .ok .ignored)
    | .ok (some faster) => (ledger.putDeposit faster, .ok .applied)

/-- What a record does that has not been dealt with. -/
def receive (lpFeeCap : Decimal) (ledger : Ledger) : Event → Ledger × Except RewardError Delivery
  | .deposit event => ledger.receiveDeposit lpFeeCap event
  | .fill event => ledger.receiveFill lpFeeCap event
  | .speedUp event => ledger.receiveSpeedUp event
  | .refund refund => Delivery.ofInsert ledger (ledger.insertRefund refund)
  | .claim event => Delivery.ofInsert ledger (ledger.insertClaim event.toClaim)
  | .route route => (ledger.putRoute route, .ok .applied)

/-- Delivers a record. -/
def deliver (lpFeeCap : Decimal) (ledger : Ledger) (event : Event) :
    Ledger × Except RewardError Delivery :=
  if ledger.hasEvent event.key then (ledger, .ok .duplicate)
  else
    match ledger.receive lpFeeCap event with
    | (after, .error e) => (after, .error e)
    | (after, .ok delivery) => (after.recordEvent event.key, .ok delivery)

/-- Delivers records up to the first that is refused; `count` is that of the records before. -/
def deliverFrom (lpFeeCap : Decimal) (count : DeliveryCount) (ledger : Ledger) :
    List Event → Ledger × Except RewardError DeliveryCount
  | [] => (ledger, .ok count)
  | event :: rest =>
    match ledger.deliver lpFeeCap event with
    | (after, .error e) => (after, .error e)
    | (after, .ok delivery) => deliverFrom lpFeeCap (count.add delivery) after rest

/-- Delivers records in order and counts what became of them, up to the first that is refused. -/
def deliverAll (lpFeeCap : Decimal) (ledger : Ledger) (events : List Event) :
    Ledger × Except RewardError DeliveryCount :=
  deliverFrom lpFeeCap {} ledger events

end Ledger

end BridgeRewards
