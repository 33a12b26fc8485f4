import BridgeRewards.Deposit.Document
import BridgeRewards.Event.Key

/-!
# Events

The six kinds of log records: deposits, fills and speed-ups of deposits, refunds to relayers,
routes of tokens between chains, and claims from windows.
-/

set_option autoImplicit false

namespace BridgeRewards

/-- A deposit was made. -/
structure DepositEvent where
  eventMeta : EventMeta
  originChainId : Nat
  destinationChainId : Nat
  depositId : Nat
  depositor : Address
  recipient : Address
  inputToken : Address
  inputAmount : String
  outputToken : Option Address
  outputAmount : Option String
  relayerFeePct : String
  referralAddress : Option Address
  deriving DecidableEq

/-- A deposit was filled, wholly or in part. -/
structure FillEvent where
  eventMeta : EventMeta
  originChainId : Nat
  depositId : Nat
  relayer : Address
  realizedLpFeePct : String
  relayerFeePct : String
  totalFilledAmount : String
  deriving DecidableEq

/-- A depositor offers another fee. -/
structure SpeedUpEvent where
  eventMeta : EventMeta
  originChainId : Nat
  depositId : Nat
  depositor : Address
  newRelayerFeePct : String
  deriving DecidableEq

/-- A relayer was paid back. -/
structure Refund where
  eventMeta : EventMeta
  rootBundleId : Nat
  leafId : Nat
  l2Token : Address
  relayer : Address
  amount : String
  deriving DecidableEq

/-- A token on the main chain corresponds to a token on another chain. -/
structure Route where
  eventMeta : EventMeta
  l1Token : Address
  destinationChainId : Nat
  destinationToken : Address
  deriving DecidableEq

/-- An account claimed its amount from a window. -/
structure ClaimEvent where
  eventMeta : EventMeta
  windowIndex : Nat
  accountIndex : Nat
  caller : Address
  account : Address
  rewardToken : Address
  amount : String
  deriving DecidableEq

/-- A claim as it is kept. -/
structure Claim where
  windowIndex : Nat
  accountIndex : Nat
  caller : Address
  account : Address
  rewardToken : Address
  amount : String
  blockNumber : Nat
  claimedAt : Instant
  transactionHash : String
  deriving DecidableEq

/-- A log record. -/
inductive Event
  | deposit (event : DepositEvent)
  | fill (event : FillEvent)
  | speedUp (event : SpeedUpEvent)
  | refund (refund : Refund)
  | claim (event : ClaimEvent)
  | route (route : Route)
  deriving DecidableEq

namespace DepositEvent

/-- The key of the deposit. -/
def key (event : DepositEvent) : DepositKey := ⟨event.originChainId, event.depositId⟩

/-- The deposit as it is before anything else happens to it. -/
def toDeposit (event : DepositEvent) : Deposit :=
  { originChainId := event.originChainId
    destinationChainId := event.destinationChainId
    depositId := event.depositId
    depositor := event.depositor
    recipient := event.recipient
    inputToken := event.inputToken
    inputAmount := event.inputAmount
    outputToken := event.outputToken
    outputAmount := event.outputAmount
    status := .pending
    depositDate := event.eventMeta.timestamp
    depositTx := event.eventMeta.key.transactionHash
    fillDate := none
    fillTx := none
    filledAmount := "0"
    relayerFeePct := event.relayerFeePct
    fees := none
    price := none
    stickyReferralAddress := none
    rewardWindows := {} }

end DepositEvent

namespace FillEvent

/-- The key of the deposit. -/
def key (event : FillEvent) : DepositKey := ⟨event.originChainId, event.depositId⟩

/-- What the fill says about the deposit. -/
def toRecord (event : FillEvent) : FillRecord :=
  { deposit := event.key
    relayer := event.relayer
    realizedLpFeePct := event.realizedLpFeePct
    relayerFeePct := event.relayerFeePct
    totalFilledAmount := event.totalFilledAmount
    fillTx := event.eventMeta.key.transactionHash
    fillDate := event.eventMeta.timestamp }

end FillEvent

/-- The key of the deposit. -/
def SpeedUpEvent.key (event : SpeedUpEvent) : DepositKey := ⟨event.originChainId, event.depositId⟩

/-- The claim as it is kept. -/
def ClaimEvent.toClaim (event : ClaimEvent) : Claim :=
  { windowIndex := event.windowIndex
    accountIndex := event.accountIndex
    caller := event.caller
    account := event.account
    rewardToken := event.rewardToken
    amount := event.amount
    blockNumber := event.eventMeta.blockNumber
    claimedAt := event.eventMeta.timestamp
    transactionHash := event.eventMeta.key.transactionHash }

/-- The place of a claim: the window and the index of the account in it. -/
def Claim.key (claim : Claim) : Nat × Nat := (claim.windowIndex, claim.accountIndex)

namespace Event

/-- Where and when a record was written. -/
def eventMeta : Event → EventMeta
  | deposit event => event.eventMeta
  | fill event => event.eventMeta
  | speedUp event => event.eventMeta
  | refund r => r.eventMeta
  | claim event => event.eventMeta
  | route r => r.eventMeta

/-- The key of a record. -/
def key (event : Event) : EventKey := event.eventMeta.key

/-- The name of a kind of record. -/
def kindName : Event → String
  | deposit _ => "deposit"
  | fill _ => "fill"
  | speedUp _ => "speed_up"
  | refund _ => "refund"
  | claim _ => "claim"
  | route _ => "pool_rebalance_route"

end Event

end BridgeRewards
