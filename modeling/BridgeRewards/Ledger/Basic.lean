import BridgeRewards.Deposit.Standing
import BridgeRewards.Event.Basic
import BridgeRewards.Job.Basic
import BridgeRewards.Ledger.Error
import BridgeRewards.Market
import BridgeRewards.Window.Basic

/-!
# The ledger

The ledger holds everything that is known: which records have been seen, deposits and fills that
wait for theirs, the referral address of each depositor, tokens, prices, routes, refunds, claims,
windows with their recipients, and jobs.  Here are the operations on single rows.  A row that is
written once is never replaced: the first price of a symbol and day, the first refund of a record,
the first claim at a place and the first referral address of a depositor stay.
-/

set_option autoImplicit false

namespace BridgeRewards

/-- Everything that is known. -/
structure Ledger where
  /-- The records that have been dealt with. -/
  events : Table EventKey Unit
  deposits : Table DepositKey Deposit
  /-- Fills whose deposit is not known yet, in the order in which they arrived. -/
  parkedFills : Table DepositKey (List FillRecord)
  /-- The referral address that each depositor first came with. -/
  stickyReferrals : Table Address Address
  /-- Tokens by address and chain. -/
  tokens : Table (Address × Nat) Token
  /-- Prices by symbol in upper case and day. -/
  prices : Table (String × Date) MarketPrice
  /-- Routes by token on the main chain and destination chain. -/
  routes : Table (Address × Nat) Route
  refunds : Table EventKey Refund
  /-- Claims by window and index of the account in it. -/
  claims : Table (Nat × Nat) Claim
  windows : Table (Line × Nat) Window
  /-- The recipients of each window, by index of their accounts. -/
  recipients : Table (Line × Nat) (List Recipient)
  /-- Jobs in the order in which they were created. -/
  jobs : List Job

namespace Ledger

/-- The ledger at the start. -/
def empty : Ledger :=
  { events := .empty
    deposits := .empty
    parkedFills := .empty
    stickyReferrals := .empty
    tokens := .empty
    prices := .empty
    routes := .empty
    refunds := .empty
    claims := .empty
    windows := .empty
    recipients := .empty
    jobs := [] }

instance : EmptyCollection Ledger := ⟨empty⟩

/-! ## Records -/

/-- Whether a record has been dealt with. -/
def hasEvent (ledger : Ledger) (key : EventKey) : Bool := ledger.events.contains key

/-- The ledger with a record noted as dealt with. -/
def recordEvent (ledger : Ledger) (key : EventKey) : Ledger :=
  { ledger with events := ledger.events.insert key () }

/-! ## Deposits and fills -/

/-- A deposit that has to be there. -/
def getDeposit (ledger : Ledger) (key : DepositKey) : Except LedgerError Deposit :=
  match ledger.deposits.find? key with
  | some d => .ok d
  | none => .error (.unknown (.deposit key))

/-- The ledger with a deposit at its key, replacing one that is there. -/
def putDeposit (ledger : Ledger) (d : Deposit) : Ledger :=
  { ledger with deposits := ledger.deposits.insert d.key d }

/-- The ledger with a new deposit. -/
def insertDeposit (ledger : Ledger) (d : Deposit) : Except LedgerError Ledger :=
  if ledger.deposits.contains d.key then .error (.taken (.deposit d.key))
  else .ok (ledger.putDeposit d)

/-- The ledger with a known deposit replaced. -/
def updateDeposit (ledger : Ledger) (d : Deposit) : Except LedgerError Ledger := do
  let _ ← ledger.getDeposit d.key
  return ledger.putDeposit d

/-- The ledger with prices attached to a deposit; nothing if it has prices already. -/
def setDepositPrice (ledger : Ledger) (key : DepositKey) (price : PriceSnapshot) :
    Except LedgerError (Option Ledger) := do
  let d ← ledger.getDeposit key
  return if d.isPriced then none
    else some { ledger with deposits := ledger.deposits.insert key (d.setPrice price) }

/-- The fills that wait for a deposit. -/
def parkedFor (ledger : Ledger) (key : DepositKey) : List FillRecord :=
  (ledger.parkedFills.find? key).getD []

/-- The ledger with one more fill that waits for its deposit. -/
def parkFill (ledger : Ledger) (record : FillRecord) : Ledger :=
  { ledger with parkedFills :=
      ledger.parkedFills.insert record.deposit (ledger.parkedFor record.deposit ++ [record]) }

/-- The ledger without fills that wait for a deposit. -/
def dropParked (ledger : Ledger) (key : DepositKey) : Ledger :=
  { ledger with parkedFills := ledger.parkedFills.erase key }

/-- The referral address of a depositor. -/
def stickyReferral? (ledger : Ledger) (depositor : Address) : Option Address :=
  ledger.stickyReferrals.find? depositor

/-- The ledger with a referral address for a depositor, unless there is one already. -/
def setStickyReferral (ledger : Ledger) (depositor referral : Address) : Ledger :=
  match ledger.stickyReferral? depositor with
  | some _ => ledger
  | none => { ledger with stickyReferrals := ledger.stickyReferrals.insert depositor referral }

/-! ## Tokens, prices and routes -/

/-- A token on a chain. -/
def token? (ledger : Ledger) (address : Address) (chainId : Nat) : Option Token :=
  ledger.tokens.find? (address, chainId)

/-- The ledger with a token at its place, replacing one that is there. -/
def putToken (ledger : Ledger) (token : Token) : Ledger :=
  { ledger with tokens := ledger.tokens.insert (token.address, token.chainId) token }

/-- The price of a symbol on a day. -/
def price? (ledger : Ledger) (symbol : String) (date : Date) : Option MarketPrice :=
  ledger.prices.find? (Text.upperAscii symbol, date)

/-- The ledger with a price, if there is none for its symbol and day. -/
def insertPrice (ledger : Ledger) (price : MarketPrice) : Option Ledger :=
  if (ledger.price? price.symbol price.date).isSome then none
  else some { ledger with prices :=
      ledger.prices.insert (Text.upperAscii price.symbol, price.date) price }

/-- The token that a token of the main chain corresponds to on another chain. -/
def routed? (ledger : Ledger) (token : Address) (destinationChainId : Nat) : Option Address :=
  (ledger.routes.find? (token, destinationChainId)).map (·.destinationToken)

/-- The ledger with a route at its place, replacing one that is there. -/
def putRoute (ledger : Ledger) (route : Route) : Ledger :=
  { ledger with routes := ledger.routes.insert (route.l1Token, route.destinationChainId) route }

/-! ## Refunds and claims -/

/-- The ledger with a refund, if there is none of the same record. -/
def insertRefund (ledger : Ledger) (refund : Refund) : Option Ledger :=
  if ledger.refunds.contains refund.eventMeta.key then none
  else some { ledger with refunds := ledger.refunds.insert refund.eventMeta.key refund }

/-- The refunds to a relayer, in order of their records. -/
def refundsFor (ledger : Ledger) (relayer : Address) : List Refund :=
  ledger.refunds.values.filter (·.relayer == relayer)

/-- The ledger with a claim, if there is none at its place. -/
def insertClaim (ledger : Ledger) (claim : Claim) : Option Ledger :=
  if ledger.claims.contains claim.key then none
  else some { ledger with claims := ledger.claims.insert claim.key claim }

/-- The claim at an index of a window. -/
def claim? (ledger : Ledger) (windowIndex accountIndex : Nat) : Option Claim :=
  ledger.claims.find? (windowIndex, accountIndex)

/-- The claims of an account, in order of windows. -/
def claimsBy (ledger : Ledger) (account : Address) : List Claim :=
  ledger.claims.values.filter (·.account == account)

/-- The claims from a window, in order of accounts. -/
def claimsFrom (ledger : Ledger) (windowIndex : Nat) : List Claim :=
  (ledger.claims.rows.filter (·.1.1 == windowIndex)).map (·.2)

/-! ## Windows -/

/-- Whether a line has a window with an index. -/
def hasWindow (ledger : Ledger) (line : Line) (index : Nat) : Bool :=
  ledger.windows.contains (line, index)

/-- A window that has to be there. -/
def getWindow (ledger : Ledger) (line : Line) (index : Nat) : Except LedgerError Window :=
  match ledger.windows.find? (line, index) with
  | some window => .ok window
  | none => .error (.unknown (.window line index))

/-- The windows of a line, in order of their indices. -/
def windowsOn (ledger : Ledger) (line : Line) : List Window :=
  (ledger.windows.rows.filter (·.1.1 == line)).map (·.2)

/-- The recipients of a window, in order of their indices. -/
def recipientsOf (ledger : Ledger) (line : Line) (index : Nat) : List Recipient :=
  (ledger.recipients.find? (line, index)).getD []

/-! ## Jobs -/

/-- A job that has to be there. -/
def getJob (ledger : Ledger) (jobId : String) : Except LedgerError Job :=
  match ledger.jobs.find? (·.jobId == jobId) with
  | some job => .ok job
  | none => .error (.unknown (.job jobId))

/-- The ledger with a new job. -/
def createJob (ledger : Ledger) (job : Job) : Except LedgerError Ledger :=
  if ledger.jobs.any (·.jobId == job.jobId) then .error (.taken (.job job.jobId))
  else .ok { ledger with jobs := ledger.jobs ++ [job] }

/-- The ledger with a known job replaced. -/
def updateJob (ledger : Ledger) (job : Job) : Except LedgerError Ledger := do
  let _ ← ledger.getJob job.jobId
  let jobs := ledger.jobs.map fun other => if other.jobId == job.jobId then job else other
  return { ledger with jobs }

/-- The jobs in some state, in the order in which they were created. -/
def jobsIn (ledger : Ledger) (status : JobStatus) : List Job :=
  ledger.jobs.filter (·.status == status)

end Ledger

end BridgeRewards
