import BridgeRewards.Fee
import BridgeRewards.Table

/-!
# Deposits

A deposit is made on one chain and filled on another, perhaps in parts.  It is pending until the
total of its fills covers its amount.  A fill sets the fees, the first covering fill also the date
and transaction; after that the deposit does not change any more, except that a price is attached
and that windows are assigned, one for each kind of reward.  Amounts and percentages are kept in
the words in which they arrived.
-/

set_option autoImplicit false

namespace BridgeRewards

/-- Whether a deposit has been covered by fills. -/
inductive DepositStatus
  | pending
  | filled
  deriving DecidableEq, Repr

namespace DepositStatus

def name : DepositStatus → String
  | pending => "pending"
  | filled => "filled"

/-- The status with a name. -/
def ofName? (s : String) : Option DepositStatus := [pending, filled].find? (·.name == s)

end DepositStatus

/-- The prices of a deposit's token and of the reward token on the day of the deposit. -/
structure PriceSnapshot where
  tokenSymbol : String
  decimals : Nat
  tokenUsdPrice : String
  rewardTokenUsdPrice : String
  priceDate : Date
  deriving DecidableEq

/-- The percentages that the last fill charged, in integers. -/
structure FeeBreakdown where
  /-- The liquidity fee as it was charged. -/
  realizedLpFeePctRaw : String
  /-- The liquidity fee kept between zero and the cap. -/
  realizedLpFeePct : String
  /-- The relayer's fee. -/
  relayerFeePct : String
  /-- The sum of the capped liquidity fee and the relayer's fee. -/
  bridgeFeePct : String
  deriving DecidableEq

/-- What a fill says about a deposit. -/
structure FillRecord where
  deposit : DepositKey
  relayer : Address
  realizedLpFeePct : String
  relayerFeePct : String
  totalFilledAmount : String
  fillTx : String
  fillDate : Instant
  deriving DecidableEq

/-- What a fill does to a deposit. -/
inductive FillOutcome
  | partially
  | filled
  | alreadyFilled
  deriving DecidableEq, Repr

def FillOutcome.name : FillOutcome → String
  | partially => "Partial"
  | filled => "Filled"
  | alreadyFilled => "AlreadyFilled"

/-- A deposit. -/
structure Deposit where
  originChainId : Nat
  destinationChainId : Nat
  depositId : Nat
  depositor : Address
  recipient : Address
  inputToken : Address
  inputAmount : String
  outputToken : Option Address
  outputAmount : Option String
  status : DepositStatus
  depositDate : Instant
  depositTx : String
  fillDate : Option Instant
  fillTx : Option String
  filledAmount : String
  relayerFeePct : String
  fees : Option FeeBreakdown
  price : Option PriceSnapshot
  stickyReferralAddress : Option Address
  rewardWindows : PerRewardType Nat
  deriving DecidableEq

namespace Deposit

/-- The key of a deposit. -/
def key (d : Deposit) : DepositKey := ⟨d.originChainId, d.depositId⟩

/-- Whether a deposit has been covered by fills. -/
def isFilled (d : Deposit) : Bool := d.status == .filled

/-- The window that a deposit is assigned to for a kind of reward. -/
def windowFor (d : Deposit) (kind : RewardType) : Option Nat := d.rewardWindows.get? kind

/-- The deposit with a referral address, which cannot be replaced by another. -/
def setStickyReferral (d : Deposit) (referral : Address) : Except RewardError Deposit :=
  match d.stickyReferralAddress with
  | some current =>
    if current = referral then .ok d else .error (.stickyReferralImmutable d.depositor current)
  | none => .ok { d with stickyReferralAddress := some referral }

/-- The deposit with a new relayer's fee, which has to be an integer; nothing once it is filled. -/
def speedUp (d : Deposit) (newRelayerFeePct : String) : Except RewardError (Option Deposit) := do
  let _ ← Decimal.parseInteger "newRelayerFeePct" newRelayerFeePct
  return if d.isFilled then none else some { d with relayerFeePct := newRelayerFeePct }

/-- The deposit after a fill, with the liquidity fee capped.  A filled deposit takes no fill; a
fill whose numbers are no integers is refused. -/
def fill (d : Deposit) (record : FillRecord) (lpFeeCap : Decimal) :
    Except RewardError (FillOutcome × Deposit) := do
  if d.isFilled then return (.alreadyFilled, d)
  let inputAmount ← Decimal.parseInteger "inputAmount" d.inputAmount
  let totalFilled ← Decimal.parseInteger "totalFilledAmount" record.totalFilledAmount
  let lpRaw ← Decimal.parseInteger "realizedLpFeePct" record.realizedLpFeePct
  let relayer ← Decimal.parseInteger "relayerFeePct" record.relayerFeePct
  let lpCapped := lpRaw.clamp lpFeeCap
  let charged : Deposit := { d with
    fees := some
      { realizedLpFeePctRaw := lpRaw.plain
        realizedLpFeePct := lpCapped.plain
        relayerFeePct := relayer.plain
        bridgeFeePct := (lpCapped + relayer).plain }
    filledAmount := totalFilled.plain }
  if inputAmount ≤ totalFilled then
    return (.filled, { charged with
      status := .filled
      fillDate := some record.fillDate
      fillTx := some record.fillTx })
  else return (.partially, charged)

/-- The deposit with prices attached. -/
def setPrice (d : Deposit) (price : PriceSnapshot) : Deposit := { d with price := some price }

/-- The deposit assigned to a window; it has to be filled and to have none for this kind. -/
def assignWindow (d : Deposit) (kind : RewardType) (index : Nat) : Except RewardError Deposit :=
  if d.isFilled then
    match d.windowFor kind with
    | some existing => .error (.windowAlreadyAssigned d.key kind existing)
    | none => .ok { d with rewardWindows := d.rewardWindows.set kind index }
  else .error (.depositNotFilled d.key)

end Deposit

end BridgeRewards
