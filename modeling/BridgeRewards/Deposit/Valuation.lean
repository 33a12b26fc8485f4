import BridgeRewards.Deposit.Basic

/-!
# The value of a deposit

What a filled and priced deposit is worth in dollars: its volume, its liquidity fee and its
bridge fee, at the price of its token on the day of the deposit.
-/

set_option autoImplicit false

namespace BridgeRewards

/-- A filled deposit with its values in dollars. -/
structure PricedDeposit where
  key : DepositKey
  depositor : Address
  referral : Option Address
  depositDate : Instant
  usdVolume : Decimal
  lpFeeUsd : Decimal
  bridgeFeeUsd : Decimal
  rewardTokenUsdPrice : Decimal
  deriving DecidableEq

namespace PricedDeposit

/-- The values of a deposit at given prices and fees. -/
def value (d : Deposit) (price : PriceSnapshot) (fees : FeeBreakdown) :
    Except RewardError PricedDeposit := do
  let amount ← Decimal.parseInteger "inputAmount" d.inputAmount
  let tokenPrice ← Decimal.parse "tokenUsdPrice" price.tokenUsdPrice
  let rewardPrice ← Decimal.parse "rewardTokenUsdPrice" price.rewardTokenUsdPrice
  let lpPct ← Decimal.parseInteger "realizedLpFeePct" fees.realizedLpFeePct
  let bridgePct ← Decimal.parseInteger "bridgeFeePct" fees.bridgeFeePct
  return { key := d.key
           depositor := d.depositor
           referral := d.stickyReferralAddress
           depositDate := d.depositDate
           usdVolume := amount.toTokenUnits price.decimals * tokenPrice
           lpFeeUsd := (FeeShare.compute lpPct amount tokenPrice price.decimals).pctAmountUsd
           bridgeFeeUsd :=
             (FeeShare.compute bridgePct amount tokenPrice price.decimals).pctAmountUsd
           rewardTokenUsdPrice := rewardPrice }

/-- The values of a deposit, if it is filled and has both prices and fees. -/
def ofDeposit (d : Deposit) : Except RewardError (Option PricedDeposit) :=
  match d.price, d.fees with
  | some price, some fees => if d.isFilled then (value d price fees).map some else .ok none
  | _, _ => .ok none

def toJson (values : PricedDeposit) : Json :=
  .object [("key", .string values.key.text), ("depositor", .string values.depositor.text),
    ("referral", .orNull (values.referral.map fun a => .string a.text)),
    ("depositDate", .string values.depositDate.text),
    ("usdVolume", .string values.usdVolume.plain), ("lpFeeUsd", .string values.lpFeeUsd.plain),
    ("bridgeFeeUsd", .string values.bridgeFeeUsd.plain),
    ("rewardTokenUsdPrice", .string values.rewardTokenUsdPrice.plain)]

end PricedDeposit

end BridgeRewards
