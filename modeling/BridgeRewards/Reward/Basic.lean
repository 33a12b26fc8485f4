import BridgeRewards.Reward.Volume
import BridgeRewards.Schedule.Multiplier
import BridgeRewards.Schedule.Tier

/-!
# The reward of a deposit

A reward in dollars is a fee of the deposit times the multiplier of its day, and for referrals
also times the rate of the referrer's tier at the instant of the deposit.  It is converted to
smallest units of the reward token at the price of that day, cut off toward zero for each deposit
on its own.
-/

set_option autoImplicit false

namespace BridgeRewards

/-- The rules by which rewards are computed. -/
structure RewardRules where
  tiers : TierSchedule
  multipliers : MultiplierSchedule

/-- The rules that apply when none are given. -/
def RewardRules.standard : RewardRules := ⟨TierSchedule.standard, MultiplierSchedule.standard⟩

/-- What the rewards of one kind are computed from. -/
structure RewardContext where
  kind : RewardType
  rules : RewardRules
  volumes : VolumeIndex
  rewardTokenDecimals : Nat

/-- The reward of a deposit. -/
structure DepositReward where
  deposit : DepositKey
  recipient : Address
  rewardUsd : Decimal
  rewardUnits : Decimal
  scheduleVersions : List String
  deriving DecidableEq

def DepositReward.toJson (reward : DepositReward) : Json :=
  .object [("deposit", .string reward.deposit.text), ("recipient", .string reward.recipient.text),
    ("usd", .string reward.rewardUsd.plain), ("units", .string reward.rewardUnits.plain),
    ("versions", .array (reward.scheduleVersions.map .string))]

namespace RewardContext

/-- The reward of a deposit in dollars, and the versions that it was computed with. -/
def rewardUsd (context : RewardContext) (recipient : Address) (values : PricedDeposit) :
    Except RewardError (Decimal × List String) := do
  let (multiplier, multiplierVersion) ←
    MultiplierSchedule.multiplierAt context.rules.multipliers values.depositDate
  match context.kind with
  | .referral =>
    let reached := context.volumes.upTo recipient values.depositDate
    let (rate, tierVersion) ←
      TierSchedule.rateAt context.rules.tiers values.depositDate reached.count reached.volume
    return (values.lpFeeUsd * rate.toDecimal * multiplier.toDecimal,
      [tierVersion, multiplierVersion])
  | .lpFee => return (values.lpFeeUsd.mulNormalized multiplier.toDecimal, [multiplierVersion])
  | .bridgeFee =>
    return (values.bridgeFeeUsd.mulNormalized multiplier.toDecimal, [multiplierVersion])

/-- Dollars in smallest units of the reward token, cut off toward zero. -/
def toUnits (usd price : Decimal) (decimals : Nat) : Decimal :=
  (usd / price).toSmallestUnits decimals

/-- The reward of a deposit with known values; the reward token has to have a positive price. -/
def compute (context : RewardContext) (d : Deposit) (values : PricedDeposit) :
    Except RewardError DepositReward := do
  match d.rewardRecipient context.kind with
  | none => throw (.rewardWithoutRecipient values.key context.kind)
  | some recipient =>
    let (usd, versions) ← context.rewardUsd recipient values
    if 0 < values.rewardTokenUsdPrice then
      return { deposit := values.key
               recipient
               rewardUsd := usd
               rewardUnits := toUnits usd values.rewardTokenUsdPrice context.rewardTokenDecimals
               scheduleVersions := versions }
    else throw (.missingRewardPrice values.key)

end RewardContext

end BridgeRewards
