import BridgeRewards.Reward.Basic

/-!
# Totals by recipient

The rewards of a window are summed up for each recipient.  A recipient whose units sum to zero is
left out, and a negative sum is an error.
-/

set_option autoImplicit false

namespace BridgeRewards

/-- How a recipient's amount came about. -/
structure Breakdown where
  kind : RewardType
  depositCount : Nat
  totalRewardUsd : String
  /-- The names of the versions in use, in order and each once. -/
  scheduleVersions : List String
  deriving DecidableEq

def Breakdown.toJson (breakdown : Breakdown) : Json :=
  .object [("rewardsType", .string breakdown.kind.name),
    ("depositCount", .nat breakdown.depositCount),
    ("totalRewardUsd", .string breakdown.totalRewardUsd),
    ("scheduleVersions", .array (breakdown.scheduleVersions.map .string))]

/-- The rewards of one recipient. -/
structure RecipientTotal where
  address : Address
  amount : Decimal
  rewardUsd : Decimal
  deposits : List DepositKey
  scheduleVersions : Table String Unit

namespace RecipientTotal

/-- The recipient without rewards. -/
def none (address : Address) : RecipientTotal := ⟨address, 0, 0, [], .empty⟩

/-- The recipient with one more reward. -/
def add (total : RecipientTotal) (reward : DepositReward) : RecipientTotal :=
  { total with
    amount := total.amount + reward.rewardUnits
    rewardUsd := total.rewardUsd + reward.rewardUsd
    deposits := total.deposits ++ [reward.deposit]
    scheduleVersions := reward.scheduleVersions.foldl
      (fun versions v => versions.insert v ()) total.scheduleVersions }

/-- How the amount came about. -/
def breakdown (total : RecipientTotal) (kind : RewardType) : Breakdown :=
  { kind
    depositCount := total.deposits.length
    totalRewardUsd := total.rewardUsd.plain
    scheduleVersions := total.scheduleVersions.keys }

def toJson (total : RecipientTotal) (kind : RewardType) : Json :=
  .object [("address", .string total.address.text), ("amount", .string total.amount.plain),
    ("deposits", .array (total.deposits.map fun key => .string key.text)),
    ("breakdown", (total.breakdown kind).toJson)]

end RecipientTotal

/-- The rewards of each recipient. -/
abbrev Totals := Table Address RecipientTotal

namespace Totals

/-- The totals with one more reward. -/
def add (totals : Totals) (reward : DepositReward) : Totals :=
  let total := (totals.find? reward.recipient).getD (.none reward.recipient)
  totals.insert reward.recipient (total.add reward)

/-- The totals over some rewards. -/
def ofRewards (rewards : List DepositReward) : Totals := rewards.foldl add .empty

/-- The recipients with an amount to pay, none of which may be negative. -/
def payable : List RecipientTotal → Except RewardError (List RecipientTotal)
  | [] => .ok []
  | total :: rest =>
    if total.amount < 0 then .error (.negativeAggregate total.address total.amount)
    else do
      let others ← payable rest
      return if total.amount.isZero then others else total :: others

/-- The recipients with an amount to pay, in order of their addresses. -/
def finish (totals : Totals) : Except RewardError (List RecipientTotal) := payable totals.values

end Totals

end BridgeRewards
