import BridgeRewards.Decimal.Division
import BridgeRewards.Decimal.Reader
import BridgeRewards.Error

/-!
# Fixed-point fees

On-chain values are integers scaled by a power of ten: percentages by `10 ^ 18`, token amounts by
the decimals of the token.  Amounts that have to be integers are cut off toward zero, as integer
division on chain does; everything else here is exact, apart from the one division in the split
of a relayer's fee.
-/

set_option autoImplicit false

namespace BridgeRewards

namespace Decimal

/-- The decimal that a text denotes; `field` names it in the error. -/
def parse (field value : String) : Except RewardError Decimal :=
  match ofText? value with
  | some x => .ok x
  | none => .error (.invalidFixedPoint field value)

/-- The integer that a text denotes, at scale zero; `field` names it in the error. -/
def parseInteger (field value : String) : Except RewardError Decimal := do
  let x ← parse field value
  if x.isInteger then return x.truncate else throw (.nonIntegerAmount field value)

/-- An amount of smallest units in whole tokens. -/
def toTokenUnits (amount : Decimal) (decimals : Nat) : Decimal :=
  amount * inversePowerOfTen decimals

/-- A number of whole tokens in smallest units, cut off toward zero. -/
def toSmallestUnits (units : Decimal) (decimals : Nat) : Decimal :=
  (units * powerOfTen decimals).truncate

/-- The number of decimals of on-chain percentages. -/
def percentageDecimals : Nat := 18

/-- An on-chain percentage as a fraction of one. -/
def toFraction (weiPct : Decimal) : Decimal := weiPct * inversePowerOfTen percentageDecimals

/-- An on-chain percentage kept between zero and a cap; a negative one becomes zero first. -/
def clamp (raw cap : Decimal) : Decimal :=
  if raw < 0 then 0 else if cap < raw then cap else raw

end Decimal

/-! ## The share that a percentage takes -/

/-- What a percentage of an amount comes to. -/
structure FeeShare where
  /-- The percentage as a fraction of one. -/
  pct : Decimal
  /-- The percentage in percent. -/
  formattedPct : Decimal
  /-- The share in smallest units, cut off toward zero. -/
  pctAmount : Decimal
  /-- The share in whole tokens. -/
  formattedPctAmount : Decimal
  /-- The share in dollars. -/
  pctAmountUsd : Decimal

namespace FeeShare

/-- The share that an on-chain percentage takes of an amount in smallest units. -/
def compute (weiPct amount usdPrice : Decimal) (decimals : Nat) : FeeShare :=
  let pct := weiPct.toFraction
  let pctAmount := (amount * weiPct * Decimal.inversePowerOfTen Decimal.percentageDecimals).truncate
  let formattedPctAmount := pctAmount.toTokenUnits decimals
  { pct
    formattedPct := pct * Decimal.ofInt 100
    pctAmount
    formattedPctAmount
    pctAmountUsd := formattedPctAmount.mulNormalized usdPrice }

/-- The share from the texts of percentage, amount and price. -/
def parse (weiPct amount usdPrice : String) (decimals : Nat) : Except RewardError FeeShare := do
  let weiPct ← Decimal.parseInteger "weiPct" weiPct
  let amount ← Decimal.parseInteger "totalAmount" amount
  let usdPrice ← Decimal.parse "usdPrice" usdPrice
  return compute weiPct amount usdPrice decimals

def toJson (share : FeeShare) : Json :=
  .object [("pct", .string share.pct.plain), ("formattedPct", .string share.formattedPct.plain),
    ("pctAmount", .string share.pctAmount.plain),
    ("formattedPctAmount", .string share.formattedPctAmount.plain),
    ("pctAmountUsd", .string share.pctAmountUsd.plain)]

end FeeShare

/-! ## The split of a relayer's fee -/

/-- A relayer's fee split into what pays for gas and what pays for capital. -/
structure RelayerFeeSplit where
  gasFeePct : Decimal
  capitalFeeUsd : Decimal
  capitalFeePct : Decimal

namespace RelayerFeeSplit

/-- The percentage is split as the dollars are; a fee of zero is split into zeros. -/
def compute (gasFeeUsd relayerFeeUsd relayerFeePct : Decimal) : RelayerFeeSplit :=
  if relayerFeeUsd.isZero then { gasFeePct := 0, capitalFeeUsd := 0, capitalFeePct := 0 }
  else
    let gasFeePct := gasFeeUsd / relayerFeeUsd * relayerFeePct
    { gasFeePct
      capitalFeeUsd := relayerFeeUsd - gasFeeUsd
      capitalFeePct := relayerFeePct - gasFeePct }

/-- The split from the texts of the three values. -/
def parse (gasFeeUsd relayerFeeUsd relayerFeePct : String) :
    Except RewardError RelayerFeeSplit := do
  let gasFeeUsd ← Decimal.parse "gasFeeUsd" gasFeeUsd
  let relayerFeeUsd ← Decimal.parse "relayerFeeUsd" relayerFeeUsd
  let relayerFeePct ← Decimal.parse "relayerFeePct" relayerFeePct
  return compute gasFeeUsd relayerFeeUsd relayerFeePct

def toJson (split : RelayerFeeSplit) : Json :=
  .object [("gasFeePct", .string split.gasFeePct.plain),
    ("capitalFeeUsd", .string split.capitalFeeUsd.plain),
    ("capitalFeePct", .string split.capitalFeePct.plain)]

end RelayerFeeSplit

end BridgeRewards
