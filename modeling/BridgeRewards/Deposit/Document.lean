import BridgeRewards.Deposit.Basic

/-!
# Deposits as documents

How deposits, fills, prices and fees are written in documents and read from them.
-/

set_option autoImplicit false

namespace BridgeRewards

namespace PriceSnapshot

/-- The prices that a document gives. -/
def ofJson? (json : Json) : Option PriceSnapshot := do
  let fields ← json.asFields?
    ["tokenSymbol", "decimals", "tokenUsdPrice", "rewardTokenUsdPrice", "priceDate"]
  return { tokenSymbol := ← fields.required "tokenSymbol" Json.asString?
           decimals := ← fields.required "decimals" Json.asNat32?
           tokenUsdPrice := ← fields.required "tokenUsdPrice" Json.asString?
           rewardTokenUsdPrice := ← fields.required "rewardTokenUsdPrice" Json.asString?
           priceDate := ← fields.required "priceDate" Json.asDate? }

def toJson (price : PriceSnapshot) : Json :=
  .object [("tokenSymbol", .string price.tokenSymbol), ("decimals", .nat price.decimals),
    ("tokenUsdPrice", .string price.tokenUsdPrice),
    ("rewardTokenUsdPrice", .string price.rewardTokenUsdPrice),
    ("priceDate", .string price.priceDate.text)]

end PriceSnapshot

namespace FeeBreakdown

/-- The fees that a document gives. -/
def ofJson? (json : Json) : Option FeeBreakdown := do
  let fields ← json.asFields?
    ["realizedLpFeePctRaw", "realizedLpFeePct", "relayerFeePct", "bridgeFeePct"]
  return { realizedLpFeePctRaw := ← fields.required "realizedLpFeePctRaw" Json.asString?
           realizedLpFeePct := ← fields.required "realizedLpFeePct" Json.asString?
           relayerFeePct := ← fields.required "relayerFeePct" Json.asString?
           bridgeFeePct := ← fields.required "bridgeFeePct" Json.asString? }

def toJson (fees : FeeBreakdown) : Json :=
  .object [("realizedLpFeePctRaw", .string fees.realizedLpFeePctRaw),
    ("realizedLpFeePct", .string fees.realizedLpFeePct),
    ("relayerFeePct", .string fees.relayerFeePct), ("bridgeFeePct", .string fees.bridgeFeePct)]

end FeeBreakdown

namespace FillRecord

/-- The fill that a document gives. -/
def ofJson? (json : Json) : Option FillRecord := do
  let fields ← json.asFields? ["deposit", "relayer", "realizedLpFeePct", "relayerFeePct",
    "totalFilledAmount", "fillTx", "fillDate"]
  return { deposit := ← fields.required "deposit" DepositKey.ofJson?
           relayer := ← fields.required "relayer" Json.asAddress?
           realizedLpFeePct := ← fields.required "realizedLpFeePct" Json.asString?
           relayerFeePct := ← fields.required "relayerFeePct" Json.asString?
           totalFilledAmount := ← fields.required "totalFilledAmount" Json.asString?
           fillTx := ← fields.required "fillTx" Json.asString?
           fillDate := ← fields.required "fillDate" Json.asInstant? }

def toJson (record : FillRecord) : Json :=
  .object [("deposit", record.deposit.toJson), ("relayer", .string record.relayer.text),
    ("realizedLpFeePct", .string record.realizedLpFeePct),
    ("relayerFeePct", .string record.relayerFeePct),
    ("totalFilledAmount", .string record.totalFilledAmount), ("fillTx", .string record.fillTx),
    ("fillDate", .string record.fillDate.text)]

end FillRecord

/-- A kind of reward in a document. -/
def Json.asRewardType? (json : Json) : Option RewardType :=
  json.asConstant?.bind RewardType.ofName?

/-- The status of a deposit in a document. -/
def Json.asDepositStatus? (json : Json) : Option DepositStatus :=
  json.asConstant?.bind DepositStatus.ofName?

/-- Window indices by kind of reward; of two members for one kind the later one counts. -/
def Json.asRewardWindows? : Json → Option (PerRewardType Nat)
  | .object members =>
    members.foldlM (fun windows (name, value) => do
      return windows.set (← RewardType.ofName? name) (← value.asNat64?)) {}
  | _ => none

namespace Deposit

/-- The names of the fields of a deposit, in order. -/
def fieldNames : List String :=
  ["originChainId", "destinationChainId", "depositId", "depositor", "recipient", "inputToken",
   "inputAmount", "outputToken", "outputAmount", "status", "depositDate", "depositTx", "fillDate",
   "fillTx", "filledAmount", "relayerFeePct", "fees", "price", "stickyReferralAddress",
   "rewardWindows"]

/-- The deposit that a document gives. -/
def ofJson? (json : Json) : Option Deposit := do
  let fields ← json.asFields? fieldNames
  return { originChainId := ← fields.required "originChainId" Json.asNat64?
           destinationChainId := ← fields.required "destinationChainId" Json.asNat64?
           depositId := ← fields.required "depositId" Json.asNat64?
           depositor := ← fields.required "depositor" Json.asAddress?
           recipient := ← fields.required "recipient" Json.asAddress?
           inputToken := ← fields.required "inputToken" Json.asAddress?
           inputAmount := ← fields.required "inputAmount" Json.asString?
           outputToken := ← fields.optional "outputToken" Json.asAddress?
           outputAmount := ← fields.optional "outputAmount" Json.asString?
           status := ← fields.required "status" Json.asDepositStatus?
           depositDate := ← fields.required "depositDate" Json.asInstant?
           depositTx := ← fields.required "depositTx" Json.asString?
           fillDate := ← fields.optional "fillDate" Json.asInstant?
           fillTx := ← fields.optional "fillTx" Json.asString?
           filledAmount := ← fields.required "filledAmount" Json.asString?
           relayerFeePct := ← fields.required "relayerFeePct" Json.asString?
           fees := ← fields.optional "fees" FeeBreakdown.ofJson?
           price := ← fields.optional "price" PriceSnapshot.ofJson?
           stickyReferralAddress := ← fields.optional "stickyReferralAddress" Json.asAddress?
           rewardWindows := ← fields.defaulted "rewardWindows" {} Json.asRewardWindows? }

/-- A deposit as a document, with null for what is missing. -/
def toJson (d : Deposit) : Json :=
  .object [("originChainId", .nat d.originChainId),
    ("destinationChainId", .nat d.destinationChainId), ("depositId", .nat d.depositId),
    ("depositor", .string d.depositor.text), ("recipient", .string d.recipient.text),
    ("inputToken", .string d.inputToken.text), ("inputAmount", .string d.inputAmount),
    ("outputToken", .orNull (d.outputToken.map fun a => .string a.text)),
    ("outputAmount", .orNull (d.outputAmount.map .string)), ("status", .string d.status.name),
    ("depositDate", .string d.depositDate.text), ("depositTx", .string d.depositTx),
    ("fillDate", .orNull (d.fillDate.map fun t => .string t.text)),
    ("fillTx", .orNull (d.fillTx.map .string)), ("filledAmount", .string d.filledAmount),
    ("relayerFeePct", .string d.relayerFeePct), ("fees", .orNull (d.fees.map FeeBreakdown.toJson)),
    ("price", .orNull (d.price.map PriceSnapshot.toJson)),
    ("stickyReferralAddress", .orNull (d.stickyReferralAddress.map fun a => .string a.text)),
    ("rewardWindows",
      .object (d.rewardWindows.toList.map fun (kind, index) => (kind.name, .nat index)))]

end Deposit

end BridgeRewards
