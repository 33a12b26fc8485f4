import BridgeRewards.Event.Basic

/-!
# Events as documents

A record is an object that names its kind beside its fields, or an array that starts with the
name of its kind.
-/

set_option autoImplicit false

namespace BridgeRewards

/-- The deposit that a document records. -/
def DepositEvent.ofJson? (json : Json) : Option DepositEvent := do
  let fields ← json.asFields? ["meta", "originChainId", "destinationChainId", "depositId",
    "depositor", "recipient", "inputToken", "inputAmount", "outputToken", "outputAmount",
    "relayerFeePct", "referralAddress"]
  return { eventMeta := ← fields.required "meta" EventMeta.ofJson?
           originChainId := ← fields.required "originChainId" Json.asNat64?
           destinationChainId := ← fields.required "destinationChainId" Json.asNat64?
           depositId := ← fields.required "depositId" Json.asNat64?
           depositor := ← fields.required "depositor" Json.asAddress?
           recipient := ← fields.required "recipient" Json.asAddress?
           inputToken := ← fields.required "inputToken" Json.asAddress?
           inputAmount := ← fields.required "inputAmount" Json.asString?
           outputToken := ← fields.omissible "outputToken" Json.asAddress?
           outputAmount := ← fields.omissible "outputAmount" Json.asString?
           relayerFeePct := ← fields.required "relayerFeePct" Json.asString?
           referralAddress := ← fields.omissible "referralAddress" Json.asAddress? }

/-- The fill that a document records. -/
def FillEvent.ofJson? (json : Json) : Option FillEvent := do
  let fields ← json.asFields? ["meta", "originChainId", "depositId", "relayer",
    "realizedLpFeePct", "relayerFeePct", "totalFilledAmount"]
  return { eventMeta := ← fields.required "meta" EventMeta.ofJson?
           originChainId := ← fields.required "originChainId" Json.asNat64?
           depositId := ← fields.required "depositId" Json.asNat64?
           relayer := ← fields.required "relayer" Json.asAddress?
           realizedLpFeePct := ← fields.required "realizedLpFeePct" Json.asString?
           relayerFeePct := ← fields.required "relayerFeePct" Json.asString?
           totalFilledAmount := ← fields.required "totalFilledAmount" Json.asString? }

/-- The offer of another fee that a document records. -/
def SpeedUpEvent.ofJson? (json : Json) : Option SpeedUpEvent := do
  let fields ← json.asFields?
    ["meta", "originChainId", "depositId", "depositor", "newRelayerFeePct"]
  return { eventMeta := ← fields.required "meta" EventMeta.ofJson?
           originChainId := ← fields.required "originChainId" Json.asNat64?
           depositId := ← fields.required "depositId" Json.asNat64?
           depositor := ← fields.required "depositor" Json.asAddress?
           newRelayerFeePct := ← fields.required "newRelayerFeePct" Json.asString? }

namespace Refund

/-- The refund that a document records. -/
def ofJson? (json : Json) : Option Refund := do
  let fields ← json.asFields?
    ["meta", "rootBundleId", "leafId", "l2Token", "relayer", "amount"]
  return { eventMeta := ← fields.required "meta" EventMeta.ofJson?
           rootBundleId := ← fields.required "rootBundleId" Json.asNat64?
           leafId := ← fields.required "leafId" Json.asNat64?
           l2Token := ← fields.required "l2Token" Json.asAddress?
           relayer := ← fields.required "relayer" Json.asAddress?
           amount := ← fields.required "amount" Json.asString? }

def toJson (refund : Refund) : Json :=
  .object [("meta", refund.eventMeta.toJson), ("rootBundleId", .nat refund.rootBundleId),
    ("leafId", .nat refund.leafId), ("l2Token", .string refund.l2Token.text),
    ("relayer", .string refund.relayer.text), ("amount", .string refund.amount)]

end Refund

/-- The route that a document records. -/
def Route.ofJson? (json : Json) : Option Route := do
  let fields ← json.asFields? ["meta", "l1Token", "destinationChainId", "destinationToken"]
  return { eventMeta := ← fields.required "meta" EventMeta.ofJson?
           l1Token := ← fields.required "l1Token" Json.asAddress?
           destinationChainId := ← fields.required "destinationChainId" Json.asNat64?
           destinationToken := ← fields.required "destinationToken" Json.asAddress? }

/-- The claim that a document records. -/
def ClaimEvent.ofJson? (json : Json) : Option ClaimEvent := do
  let fields ← json.asFields?
    ["meta", "windowIndex", "accountIndex", "caller", "account", "rewardToken", "amount"]
  return { eventMeta := ← fields.required "meta" EventMeta.ofJson?
           windowIndex := ← fields.required "windowIndex" Json.asNat64?
           accountIndex := ← fields.required "accountIndex" Json.asNat64?
           caller := ← fields.required "caller" Json.asAddress?
           account := ← fields.required "account" Json.asAddress?
           rewardToken := ← fields.required "rewardToken" Json.asAddress?
           amount := ← fields.required "amount" Json.asString? }

def Claim.toJson (claim : Claim) : Json :=
  .object [("windowIndex", .nat claim.windowIndex), ("accountIndex", .nat claim.accountIndex),
    ("caller", .string claim.caller.text), ("account", .string claim.account.text),
    ("rewardToken", .string claim.rewardToken.text), ("amount", .string claim.amount),
    ("blockNumber", .nat claim.blockNumber), ("claimedAt", .string claim.claimedAt.text),
    ("transactionHash", .string claim.transactionHash)]

namespace Event

/-- The record of a named kind whose fields a document gives. -/
def ofKind? (kind : String) (fields : Json) : Option Event :=
  match kind with
  | "deposit" => (DepositEvent.ofJson? fields).map deposit
  | "fill" => (FillEvent.ofJson? fields).map fill
  | "speedUp" => (SpeedUpEvent.ofJson? fields).map speedUp
  | "refund" => (Refund.ofJson? fields).map refund
  | "claim" => (ClaimEvent.ofJson? fields).map claim
  | "poolRebalanceRoute" => (Route.ofJson? fields).map route
  | _ => none

/-- The record that a readable document gives; its kind has to be named once. -/
def ofReadable? : Json → Option Event
  | .object members =>
    match members.filter (·.1 == "type") with
    | [(_, kind)] => kind.asString?.bind fun k => ofKind? k (.object members)
    | _ => none
  | .array (kind :: fields) => kind.asString?.bind fun k => ofKind? k (.array fields)
  | _ => none

/-- The record that a document gives.  The kind decides which fields there are, so that no part
of the document may be passed over. -/
def ofJson? (json : Json) : Option Event := if json.isReadable then ofReadable? json else none

end Event

end BridgeRewards
