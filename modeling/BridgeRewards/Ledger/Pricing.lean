import BridgeRewards.Ledger.Basic

/-!
# Pricing

A filled deposit gets the prices of its token and of the reward token on its universal day.  If a
token or a price is not known the deposit stays without prices, and the cause is reported.
-/

set_option autoImplicit false

namespace BridgeRewards

/-- Why a deposit cannot be priced. -/
inductive GapCause
  /-- The deposit's token is not known. -/
  | unknownToken (address : Address) (chainId : Nat)
  /-- The reward token is not known. -/
  | unknownRewardToken (address : Address)
  /-- There is no price for a symbol on the day. -/
  | noPrice (symbol : String) (date : Date)
  /-- A price of the day is no decimal. -/
  | unreadablePrice (date : Date)
  deriving DecidableEq

/-- The wording of a cause. -/
def GapCause.message : GapCause → String
  | unknownToken address chainId =>
    "missing token metadata for " ++ address.text ++ " on chain " ++ toString chainId
  | unknownRewardToken address => "missing token metadata for reward token " ++ address.text
  | noPrice symbol date => "missing " ++ symbol ++ " price on " ++ date.text
  | unreadablePrice date => "unparsable price on " ++ date.text

/-- A deposit that could not be priced. -/
structure PricingGap where
  deposit : DepositKey
  cause : GapCause
  deriving DecidableEq

/-- What came of pricing: the number of deposits that got prices, and those that did not. -/
structure PricingReport where
  priced : Nat
  gaps : List PricingGap
  deriving DecidableEq

def PricingGap.toJson (gap : PricingGap) : Json :=
  .object [("deposit", gap.deposit.toJson), ("reason", .string gap.cause.message)]

def PricingReport.toJson (report : PricingReport) : Json :=
  .object [("priced", .nat report.priced), ("gaps", .array (report.gaps.map PricingGap.toJson))]

/-- Whether a deposit is due for pricing. -/
def Deposit.awaitsPrice (d : Deposit) : Bool := d.isFilled && !d.isPriced

namespace Ledger

/-- The price of a symbol on a day, or the cause why there is none. -/
def quote (ledger : Ledger) (symbol : String) (date : Date) : Except GapCause MarketPrice :=
  match ledger.price? symbol date with
  | some price => .ok price
  | none => .error (.noPrice symbol date)

/-- Whether the text of a price is a decimal. -/
def isReadable (price : MarketPrice) : Bool := (Decimal.ofText? price.usd).isSome

/-- The prices for a deposit, or the first cause why there are none. -/
def pricesFor (ledger : Ledger) (rewardToken : Address) (rewardChainId : Nat) (d : Deposit) :
    Except GapCause PriceSnapshot := do
  let date := d.depositDate.date
  let some token := ledger.token? d.inputToken d.originChainId
    | throw (.unknownToken d.inputToken d.originChainId)
  let some reward := ledger.token? rewardToken rewardChainId
    | throw (.unknownRewardToken rewardToken)
  let tokenPrice ← ledger.quote token.priceSymbol date
  let rewardPrice ← ledger.quote reward.priceSymbol date
  if !isReadable tokenPrice || !isReadable rewardPrice then throw (.unreadablePrice date)
  return { tokenSymbol := token.priceSymbol
           decimals := token.decimals
           tokenUsdPrice := tokenPrice.usd
           rewardTokenUsdPrice := rewardPrice.usd
           priceDate := date }

/-- A deposit with prices if it is due for them and they are known. -/
def priced (ledger : Ledger) (rewardToken : Address) (rewardChainId : Nat) (d : Deposit) :
    Deposit :=
  if d.awaitsPrice then
    match ledger.pricesFor rewardToken rewardChainId d with
    | .ok price => d.setPrice price
    | .error _ => d
  else d

/-- Prices every filled deposit that has no prices, as far as they are known. -/
def pricePending (ledger : Ledger) (rewardToken : Address) (rewardChainId : Nat) :
    Ledger × PricingReport :=
  let pending := ledger.deposits.values.filter Deposit.awaitsPrice
  let gaps := pending.filterMap fun d =>
    match ledger.pricesFor rewardToken rewardChainId d with
    | .ok _ => none
    | .error cause => some ⟨d.key, cause⟩
  ({ ledger with deposits := ledger.deposits.mapValues (ledger.priced rewardToken rewardChainId) },
    ⟨pending.length - gaps.length, gaps⟩)

end Ledger

end BridgeRewards
