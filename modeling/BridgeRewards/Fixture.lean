import BridgeRewards.Event.Document
import BridgeRewards.Ledger.Delivery

/-!
# Fixtures

A fixture is a document that stands in for an index of the chains: tokens, daily prices, and
records in the order of their delivery.  Each of the three may be absent.
-/

set_option autoImplicit false

namespace BridgeRewards

/-- Tokens, prices and records to start from. -/
structure Fixture where
  tokens : List Token
  prices : List MarketPrice
  events : List Event

namespace Fixture

/-- The fixture that a document gives. -/
def ofJson? (json : Json) : Option Fixture := do
  let fields ← json.asFields? ["tokens", "prices", "events"]
  return { tokens := ← fields.defaulted "tokens" [] (Json.asList? Token.ofJson?)
           prices := ← fields.defaulted "prices" [] (Json.asList? MarketPrice.ofJson?)
           events := ← fields.defaulted "events" [] (Json.asList? Event.ofJson?) }

/-- The ledger with the tokens and prices of a fixture; prices that are there already stay. -/
def enterMarket (fixture : Fixture) (ledger : Ledger) : Ledger :=
  let withTokens := fixture.tokens.foldl Ledger.putToken ledger
  fixture.prices.foldl (fun ledger price => (ledger.insertPrice price).getD ledger) withTokens

/-- Enters the tokens and prices of a fixture and delivers its records. -/
def load (fixture : Fixture) (lpFeeCap : Decimal) (ledger : Ledger) :
    Ledger × Except RewardError DeliveryCount :=
  (fixture.enterMarket ledger).deliverAll lpFeeCap fixture.events

end Fixture

end BridgeRewards
