import BridgeRewards.Json.Fields

/-!
# Tokens and prices

A token is known by its address and chain, a price by the symbol of a token and a day.  Symbols
are compared in upper case.
-/

set_option autoImplicit false

namespace BridgeRewards

/-- A token on a chain. -/
structure Token where
  address : Address
  chainId : Nat
  symbol : String
  decimals : Nat
  deriving DecidableEq

/-- What a token cost on a day. -/
structure MarketPrice where
  symbol : String
  date : Date
  usd : String
  deriving DecidableEq

namespace Token

/-- The symbol under which a token's prices are known. -/
def priceSymbol (token : Token) : String := Text.upperAscii token.symbol

/-- The token that a document gives. -/
def ofJson? (json : Json) : Option Token := do
  let fields ← json.asFields? ["address", "chainId", "symbol", "decimals"]
  return { address := ← fields.required "address" Json.asAddress?
           chainId := ← fields.required "chainId" Json.asNat64?
           symbol := ← fields.required "symbol" Json.asString?
           decimals := ← fields.required "decimals" Json.asNat32? }

def toJson (token : Token) : Json :=
  .object [("address", .string token.address.text), ("chainId", .nat token.chainId),
    ("symbol", .string token.symbol), ("decimals", .nat token.decimals)]

end Token

namespace MarketPrice

/-- The price of a token whose symbol is put in upper case. -/
def new (symbol : String) (date : Date) (usd : String) : MarketPrice :=
  ⟨Text.upperAscii symbol, date, usd⟩

/-- The price that a document gives; its symbol stays as it is written. -/
def ofJson? (json : Json) : Option MarketPrice := do
  let fields ← json.asFields? ["symbol", "date", "usd"]
  return { symbol := ← fields.required "symbol" Json.asString?
           date := ← fields.required "date" Json.asDate?
           usd := ← fields.required "usd" Json.asString? }

def toJson (price : MarketPrice) : Json :=
  .object [("symbol", .string price.symbol), ("date", .string price.date.text),
    ("usd", .string price.usd)]

end MarketPrice

end BridgeRewards
