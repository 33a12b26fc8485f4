import BridgeRewards.Json.Fields
import BridgeRewards.Order

/-!
# Event keys

A log record is known by its chain, the hash of its transaction and its place in the log.  Keys
are ordered part by part.  `EventKey.new` writes the hash in lower case; a key that is read from
a document keeps the hash as it stands there.
-/

set_option autoImplicit false

namespace BridgeRewards

/-- The place of a log record. -/
structure EventKey where
  chainId : Nat
  transactionHash : String
  logIndex : Nat
  deriving DecidableEq, Repr

namespace EventKey

/-- The key with the hash of the transaction in lower case. -/
def new (chainId : Nat) (transactionHash : String) (logIndex : Nat) : EventKey :=
  ⟨chainId, Text.lowerAscii transactionHash, logIndex⟩

/-- The parts by which keys are ordered. -/
def parts (key : EventKey) : Nat × (String × Nat) :=
  (key.chainId, (key.transactionHash, key.logIndex))

instance : Ord EventKey where
  compare := compareOn parts

instance : Std.TransOrd EventKey := inferInstanceAs (Std.TransCmp (compareOn parts))

instance : Std.LawfulEqOrd EventKey := lawfulEqOrd_compareOn fun a b h => by
  cases a; cases b; simp_all [parts]

/-- A key as text, its parts with colons between them. -/
def text (key : EventKey) : String :=
  toString key.chainId ++ ":" ++ key.transactionHash ++ ":" ++ toString key.logIndex

/-- The key among the fields of a record. -/
def ofFields? (fields : Json.Fields) : Option EventKey := do
  return { chainId := ← fields.required "chainId" Json.asNat64?
           transactionHash := ← fields.required "transactionHash" Json.asString?
           logIndex := ← fields.required "logIndex" Json.asNat32? }

/-- The key that a document gives. -/
def ofJson? (json : Json) : Option EventKey := do
  ofFields? (← json.asFields? ["chainId", "transactionHash", "logIndex"])

end EventKey

/-- Where and when a log record was written. -/
structure EventMeta where
  key : EventKey
  blockNumber : Nat
  timestamp : Instant
  deriving DecidableEq

namespace EventMeta

/-- The place and time that a document gives; the parts of the key stand among its members. -/
def ofJson? (json : Json) : Option EventMeta := do
  let fields ← json.asNamedFields?
    ["chainId", "transactionHash", "logIndex", "blockNumber", "timestamp"]
  return { key := ← EventKey.ofFields? fields
           blockNumber := ← fields.required "blockNumber" Json.asNat64?
           timestamp := ← fields.required "timestamp" Json.asInstant? }

def toJson (m : EventMeta) : Json :=
  .object [("chainId", .nat m.key.chainId), ("transactionHash", .string m.key.transactionHash),
    ("logIndex", .nat m.key.logIndex), ("blockNumber", .nat m.blockNumber),
    ("timestamp", .string m.timestamp.text)]

end EventMeta

end BridgeRewards
