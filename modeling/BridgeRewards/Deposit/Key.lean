import BridgeRewards.Json.Fields
import BridgeRewards.Order

/-!
# Deposit keys

A deposit is known by the chain on which it was made and its number there.  Keys are ordered by
chain and then by number.
-/

set_option autoImplicit false

namespace BridgeRewards

/-- A deposit's chain of origin and its number there. -/
structure DepositKey where
  originChainId : Nat
  depositId : Nat
  deriving DecidableEq, Repr

namespace DepositKey

/-- The parts by which keys are ordered. -/
def parts (key : DepositKey) : Nat × Nat := (key.originChainId, key.depositId)

instance : Ord DepositKey where
  compare := compareOn parts

instance : Std.TransOrd DepositKey := inferInstanceAs (Std.TransCmp (compareOn parts))

instance : Std.LawfulEqOrd DepositKey := lawfulEqOrd_compareOn fun a b h => by
  cases a; cases b; simp_all [parts]

/-- A key as text, its parts with a colon between them. -/
def text (key : DepositKey) : String := toString key.originChainId ++ ":" ++ toString key.depositId

/-- The key that a document gives. -/
def ofJson? (json : Json) : Option DepositKey := do
  let fields ← json.asFields? ["originChainId", "depositId"]
  return { originChainId := ← fields.required "originChainId" Json.asNat64?
           depositId := ← fields.required "depositId" Json.asNat64? }

def toJson (key : DepositKey) : Json :=
  .object [("originChainId", .nat key.originChainId), ("depositId", .nat key.depositId)]

end DepositKey

end BridgeRewards
