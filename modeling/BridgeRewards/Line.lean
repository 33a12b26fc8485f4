import BridgeRewards.Json.Fields
import BridgeRewards.Order

/-!
# Distribution lines

Windows are published on lines.  A line is a distributor contract on a chain, and the indices of
its windows are its own.
-/

set_option autoImplicit false

namespace BridgeRewards

/-- A distributor contract on a chain. -/
structure Line where
  chainId : Nat
  contractAddress : Address
  deriving DecidableEq

namespace Line

/-- The parts by which lines are ordered. -/
def parts (line : Line) : Nat × Address := (line.chainId, line.contractAddress)

instance : Ord Line where
  compare := compareOn parts

instance : Std.TransOrd Line := inferInstanceAs (Std.TransCmp (compareOn parts))

instance : Std.LawfulEqOrd Line := lawfulEqOrd_compareOn fun a b h => by
  cases a; cases b; simp_all [parts]

/-- A line as text, its parts with a slash between them. -/
def text (line : Line) : String := toString line.chainId ++ "/" ++ line.contractAddress.text

/-- The line that a document gives. -/
def ofJson? (json : Json) : Option Line := do
  let fields ← json.asFields? ["chainId", "contractAddress"]
  return { chainId := ← fields.required "chainId" Json.asNat64?
           contractAddress := ← fields.required "contractAddress" Json.asAddress? }

end Line

end BridgeRewards
