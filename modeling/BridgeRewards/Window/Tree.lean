import BridgeRewards.Merkle.Leaf

/-!
# The tree of a window

The recipients of a window are put in order of their addresses and numbered from zero; each
becomes a leaf and gets its proof.  The tree is refused if there is no recipient, if an address
stands twice, or if some amount is not a natural number below `2 ^ 256`, and these causes are
looked for in this order.
-/

set_option autoImplicit false

namespace BridgeRewards

/-- A recipient's amount. -/
structure Total where
  address : Address
  amount : Decimal
  deriving DecidableEq

/-- A leaf with its proof. -/
structure ProvenLeaf where
  leaf : Leaf
  proof : List Hash32
  deriving DecidableEq

/-- The tree of a window: its root, and its leaves in order. -/
structure WindowTree where
  root : Hash32
  leaves : List ProvenLeaf

namespace WindowTree

/-- The first address that equals the one after it. -/
def firstRepeated : List Total → Option Address
  | a :: b :: rest => if a.address = b.address then some a.address else firstRepeated (b :: rest)
  | _ => none

/-- The totals in order of their addresses. -/
def inOrder (totals : List Total) : List Total :=
  totals.mergeSort fun a b => decide (a.address ≤ b.address)

/-- The leaves of totals that are in order. -/
def number (totals : List Total) : List Leaf :=
  totals.zipIdx.map fun (total, i) => ⟨i, total.address, total.amount⟩

/-- The tree of a list of totals. -/
def build (totals : List Total) : Except RewardError WindowTree := do
  if totals = [] then throw .emptyWindow
  let ordered := inOrder totals
  match firstRepeated ordered with
  | some address => throw (.duplicateRecipient address)
  | none => pure ()
  let leaves := number ordered
  let tree := Merkle.Tree.ofLeaves (← leaves.mapM Leaf.hash)
  let proven ← leaves.zipIdx.mapM fun (leaf, i) => do
    return ⟨leaf, ← tree.proof i⟩
  return ⟨tree.root, proven⟩

/-- The sum of the amounts of all leaves. -/
def total (tree : WindowTree) : Decimal := Decimal.sum (tree.leaves.map (·.leaf.amount))

/-- A leaf with its proof as a document. -/
def leafJson (proven : ProvenLeaf) : Json :=
  .object [("accountIndex", .nat proven.leaf.accountIndex),
    ("address", .string proven.leaf.account.text), ("amount", .string proven.leaf.amount.plain),
    ("proof", .array (proven.proof.map fun h => .string h.text))]

def toJson (tree : WindowTree) : Json :=
  .object [("root", .string tree.root.text), ("total", .string tree.total.plain),
    ("leaves", .array (tree.leaves.map leafJson))]

end WindowTree

end BridgeRewards
