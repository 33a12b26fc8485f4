import BridgeRewards.Fee
import BridgeRewards.Merkle.Tree

/-!
# Leaves

A leaf says that the account with some index may claim some amount.  Its packed form, which is
what the contract hashes, is the index as a word of 32 bytes, the 20 bytes of the address and the
amount as a word of 32 bytes: 84 bytes, where a node of the tree hashes 64.
-/

set_option autoImplicit false

namespace BridgeRewards

/-- The natural number below `2 ^ 256` that a decimal is, if it is one. -/
def Decimal.toWord? (x : Decimal) : Option Nat :=
  if x.mantissa < 0 then none
  else if x.isInteger then
    if x.truncated < twoTo 256 then some x.truncated.toNat else none
  else none

/-- A decimal as a word of 32 bytes. -/
def Decimal.word (x : Decimal) : Except RewardError (List UInt8) :=
  match x.toWord? with
  | some n => .ok (Bytes.ofNat 32 n)
  | none => .error (.amountOutOfRange x)

/-- What an account may claim from a window. -/
structure Leaf where
  accountIndex : Nat
  account : Address
  amount : Decimal
  deriving DecidableEq

namespace Leaf

/-- The bytes that stand for a leaf. -/
def packed (leaf : Leaf) : Except RewardError (List UInt8) := do
  let index ← (Decimal.ofInt leaf.accountIndex).word
  let amount ← leaf.amount.word
  return index ++ leaf.account.bytes ++ amount

/-- The hash of a leaf. -/
def hash (leaf : Leaf) : Except RewardError Hash32 := do
  return Hash32.keccak256 (← leaf.packed)

end Leaf

end BridgeRewards
