import BridgeRewards.Bytes
import BridgeRewards.Text.Blank
import BridgeRewards.Text.Hex

/-!
# Account addresses

An address is a number below `2 ^ 160`, written as 40 lower-case hexadecimal digits after `0x`.
Its order is that of the numbers, which is also the order of the written forms and of the
big-endian bytes.
-/

set_option autoImplicit false

namespace BridgeRewards

/-- An account or contract on a chain, as the number that its 20 bytes denote. -/
structure Address where
  value : Nat
  value_lt : value < twoTo 160
  deriving DecidableEq

namespace Address

@[ext] theorem ext {a b : Address} (h : a.value = b.value) : a = b := by
  cases a; cases b; simp_all

/-- The address whose bytes are all zero. -/
def zero : Address := ⟨0, twoTo_pos 160⟩

/-- Whether all bytes are zero. -/
def isZero (a : Address) : Bool := a.value == 0

/-- The 20 bytes of an address. -/
def bytes (a : Address) : List UInt8 := Bytes.ofNat 20 a.value

instance : Ord Address where
  compare a b := compare a.value b.value

instance : LE Address where
  le a b := a.value ≤ b.value

instance : LT Address where
  lt a b := a.value < b.value

instance (a b : Address) : Decidable (a ≤ b) := inferInstanceAs (Decidable (a.value ≤ b.value))

instance (a b : Address) : Decidable (a < b) := inferInstanceAs (Decidable (a.value < b.value))

instance : Std.TransOrd Address where
  eq_swap {a b} := Std.OrientedOrd.eq_swap (a := a.value) (b := b.value)
  isLE_trans {a b c} := Std.TransOrd.isLE_trans (a := a.value) (b := b.value) (c := c.value)

instance : Std.LawfulEqOrd Address where
  compare_self {a} := Std.compare_self (a := a.value)
  eq_of_compare h := ext (Std.LawfulEqOrd.eq_of_compare h)

/-- An address as text: `0x` and 40 digits. -/
def text (a : Address) : String := String.ofList ('0' :: 'x' :: Text.hexDigits 40 a.value)

/-- The address that a text denotes: blanks at both ends are dropped, then `0x` or `0X` and
exactly 40 hexadecimal digits of either case are required. -/
def ofText? (s : String) : Option Address :=
  let digits := match Text.trimChars s.toList with
    | '0' :: 'x' :: rest => some rest
    | '0' :: 'X' :: rest => some rest
    | _ => none
  digits.bind fun ds =>
    if ds.length = 40 then
      (Text.readHex ds).bind fun n => if h : n < twoTo 160 then some ⟨n, h⟩ else none
    else none

end Address

end BridgeRewards
