import BridgeRewards.Decimal.Basic
import BridgeRewards.Text.Digits

/-!
# Division to a fixed number of digits

The quotient of two decimals, exact where it has at most one hundred significant digits and
otherwise rounded half up, in magnitude, at the hundredth digit.  An integer part that is already
longer keeps all its digits and is rounded at the point.  The division by zero is zero; callers
ask first.
-/

set_option autoImplicit false

namespace BridgeRewards.Decimal

/-- The number of significant digits that a quotient is carried to. -/
def quotientDigits : Nat := 100

/-- The numerator multiplied by ten until it reaches the denominator, and how often that was. -/
def scaleUp (num den : Nat) : Nat × Nat :=
  if _h : 0 < num ∧ num < den then
    let (n, k) := scaleUp (num * 10) den
    (n, k + 1)
  else (num, 0)
termination_by den - num
decreasing_by omega

/-- A quotient under construction: its digits so far, the remainder and the number of digits
behind the point. -/
structure LongDivision where
  quotient : Nat
  remainder : Nat
  places : Nat

/-- Appends up to `steps` further digits, and stops at a remainder of zero. -/
def LongDivision.extend (den : Nat) : Nat → LongDivision → LongDivision
  | 0, d => d
  | steps + 1, d =>
    if d.remainder = 0 then d
    else extend den steps
      ⟨d.quotient * 10 + d.remainder * 10 / den, d.remainder * 10 % den, d.places + 1⟩

/-- The quotient, one higher in its last digit if the next digit is at least five. -/
def LongDivision.rounded (den : Nat) (d : LongDivision) : Nat :=
  if 5 ≤ d.remainder * 10 / den then d.quotient + 1 else d.quotient

/-- The quotient of two positive numbers and the number of its digits behind the point. -/
def divideNat (num den : Nat) : Nat × Nat :=
  let (n, k) := scaleUp num den
  let first : LongDivision := ⟨n / den, n % den, k⟩
  let last := first.extend den (quotientDigits - (Text.digits first.quotient).length)
  (last.rounded den, last.places)

/-- The quotient of two decimals. -/
def divide (x y : Decimal) : Decimal :=
  if x.mantissa = 0 ∨ y.isShortOne then x
  else if x.mantissa = y.mantissa then ⟨1, x.scale - y.scale⟩
  else
    let (q, places) := divideNat x.mantissa.natAbs y.mantissa.natAbs
    ⟨x.mantissa.sign * y.mantissa.sign * q, x.scale - y.scale + places⟩

instance : Div Decimal := ⟨divide⟩

end BridgeRewards.Decimal
