import BridgeRewards.Decimal.Basic
import BridgeRewards.Text.Digits

/-!
# Decimals as text

The plain form of a decimal has no exponent and no trailing zero behind the point, so that equal
numbers have one plain form.  The detailed form, which messages use, keeps the scale: it shows
the zeros behind the point and turns to an exponent when many zeros would have to be filled in.
-/

set_option autoImplicit false

namespace BridgeRewards.Decimal

/-- The minus sign of a negative number. -/
def signChars (n : Int) : List Char := if n < 0 then ['-'] else []

/-- The digits of a mantissa with `places` of them behind the point. -/
def pointed (digits : List Char) (places : Nat) : List Char :=
  if places = 0 then digits
  else if places < digits.length then
    digits.take (digits.length - places) ++ '.' :: digits.drop (digits.length - places)
  else '0' :: '.' :: (List.replicate (places - digits.length) '0' ++ digits)

/-- The number written with as many digits behind the point as its scale says, or with the zeros
that a negative scale stands for. -/
def positionalChars (x : Decimal) : List Char :=
  let digits := Text.digits x.mantissa.natAbs
  signChars x.mantissa ++
    if x.scale ≤ 0 then digits ++ List.replicate (-x.scale).toNat '0'
    else pointed digits x.scale.toNat

/-- The plain form, as a list of characters. -/
def plainChars (x : Decimal) : List Char := positionalChars x.normalized

/-- The plain form: positional, without trailing zeros behind the point, `0` for zero. -/
def plain (x : Decimal) : String := String.ofList (plainChars x)

/-- How many zeros may follow the point before the first digit in a positional detailed form. -/
def maxLeadingZeros : Int := 5

/-- How many zeros a positional detailed form may fill in behind the mantissa. -/
def maxTrailingZeros : Int := 15

/-- The detailed form, as a list of characters: one digit before the point and an exponent after
`E-` for small numbers, the mantissa and an exponent after `e+` for large ones, positional
otherwise. -/
def detailedChars (x : Decimal) : List Char :=
  let digits := Text.digits x.mantissa.natAbs
  if x.mantissa = 0 then ['0']
  else if maxLeadingZeros < x.scale - digits.length then
    signChars x.mantissa ++ pointed digits (digits.length - 1) ++
      'E' :: '-' :: Text.digits (x.scale - digits.length + 1).toNat
  else if maxTrailingZeros < -x.scale then
    signChars x.mantissa ++ digits ++ 'e' :: '+' :: Text.digits (-x.scale).toNat
  else positionalChars x

/-- The detailed form, which keeps the scale. -/
def detailed (x : Decimal) : String := String.ofList (detailedChars x)

end BridgeRewards.Decimal
