import BridgeRewards.Decimal.Basic
import BridgeRewards.Text.Blank
import BridgeRewards.Text.Digits

/-!
# Reading decimals

The written form of a decimal is a mantissa and, after `e` or `E`, an exponent.  The first point
of the mantissa is taken out of it, and the characters behind the point, underscores apart, count
as places.  What remains has to be an integer: a sign, a digit, then digits and underscores,
which are ignored.
-/

set_option autoImplicit false

namespace BridgeRewards.Decimal

/-- Digits and underscores as a number; the underscores count for nothing. -/
def readSpacedDigits (cs : List Char) : Option Nat :=
  cs.foldlM (fun acc c => if c = '_' then some acc else (Text.digitValue? c).map (acc * 10 + ·)) 0

/-- A number that starts with a digit, after at most one plus sign. -/
def readMagnitude (cs : List Char) : Option Nat :=
  let body := match cs with
    | '+' :: rest => rest
    | _ => cs
  match body with
  | [] => none
  | '_' :: _ => none
  | _ => readSpacedDigits body

/-- An integer with underscores between its digits, after at most one sign. -/
def readMantissa : List Char → Option Int
  | '-' :: '+' :: _ => none
  | '-' :: rest => (readMagnitude rest).map fun n => -(n : Int)
  | cs => (readMagnitude cs).map Int.ofNat

/-- The bound that the magnitude of an exponent has to stay below. -/
def exponentBound : Nat := twoTo 127

/-- An exponent: digits after at most one sign. -/
def readExponent (cs : List Char) : Option Int :=
  match cs with
  | [] => none
  | '-' :: [] => none
  | '+' :: [] => none
  | '-' :: rest => ((Text.readBounded (exponentBound + 1) 0 rest).toOption).map fun n => -(n : Int)
  | '+' :: rest => ((Text.readBounded exponentBound 0 rest).toOption).map Int.ofNat
  | rest => ((Text.readBounded exponentBound 0 rest).toOption).map Int.ofNat

/-- The text before the first exponent mark and the exponent behind it, zero if there is none. -/
def splitExponent (cs : List Char) : Option (List Char × Int) :=
  let isMark := fun c => c == 'e' || c == 'E'
  match cs.dropWhile (!isMark ·) with
  | [] => some (cs, 0)
  | _ :: exponent => (readExponent exponent).map fun e => (cs.takeWhile (!isMark ·), e)

/-- The text without its first point, and the number of characters behind it that are no
underscores. -/
def splitPoint (cs : List Char) : List Char × Nat :=
  match cs.dropWhile (· != '.') with
  | [] => (cs, 0)
  | _ :: fraction => (cs.takeWhile (· != '.') ++ fraction, (fraction.filter (· != '_')).length)

/-- The scales that a written decimal may have. -/
def scaleInRange (scale : Int) : Bool := -(twoTo 63 : Int) ≤ scale && scale < twoTo 63

/-- The decimal that a list of characters denotes. -/
def ofChars? (cs : List Char) : Option Decimal := do
  let (base, exponent) ← splitExponent cs
  if base = [] then none
  else
    let (digits, places) := splitPoint base
    let scale := (places : Int) - exponent
    if scaleInRange scale then (readMantissa digits).map (⟨·, scale⟩) else none

/-- The decimal that a text denotes, blanks at its ends left out. -/
def ofText? (s : String) : Option Decimal := ofChars? (Text.trimChars s.toList)

end BridgeRewards.Decimal
