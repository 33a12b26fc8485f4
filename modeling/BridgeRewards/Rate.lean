import BridgeRewards.Decimal.Plain

/-!
# Rates

Rates, multipliers and thresholds are decimals with a magnitude below `2 ^ 96` and at most 28
places.  They keep the places they were written with, so `0.80` stays `0.80`; a text with more
digits than fit is rounded half up at the last digit that does, and behind it only digits and
underscores may follow.  A zero loses its sign when it is read, but keeps the sign of a number
that an exponent has rounded to zero.
-/

set_option autoImplicit false

namespace BridgeRewards

/-- A decimal of bounded size that keeps its written places. -/
structure Rate where
  negative : Bool
  magnitude : Nat
  places : Nat
  magnitude_lt : magnitude < twoTo 96
  places_le : places ≤ 28
  deriving DecidableEq

namespace Rate

/-- The bound of a magnitude. -/
def magnitudeBound : Nat := twoTo 96

/-- The largest number of places. -/
def maxPlaces : Nat := 28

/-- The digits of a rate with its sign, as an integer. -/
def mantissa (r : Rate) : Int := if r.negative then -r.magnitude else r.magnitude

/-- A rate as an exact decimal. -/
def toDecimal (r : Rate) : Decimal := ⟨r.mantissa, r.places⟩

instance : LT Rate where
  lt a b := a.toDecimal < b.toDecimal

instance : LE Rate where
  le a b := a.toDecimal ≤ b.toDecimal

instance (a b : Rate) : Decidable (a < b) :=
  inferInstanceAs (Decidable (a.toDecimal < b.toDecimal))

instance (a b : Rate) : Decidable (a ≤ b) :=
  inferInstanceAs (Decidable (a.toDecimal ≤ b.toDecimal))

/-- The rate whose digits make up a small number, with up to 28 of them behind the point. -/
def ofSmall (digits : UInt32) (places : Nat) : Rate where
  negative := false
  magnitude := digits.toNat
  places := min places 28
  magnitude_lt := Nat.lt_trans digits.toNat_lt (by decide)
  places_le := Nat.min_le_right places 28

/-- The rate zero. -/
def zero : Rate := ofSmall 0 0

/-- A rate as text, with its sign and all its places. -/
def text (r : Rate) : String :=
  String.ofList ((if r.negative then ['-'] else []) ++
    Decimal.positionalChars ⟨r.magnitude, r.places⟩)

/-- The rate with the given sign, magnitude and places, if they are in range. -/
def ofParts? (negative : Bool) (magnitude places : Nat) : Option Rate :=
  if hm : magnitude < twoTo 96 then
    if hp : places ≤ 28 then some ⟨negative, magnitude, places, hm, hp⟩ else none
  else none

/-- An integer as a rate, if it is in range. -/
def ofInt? (n : Int) : Option Rate := ofParts? (decide (n < 0)) n.natAbs 0

/-! ## Reading -/

/-- What has been read of a rate: the digits so far, whether a point and whether a digit was
among them, and the number of digits behind the point. -/
structure Reading where
  magnitude : Nat
  places : Nat
  point : Bool
  digit : Bool

namespace Reading

/-- Whether there is no room for another place. -/
def isFull (r : Reading) : Bool := r.point && r.places == maxPlaces

/-- The bound of a magnitude whose digits are few. -/
def fewBound : Nat := (twoTo 64 - 1) / 10 - 255

/-- Whether the digits but the last are few. -/
def isShort (r : Reading) : Bool := r.magnitude / 10 < fewBound

/-- The reading with one more digit behind those it has, if the magnitude can take it. -/
def push? (r : Reading) (d : Nat) : Option Reading :=
  if r.magnitude * 10 + d < magnitudeBound then
    some ⟨r.magnitude * 10 + d, if r.point then r.places + 1 else r.places, r.point, true⟩
  else none

/-- The magnitude and places of a reading, rounded up if the first digit that did not fit is at
least five. -/
def rounded (r : Reading) (d : Nat) : Option (Nat × Nat) :=
  if d < 5 then some (r.magnitude, r.places)
  else if r.magnitude + 1 < magnitudeBound then some (r.magnitude + 1, r.places)
  else if r.places = 0 then none
  else some ((r.magnitude + 5) / 10, r.places - 1)

/-- The reading rounded at a digit behind which only digits and underscores may follow. -/
def roundedBefore (r : Reading) (d : Nat) (rest : List Char) : Option (Nat × Nat) :=
  if rest.all fun c => c.isDigit || c == '_' then r.rounded d else none

end Reading

/-- Reads the characters of a rate behind its sign: digits, underscores behind a digit, and one
point.  The result is a magnitude and its places.  Behind the last place that fits an underscore
stands for a zero if the digits before it are few, and for nothing otherwise. -/
def readDigits (r : Reading) : List Char → Option (Nat × Nat)
  | [] => if r.digit then some (r.magnitude, r.places) else none
  | c :: rest =>
    match Text.digitValue? c with
    | some d =>
      if r.isFull then r.roundedBefore d rest
      else
        match r.push? d with
        | some r' => readDigits r' rest
        | none => if r.point then r.roundedBefore d rest else none
    | none =>
      if c = '_' then
        if r.isFull && r.isShort then r.roundedBefore 0 rest
        else if r.digit then readDigits r rest
        else none
      else if c = '.' ∧ r.point = false then readDigits { r with point := true } rest
      else none

/-- The reading of a rate before its first digit. -/
def Reading.start : Reading := ⟨0, 0, false, false⟩

/-- The rate whose digits, behind a sign, are given; a zero has no sign. -/
def ofDigits? (negative : Bool) (cs : List Char) : Option Rate :=
  (readDigits .start cs).bind fun (m, p) => ofParts? (negative && m != 0) m p

/-- The rate that a text without an exponent denotes: digits, after at most one sign. -/
def ofPositional? : List Char → Option Rate
  | '-' :: rest => ofDigits? true rest
  | '+' :: rest => ofDigits? false rest
  | cs => ofDigits? false cs

/-- A rate times a power of ten, which takes up its places first. -/
def raised? (r : Rate) (power : Nat) : Option Rate :=
  if power ≤ r.places then ofParts? r.negative r.magnitude (r.places - power)
  else if power ≤ maxPlaces then
    ofParts? r.negative (r.magnitude * tenTo (power - r.places)) 0
  else none

/-- A rate over a power of ten, rounded half up at the last place that fits. -/
def lowered? (r : Rate) (power : Nat) : Option Rate :=
  if maxPlaces < power then none
  else if r.places + power ≤ maxPlaces then ofParts? r.negative r.magnitude (r.places + power)
  else
    let unit := tenTo (r.places + power - maxPlaces)
    ofParts? r.negative ((r.magnitude + unit / 2) / unit) maxPlaces

/-- The rate that a text with an exponent denotes.  The exponent may have a minus sign and then a
plus sign before its digits. -/
def ofScientific? (cs : List Char) : Option Rate := do
  let isMark (c : Char) : Bool := c == 'e' || c == 'E'
  let base ← ofPositional? (cs.takeWhile (!isMark ·))
  let natural (cs : List Char) : Option Nat :=
    (Text.readNatural Text.bound32 (String.ofList cs)).toOption
  match cs.dropWhile (!isMark ·) with
  | [] => none
  | _ :: '-' :: exponent => base.lowered? (← natural exponent)
  | _ :: exponent => base.raised? (← natural exponent)

/-- The rate that a text denotes, with an exponent or without one. -/
def ofText? (s : String) : Option Rate := ofPositional? s.toList <|> ofScientific? s.toList

/-- The rate `± digits · 10 ^ power`. -/
def ofReal? (negative : Bool) (digits : Nat) (power : Int) : Option Rate :=
  ofPositional? (Decimal.positionalChars ⟨if negative then -digits else digits, -power⟩)

end Rate

end BridgeRewards
