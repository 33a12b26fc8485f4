import BridgeRewards.Powers
import BridgeRewards.Text.Digits

/-!
# Numbers of double precision

A number with a point or an exponent is kept to double precision, as `m · 2 ^ q` with
`m < 2 ^ 53` and `q ≥ -1074`.  It is written with the fewest decimal digits that read back as the
same number, the nearest of them if there are two; which of two equally near ones is taken is for
the writer to say.  All arithmetic is on natural numbers.
-/

set_option autoImplicit false

namespace BridgeRewards

/-- The magnitude `mantissa · 2 ^ exponent` of a number of double precision. -/
structure Double where
  mantissa : Nat
  exponent : Int
  deriving DecidableEq, Repr

namespace Double

/-- The smallest exponent. -/
def minExponent : Int := -1074

/-- The largest exponent. -/
def maxExponent : Int := 971

/-- The number zero. -/
def zero : Double := ⟨0, minExponent⟩

/-- Where a half goes when it is rounded. -/
inductive Tie
  /-- To the even neighbour. -/
  | toEven
  /-- To the larger neighbour. -/
  | up
  deriving DecidableEq, Repr

/-- A quotient rounded to the nearest natural number, a half as `tie` says. -/
def roundQuotient (tie : Tie) (num den : Nat) : Nat :=
  let q := num / den
  let twice := 2 * (num % den)
  if den < twice ∨ (twice = den ∧ (tie = .up ∨ q % 2 = 1)) then q + 1 else q

/-- The quotient of two natural numbers divided by a power of two, as a new quotient. -/
def shifted (num den : Nat) (exponent : Int) : Nat × Nat :=
  (num * twoTo (-exponent).toNat, den * twoTo exponent.toNat)

/-- The nearest number of double precision to a quotient, unless it is too large; halfway between
two, the one with the even mantissa. -/
def ofQuotient? (num den : Nat) : Option Double :=
  if num = 0 then some zero
  else
    let guess : Int := (num.log2 : Int) - den.log2 - 53
    let (n, d) := shifted num den guess
    let exponent := max minExponent (if twoTo 53 ≤ n / d then guess + 1 else guess)
    let (n, d) := shifted num den exponent
    let m := roundQuotient .toEven n d
    let result : Double := if m = twoTo 53 then ⟨twoTo 52, exponent + 1⟩ else ⟨m, exponent⟩
    if result.exponent ≤ maxExponent then some result else none

/-- The numerator and the denominator of a number. -/
def toQuotient (x : Double) : Nat × Nat :=
  (x.mantissa * twoTo x.exponent.toNat, twoTo (-x.exponent).toNat)

/-- The largest power of ten that is a number of double precision. -/
def maxTens : Nat := 308

/-- The number times a power of ten, the power and the product each rounded. -/
def timesTen? (x : Double) (power : Nat) : Option Double := do
  let (a, b) := x.toQuotient
  let (c, d) := (← ofQuotient? (tenTo power) 1).toQuotient
  ofQuotient? (a * c) (b * d)

/-- The number over a power of ten, the power and the quotient each rounded. -/
def overTen? (x : Double) (power : Nat) : Option Double := do
  let (a, b) := x.toQuotient
  let (c, d) := (← ofQuotient? (tenTo power) 1).toQuotient
  ofQuotient? (a * d) (b * c)

/-- The number over a power of ten that may be taken in several steps. -/
def overTens? : Nat → Double → Nat → Option Double
  | 0, x, _ => some x
  | steps + 1, x, power =>
    if x.mantissa = 0 then some x
    else if power ≤ maxTens then x.overTen? power
    else (x.overTen? maxTens).bind fun y => overTens? steps y (power - maxTens)

/-- The number `significand · 10 ^ exponent`, unless it is too large. -/
def ofDecimal? (significand : Nat) (exponent : Int) : Option Double := do
  let x ← ofQuotient? significand 1
  if x.mantissa = 0 then some x
  else if exponent < 0 then overTens? 4 x (-exponent).toNat
  else if exponent ≤ maxTens then x.timesTen? exponent.toNat
  else none

/-- Whether `digits · 10 ^ power` lies between the middles of a number and its neighbours, the
middles included if the mantissa is even. -/
def readsBack (x : Double) (digits : Nat) (power : Int) : Bool :=
  let unit := twoTo x.exponent.toNat * tenTo (-power).toNat
  let target := 4 * digits * (twoTo (-x.exponent).toNat * tenTo power.toNat)
  let below := if x.mantissa = twoTo 52 ∧ minExponent < x.exponent then 1 else 2
  let low := (4 * x.mantissa - below) * unit
  let high := (4 * x.mantissa + 2) * unit
  if x.mantissa % 2 = 0 then low ≤ target && target ≤ high else low < target && target < high

/-- The fewest digits that read back as a number, tried from `power` downwards. -/
def shortestFrom (tie : Tie) (x : Double) : Nat → Int → Nat × Int
  | 0, power => (x.mantissa, power)
  | fuel + 1, power =>
    let num := x.mantissa * (twoTo x.exponent.toNat * tenTo (-power).toNat)
    let den := twoTo (-x.exponent).toNat * tenTo power.toNat
    let down := num / den
    let downOk := 0 < down && readsBack x down power
    let upOk := readsBack x (down + 1) power
    if downOk && upOk then (roundQuotient tie num den, power)
    else if downOk then (down, power)
    else if upOk then (down + 1, power)
    else shortestFrom tie x fuel (power - 1)

/-- The fewest decimal digits that read back as a number, and the power of ten behind them. -/
def shortest (tie : Tie) (x : Double) : Nat × Int :=
  if x.mantissa = 0 then (0, 0) else shortestFrom tie x 660 309

end Double

end BridgeRewards
