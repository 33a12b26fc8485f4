import BridgeRewards.Powers

/-!
# Decimal digits

Writing a natural number in decimal digits, and reading one below a bound.  A reader refuses a
text for one of three causes, and the cause is decided at the first character at which the text
goes wrong: `readBounded` looks at a character before it looks at the size of what it has read.

Numbers may have very many digits, and the higher half of the digits is written apart from the
lower half.  `digits_eq` says that this comes to the digits one by one.
-/

set_option autoImplicit false

namespace BridgeRewards.Text

/-- Why a text is not a natural number below a bound. -/
inductive NumberFault
  /-- There is no character at all. -/
  | empty
  /-- A character is no decimal digit. -/
  | invalidDigit
  /-- The number reached the bound. -/
  | tooLarge
  deriving DecidableEq, Repr

/-- The wording of a number fault. -/
def NumberFault.message : NumberFault → String
  | .empty => "cannot parse integer from empty string"
  | .invalidDigit => "invalid digit found in string"
  | .tooLarge => "number too large to fit in target type"

/-- The value of an ASCII decimal digit. -/
def digitValue? (c : Char) : Option Nat :=
  if c.isDigit then some (c.toNat - '0'.toNat) else none

/-- The number that a list of digits adds to what was read before it, kept below `bound`. -/
def readBounded (bound : Nat) : Nat → List Char → Except NumberFault Nat
  | read, [] => .ok read
  | read, c :: rest =>
    match digitValue? c with
    | none => .error .invalidDigit
    | some d => if read * 10 + d < bound then readBounded bound (read * 10 + d) rest
      else .error .tooLarge

/-- A natural number below `bound`: digits, after at most one plus sign. -/
def readNatural (bound : Nat) (s : String) : Except NumberFault Nat :=
  match s.toList with
  | [] => .error .empty
  | '+' :: c :: rest => readBounded bound 0 (c :: rest)
  | cs => readBounded bound 0 cs

/-- The bound of 64-bit numbers. -/
abbrev bound64 : Nat := twoTo 64

/-- The bound of 32-bit numbers. -/
abbrev bound32 : Nat := twoTo 32

/-! ## Writing -/

/-- The lowest `2 ^ level` decimal digits of a number. -/
def lowDigits : Nat → Nat → List Char
  | 0, n => [Nat.digitChar (n % 10)]
  | level + 1, n =>
    let unit := tenTo (twoTo level)
    lowDigits level (n / unit) ++ lowDigits level (n % unit)

/-- The decimal digits of a natural number, without leading zeros. -/
def digits (n : Nat) : List Char :=
  if n = 0 then ['0'] else (lowDigits (n.log2.log2 + 1) n).dropWhile (· == '0')

/-- The lowest `width` decimal digits of a number, one by one. -/
def lastDigits : Nat → Nat → List Char
  | 0, _ => []
  | width + 1, n => lastDigits width (n / 10) ++ [Nat.digitChar (n % 10)]

theorem lastDigits_add (high low n : Nat) :
    lastDigits (high + low) n =
      lastDigits high (n / tenTo low) ++ lastDigits low (n % tenTo low) := by
  induction low generalizing n with
  | zero => simp [lastDigits]
  | succ low ih =>
    have hdiv : n / 10 / tenTo low = n / tenTo (low + 1) := by
      rw [tenTo_succ, Nat.div_div_eq_div_mul]
    have hmod : n / 10 % tenTo low = n % tenTo (low + 1) / 10 := by
      rw [tenTo_succ, Nat.mod_mul_right_div_self]
    have hlast : n % 10 = n % tenTo (low + 1) % 10 := by
      rw [tenTo_succ, Nat.mod_mul_right_mod]
    rw [← Nat.add_assoc, lastDigits, lastDigits, ih, hdiv, hmod, hlast, List.append_assoc]

theorem lowDigits_eq (level n : Nat) : lowDigits level n = lastDigits (twoTo level) n := by
  induction level generalizing n with
  | zero => rfl
  | succ level ih => rw [lowDigits, ih, ih, ← lastDigits_add, twoTo_succ, Nat.two_mul]

theorem lastDigits_zero (width : Nat) : lastDigits width 0 = List.replicate width '0' := by
  induction width with
  | zero => rfl
  | succ width ih => rw [lastDigits, Nat.zero_div, ih, List.replicate_succ']; rfl

/-- Enough of the last digits of a positive number are its digits behind leading zeros. -/
theorem dropWhile_lastDigits {width n : Nat} (pos : 0 < n) (h : n < tenTo width) :
    (lastDigits width n).dropWhile (· == '0') = Nat.toDigits 10 n := by
  induction width generalizing n with
  | zero => simp at h; omega
  | succ width ih =>
    rw [lastDigits, List.dropWhile_append, Nat.toDigits_eq_if (by decide)]
    by_cases small : n < 10
    · have nonzero : ∀ m < 10, 0 < m → (m.digitChar == '0') = false := by decide
      rw [Nat.div_eq_of_lt small, lastDigits_zero, Nat.mod_eq_of_lt small, if_pos small]
      simp [nonzero n small pos]
    · rw [if_neg small, ih (by omega) (by rw [tenTo_succ] at h; omega)]
      simp [Nat.toDigits_ne_nil]

/-- Writing the halves apart comes to the digits one by one. -/
theorem digits_eq (n : Nat) : digits n = Nat.toDigits 10 n := by
  unfold digits
  split
  case isTrue h => rw [h, Nat.toDigits_zero]
  case isFalse h =>
    rw [lowDigits_eq, dropWhile_lastDigits (Nat.pos_of_ne_zero h) (lt_tenTo_twoTo_log2 n)]

/-- The number that a list of decimal digits denotes. -/
def digitsValue (cs : List Char) : Nat := cs.foldl (fun acc c => acc * 10 + (c.toNat - '0'.toNat)) 0

/-- A natural number in at least `width` digits, with leading zeros where it is shorter. -/
def padded (width n : Nat) : List Char :=
  List.replicate (width - (digits n).length) '0' ++ digits n

end BridgeRewards.Text
