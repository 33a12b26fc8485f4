import BridgeRewards.Decimal.Basic
import Mathlib.Algebra.Order.Field.Basic
import Mathlib.Data.Rat.Cast.Order
import Mathlib.Tactic.NormNum
import Mathlib.Tactic.Ring

/-!
# The numbers that decimals stand for

A decimal stands for a rational number.  Equality of numbers and order of decimals are those of
the rational numbers (`same_iff_value_eq`, `lt_iff_value_lt`), sums and products are theirs, and a
decimal is an integer exactly when its number is one, in which case cutting off the fraction does
not change the number (`value_of_isInteger`).  What is left of a fraction over a power of ten is a
quotient of integers, whatever the scale at which the fraction is written (`truncated_of_fraction`).
-/

set_option autoImplicit false

namespace BridgeRewards.Decimal

/-- The rational number that a decimal stands for. -/
def value (x : Decimal) : ℚ := x.mantissa * (10 : ℚ) ^ (-x.scale)

theorem zpow_ten_pos (n : Int) : (0 : ℚ) < 10 ^ n := zpow_pos (by norm_num) n

theorem cast_tenTo (n : Nat) : ((tenTo n : Int) : ℚ) = (10 : ℚ) ^ (n : Int) := by
  simp [tenTo]

/-- The mantissa at a scale is the number times that power of ten. -/
theorem mantissaAt_eq_value {x : Decimal} {scale : Int} (h : x.scale ≤ scale) :
    (x.mantissaAt scale : ℚ) = x.value * (10 : ℚ) ^ scale := by
  have places : ((scale - x.scale).toNat : Int) = -x.scale + scale := by omega
  rw [mantissaAt_eq, Int.cast_mul, cast_tenTo, places, zpow_add₀ (by norm_num), value, mul_assoc]

theorem mantissaAt_commonScale_left (x y : Decimal) :
    (x.mantissaAt (commonScale x y) : ℚ) = x.value * (10 : ℚ) ^ commonScale x y :=
  mantissaAt_eq_value (Int.le_max_left _ _)

theorem mantissaAt_commonScale_right (x y : Decimal) :
    (y.mantissaAt (commonScale x y) : ℚ) = y.value * (10 : ℚ) ^ commonScale x y :=
  mantissaAt_eq_value (Int.le_max_right _ _)

theorem same_iff_value_eq (x y : Decimal) : Same x y ↔ x.value = y.value := by
  have positive := zpow_ten_pos (commonScale x y)
  have left := mantissaAt_commonScale_left x y
  have right := mantissaAt_commonScale_right x y
  rw [Same, ← Int.cast_inj (α := ℚ), left, right, mul_left_inj' positive.ne']

theorem lt_iff_value_lt (x y : Decimal) : x < y ↔ x.value < y.value := by
  have positive := zpow_ten_pos (commonScale x y)
  have left := mantissaAt_commonScale_left x y
  have right := mantissaAt_commonScale_right x y
  show x.mantissaAt (commonScale x y) < y.mantissaAt (commonScale x y) ↔ _
  rw [← Int.cast_lt (R := ℚ), left, right, mul_lt_mul_iff_left₀ positive]

theorem le_iff_value_le (x y : Decimal) : x ≤ y ↔ x.value ≤ y.value := by
  rw [le_iff_not_lt, lt_iff_value_lt, not_lt]

@[simp] theorem value_ofInt (n : Int) : (ofInt n).value = n := by
  simp [value, ofInt]

@[simp] theorem value_zero : (0 : Decimal).value = 0 := value_ofInt 0

theorem value_powerOfTen (exponent : Nat) : (powerOfTen exponent).value = 10 ^ exponent := by
  simp [value, powerOfTen]

theorem value_inversePowerOfTen (exponent : Nat) :
    (inversePowerOfTen exponent).value = ((10 : ℚ) ^ exponent)⁻¹ := by
  simp [value, inversePowerOfTen]

theorem value_add (x y : Decimal) : (x + y).value = x.value + y.value := by
  have left := mantissaAt_commonScale_left x y
  have right := mantissaAt_commonScale_right x y
  show ((x.mantissaAt (commonScale x y) + y.mantissaAt (commonScale x y) : Int) : ℚ) *
    10 ^ (-commonScale x y) = _
  rw [Int.cast_add, left, right, ← add_mul, mul_assoc, ← zpow_add₀ (by norm_num)]
  simp

theorem value_mul (x y : Decimal) : (x * y).value = x.value * y.value := by
  show ((x.mantissa * y.mantissa : Int) : ℚ) * 10 ^ (-(x.scale + y.scale)) = _
  rw [Int.cast_mul, neg_add, zpow_add₀ (by norm_num), value, value]
  ring

theorem isZero_iff_value_eq (x : Decimal) : x.isZero = true ↔ x.value = 0 := by
  simp [isZero, value, zpow_ne_zero]

theorem value_neg (x : Decimal) : (-x).value = -x.value := by
  show ((-x.mantissa : Int) : ℚ) * 10 ^ (-x.scale) = _
  rw [Int.cast_neg, neg_mul, value]

/-- A difference is the difference of the numbers, also where one of them is zero. -/
theorem value_sub (x y : Decimal) : (x - y).value = x.value - y.value := by
  show (sub x y).value = _
  unfold sub
  split
  case isTrue zero => rw [(isZero_iff_value_eq y).mp zero, sub_zero]
  case isFalse =>
    split
    case isTrue zero =>
      rw [(isZero_iff_value_eq x).mp zero, zero_sub]
      exact value_neg y
    case isFalse =>
      show (x + -y).value = _
      rw [value_add, value_neg, sub_eq_add_neg]

theorem value_of_isInteger {x : Decimal} (h : x.isInteger = true) : x.value = x.truncated := by
  by_cases flat : x.scale ≤ 0
  · have places : ((-x.scale).toNat : Int) = -x.scale := by omega
    rw [truncated_of_scale_nonpos flat, Int.cast_mul, cast_tenTo, places, value]
  · have places : ((x.scale).toNat : Int) = x.scale := by omega
    obtain ⟨quotient, split⟩ := ((isInteger_iff x).mp h).resolve_left flat
    have positive : (0 : Int) < tenTo x.scale.toNat := by exact_mod_cast tenTo_pos _
    rw [truncated_of_scale_pos (by omega), value, split, Int.mul_tdiv_cancel_left _ positive.ne',
      Int.cast_mul, cast_tenTo, places, mul_right_comm, ← zpow_add₀ (by norm_num)]
    simp

/-- The integer part of a fraction over a power of ten is the quotient cut off toward zero, at
whatever scale the fraction is written. -/
theorem truncated_of_fraction {x : Decimal} {n : ℤ} (places : Nat)
    (fraction : x.value * 10 ^ places = n) : x.truncated = n.tdiv (tenTo places) := by
  have positive : ∀ count : Nat, (0 : ℤ) < tenTo count := fun count => by
    exact_mod_cast tenTo_pos count
  by_cases flat : x.scale ≤ 0
  · have whole := value_of_isInteger ((isInteger_iff x).mpr (.inl flat))
    have split : n = x.truncated * tenTo places := by
      rw [whole, ← zpow_natCast, ← cast_tenTo] at fraction
      exact_mod_cast fraction.symm
    rw [split, Int.mul_tdiv_cancel _ (positive places).ne']
  · have scale : ((x.scale.toNat : Nat) : ℤ) = x.scale := by omega
    have cross : x.mantissa * tenTo places = n * tenTo x.scale.toNat := by
      rw [← Int.cast_inj (α := ℚ), Int.cast_mul, Int.cast_mul, ← fraction, cast_tenTo, cast_tenTo,
        scale, value, zpow_natCast, mul_right_comm _ _ ((10 : ℚ) ^ x.scale),
        mul_assoc x.mantissa.cast, ← zpow_add₀ (by norm_num), neg_add_cancel, zpow_zero, mul_one]
    rw [truncated_of_scale_pos (by omega), ← Int.mul_tdiv_mul_of_pos_left _ _ (positive places),
      cross, mul_comm (tenTo x.scale.toNat : ℤ), Int.mul_tdiv_mul_of_pos_left _ _ (positive _)]

end BridgeRewards.Decimal
