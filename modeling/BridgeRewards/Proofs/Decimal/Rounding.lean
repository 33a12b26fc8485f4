import BridgeRewards.Proofs.Decimal.Value
import Mathlib.Algebra.Order.Round
import Mathlib.Data.Rat.Floor
import Mathlib.Tactic.Linarith

/-!
# Numbers rounded behind many digits

A number can be rounded half up at a place that leaves one hundred digits or more before it
(`RoundsTo`).  It then differs from the exact one by at most five in the hundred and first digit
(`RoundsTo.error_le`).  It is the exact one if that has no more than one hundred digits
(`RoundsTo.eq_of_isShort`), and it does not fall below an integer that the exact one reaches, nor
pass one that the exact one does not, as long as this integer has no more than one hundred digits
(`RoundsTo.le_of_le`, `RoundsTo.ge_of_ge`).

So the whole part of a number that is not too large either stays or becomes the next integer
(`RoundsTo.floor_eq_or`).  It stays if the fraction leaves room for the error
(`RoundsTo.floor_eq`), as the fraction of a quotient of numbers that are not too large does
(`RoundsTo.room_of_fraction`).
-/

set_option autoImplicit false

namespace BridgeRewards

/-- What a number is rounded to: the number itself, or the nearest one, upwards from the middle,
with so many places that at least one hundred digits are kept. -/
inductive RoundsTo (exact : ℚ) : ℚ → Prop
  | same : RoundsTo exact exact
  | atPlace (place : ℤ) (long : (10 : ℚ) ^ 99 ≤ exact * 10 ^ place) :
      RoundsTo exact (round (exact * 10 ^ place) * 10 ^ (-place))

/-- A number with no more than one hundred significant digits. -/
def IsShort (x : ℚ) : Prop := ∃ digits point : ℤ, |digits| < 10 ^ 100 ∧ x = digits * 10 ^ point

namespace RoundsTo

variable {exact rounded : ℚ}

theorem mul_zpow_neg_cancel (x : ℚ) (place : ℤ) : x * 10 ^ place * 10 ^ (-place) = x := by
  rw [mul_assoc, ← zpow_add₀ (by norm_num), add_neg_cancel, zpow_zero, mul_one]

/-- It does not matter where the point stands. -/
theorem mul_zpow (rounds : RoundsTo exact rounded) (n : ℤ) :
    RoundsTo (exact * 10 ^ n) (rounded * 10 ^ n) := by
  cases rounds with
  | same => exact .same
  | atPlace place long =>
      have moved : exact * 10 ^ n * 10 ^ (place - n) = exact * 10 ^ place := by
        rw [mul_assoc, ← zpow_add₀ (by norm_num), add_sub_cancel]
      have rounds : RoundsTo (exact * 10 ^ n) _ := .atPlace (place - n) (by rwa [moved])
      rw [moved] at rounds
      rwa [mul_assoc, ← zpow_add₀ (by norm_num), show -place + n = -(place - n) by ring]

/-- **The error of rounding** is at most five in the hundred and first digit. -/
theorem error_le (rounds : RoundsTo exact rounded) (nonneg : 0 ≤ exact) :
    |rounded - exact| ≤ exact * (5 / 10 ^ 100) := by
  cases rounds with
  | same =>
      rw [sub_self, abs_zero]
      positivity
  | atPlace place long =>
      have positive := Decimal.zpow_ten_pos (-place)
      have half := abs_sub_round (exact * 10 ^ place)
      have apart : round (exact * 10 ^ place) * (10 : ℚ) ^ (-place) - exact =
          -((exact * 10 ^ place - round (exact * 10 ^ place)) * 10 ^ (-place)) := by
        rw [sub_mul, mul_zpow_neg_cancel, neg_sub]
      have scaled : (10 : ℚ) ^ 99 * 10 ^ (-place) ≤ exact := by
        have := mul_le_mul_of_nonneg_right long positive.le
        rwa [mul_zpow_neg_cancel] at this
      rw [apart, abs_neg, abs_mul, abs_of_pos positive]
      calc |exact * 10 ^ place - round (exact * 10 ^ place)| * (10 : ℚ) ^ (-place)
          ≤ 1 / 2 * 10 ^ (-place) := mul_le_mul_of_nonneg_right half positive.le
        _ = 10 ^ 99 * 10 ^ (-place) * (5 / 10 ^ 100) := by ring
        _ ≤ exact * (5 / 10 ^ 100) := mul_le_mul_of_nonneg_right scaled (by positivity)

theorem le_round {x : ℚ} {n : ℤ} (below : (n : ℚ) ≤ x) : n ≤ round x := by
  rw [round_eq, Int.le_floor]
  linarith

theorem round_le {x : ℚ} {n : ℤ} (above : x ≤ n) : round x ≤ n := by
  rw [round_eq, ← Int.lt_add_one_iff, Int.floor_lt]
  push_cast
  linarith

/-- An integer with no more than one hundred digits is not lost by rounding. -/
theorem le_of_le (rounds : RoundsTo exact rounded) {n : ℤ} (fits : (n : ℚ) ≤ 10 ^ 100)
    (below : (n : ℚ) ≤ exact) : (n : ℚ) ≤ rounded := by
  cases rounds with
  | same => exact below
  | atPlace place long =>
      have positive := Decimal.zpow_ten_pos (-place)
      rcases Int.lt_or_le place 0 with before | behind
      · -- Rounded before the point, the number has more digits than the integer.
        have reached : (10 : ℤ) ^ 99 ≤ round (exact * 10 ^ place) := by
          apply le_round
          exact_mod_cast long
        have cast : (10 : ℚ) ^ 99 ≤ round (exact * 10 ^ place) := by exact_mod_cast reached
        have ten : (10 : ℚ) ≤ 10 ^ (-place) := by
          calc (10 : ℚ) = 10 ^ (1 : ℤ) := (zpow_one 10).symm
            _ ≤ 10 ^ (-place) := zpow_le_zpow_right₀ (by norm_num) (by omega)
        calc (n : ℚ) ≤ 10 ^ 99 * 10 := by linarith
          _ ≤ round (exact * 10 ^ place) * 10 ^ (-place) :=
            mul_le_mul cast ten (by norm_num) (le_trans (by positivity) cast)
      · -- Rounded behind the point, the integer is one of the numbers to choose from.
        obtain ⟨k, rfl⟩ := Int.eq_ofNat_of_zero_le behind
        have reached : n * 10 ^ k ≤ round (exact * 10 ^ (k : ℤ)) := by
          apply le_round
          rw [zpow_natCast]
          push_cast
          exact mul_le_mul_of_nonneg_right below (by positivity)
        have cast : (n * 10 ^ k : ℚ) ≤ round (exact * 10 ^ (k : ℤ)) := by exact_mod_cast reached
        have scaled := mul_le_mul_of_nonneg_right cast positive.le
        rwa [← zpow_natCast (10 : ℚ) k, mul_zpow_neg_cancel] at scaled

/-- An integer with no more than one hundred digits is not passed by rounding. -/
theorem ge_of_ge (rounds : RoundsTo exact rounded) {n : ℤ} (fits : (n : ℚ) < 10 ^ 100)
    (above : exact ≤ n) : rounded ≤ n := by
  cases rounds with
  | same => exact above
  | atPlace place long =>
      have positive := Decimal.zpow_ten_pos (-place)
      have behind : 0 ≤ place := by
        by_contra before
        have tenth : (10 : ℚ) ^ place ≤ 10 ^ (-1 : ℤ) :=
          zpow_le_zpow_right₀ (by norm_num) (by omega)
        have nonneg : 0 ≤ exact := by
          have : 0 ≤ exact * 10 ^ place := le_trans (by positivity) long
          exact nonneg_of_mul_nonneg_left this (Decimal.zpow_ten_pos place)
        have cut := mul_le_mul_of_nonneg_left tenth nonneg
        norm_num at cut long fits
        linarith
      obtain ⟨k, rfl⟩ := Int.eq_ofNat_of_zero_le behind
      have kept : round (exact * 10 ^ (k : ℤ)) ≤ n * 10 ^ k := by
        apply round_le
        rw [zpow_natCast]
        push_cast
        exact mul_le_mul_of_nonneg_right above (by positivity)
      have cast : (round (exact * 10 ^ (k : ℤ)) : ℚ) ≤ n * 10 ^ k := by exact_mod_cast kept
      have scaled := mul_le_mul_of_nonneg_right cast positive.le
      rwa [← zpow_natCast (10 : ℚ) k, mul_zpow_neg_cancel] at scaled

theorem eq_of_isShort (rounds : RoundsTo exact rounded) (short : IsShort exact) :
    rounded = exact := by
  cases rounds with
  | same => rfl
  | atPlace place long =>
      obtain ⟨digits, point, few, isExact⟩ := short
      have scaled : exact * 10 ^ place = digits * 10 ^ (point + place) := by
        rw [isExact, mul_assoc, ← zpow_add₀ (by norm_num)]
      rcases Int.lt_or_le (point + place) 0 with cut | whole
      · have tenth : (10 : ℚ) ^ (point + place) ≤ 10 ^ (-1 : ℤ) :=
          zpow_le_zpow_right₀ (by norm_num) (by omega)
        have few : (digits : ℚ) < 10 ^ 100 := by exact_mod_cast lt_of_abs_lt few
        have less : (digits : ℚ) * 10 ^ (point + place) < 10 ^ 99 := by
          calc (digits : ℚ) * 10 ^ (point + place)
              < 10 ^ 100 * 10 ^ (point + place) :=
                mul_lt_mul_of_pos_right few (Decimal.zpow_ten_pos _)
            _ ≤ 10 ^ 100 * 10 ^ (-1 : ℤ) := mul_le_mul_of_nonneg_left tenth (by positivity)
            _ = 10 ^ 99 := by norm_num
        rw [scaled] at long
        exact absurd long (not_le.mpr less)
      · obtain ⟨k, isPlace⟩ := Int.eq_ofNat_of_zero_le whole
        have integer : exact * 10 ^ place = ((digits * 10 ^ k : ℤ) : ℚ) := by
          rw [scaled, isPlace]
          push_cast
          rw [zpow_natCast]
        rw [integer, round_intCast, ← integer, mul_zpow_neg_cancel]

/-! ## The whole part -/

theorem floor_le_floor (rounds : RoundsTo exact rounded) (fits : exact ≤ 10 ^ 99) :
    ⌊exact⌋ ≤ ⌊rounded⌋ := by
  have below := Int.floor_le exact
  exact Int.le_floor.mpr (rounds.le_of_le (by linarith) below)

/-- Up to ten to the ninety-ninth, the whole part of a rounded number is that of the exact one or
the next integer. -/
theorem floor_eq_or (rounds : RoundsTo exact rounded) (nonneg : 0 ≤ exact)
    (fits : exact ≤ 10 ^ 99) : ⌊rounded⌋ = ⌊exact⌋ ∨ ⌊rounded⌋ = ⌊exact⌋ + 1 := by
  have kept := rounds.floor_le_floor fits
  have error := (abs_le.mp (rounds.error_le nonneg)).2
  have small : exact * (5 / 10 ^ 100) ≤ 1 / 2 := by linarith
  have next := Int.lt_floor_add_one exact
  have less : ⌊rounded⌋ < ⌊exact⌋ + 2 := by
    rw [Int.floor_lt]
    push_cast
    linarith
  omega

/-- The whole part stays if the fraction leaves room for the error of rounding. -/
theorem floor_eq (rounds : RoundsTo exact rounded) (nonneg : 0 ≤ exact) (fits : exact ≤ 10 ^ 99)
    (room : exact + exact * (5 / 10 ^ 100) < ⌊exact⌋ + 1) : ⌊rounded⌋ = ⌊exact⌋ := by
  have kept := rounds.floor_le_floor fits
  have error := (abs_le.mp (rounds.error_le nonneg)).2
  have less : ⌊rounded⌋ < ⌊exact⌋ + 1 := by
    rw [Int.floor_lt]
    push_cast
    linarith
  omega

/-- The fraction of a quotient of natural numbers leaves room unless the numerator is very large:
what is missing to the next integer is at least one in the denominator. -/
theorem room_of_fraction {num den : Nat} (isExact : exact = num / den) (denPos : 0 < den)
    (few : 5 * num < 10 ^ 100) : exact + exact * (5 / 10 ^ 100) < ⌊exact⌋ + 1 := by
  have positive : (0 : ℚ) < den := by exact_mod_cast denPos
  have isFloor : ⌊exact⌋ = ((num / den : Nat) : ℤ) := by
    rw [isExact, ← Int.cast_natCast num, Rat.floor_intCast_div_natCast, Int.natCast_div]
  have missing : (num : ℚ) + 1 ≤ (((num / den : Nat) : ℚ) + 1) * den := by
    have := Nat.lt_mul_div_succ num denPos
    have : num + 1 ≤ (num / den + 1) * den := by linarith
    exact_mod_cast this
  have small : (num : ℚ) * (5 / 10 ^ 100) < 1 := by
    have : (5 * num : ℚ) < 10 ^ 100 := by exact_mod_cast few
    rw [mul_div_assoc', div_lt_one (by positivity)]
    linarith
  rw [isFloor, isExact, Int.cast_natCast, ← mul_lt_mul_iff_left₀ positive]
  calc ((num : ℚ) / den + num / den * (5 / 10 ^ 100)) * den
      = (num : ℚ) / den * den * (1 + 5 / 10 ^ 100) := by ring
    _ = (num : ℚ) + num * (5 / 10 ^ 100) := by
      rw [div_mul_cancel₀ _ positive.ne']
      ring
    _ < (num : ℚ) + 1 := by linarith
    _ ≤ (((num / den : Nat) : ℚ) + 1) * den := missing

end RoundsTo

end BridgeRewards
