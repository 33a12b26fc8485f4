import BridgeRewards.Decimal.Division
import BridgeRewards.Proofs.Decimal.Rounding
import Mathlib.Tactic.FieldSimp

/-!
# What a quotient stands for

A quotient is either exact or rounded half up behind one hundred digits or more
(`Decimal.divide_rounds`).  Long division never loses what remains (`LongDivision.Of`), and it
stops early only when nothing remains; otherwise it takes steps enough for one hundred digits
(`tenTo_le_of_digits`), and the next digit decides how the last one is rounded
(`LongDivision.Of.rounded_eq`).
-/

set_option autoImplicit false

namespace BridgeRewards

namespace Decimal

/-! ## Long division -/

theorem tenTo_digits_le {n : Nat} (pos : 0 < n) : tenTo ((Text.digits n).length - 1) ≤ n := by
  rw [Text.digits_eq]
  rcases Nat.lt_or_ge 1 (Nat.toDigits 10 n).length with several | single
  · have long : ¬ (Nat.toDigits 10 n).length ≤ (Nat.toDigits 10 n).length - 1 := by omega
    rw [Nat.length_toDigits_le_iff (by decide) (by omega)] at long
    exact Nat.not_lt.mp long
  · rw [Nat.sub_eq_zero_of_le single]
    exact pos

theorem scaleUp_spec {num den : Nat} (pos : 0 < num) :
    (scaleUp num den).1 = num * tenTo (scaleUp num den).2 ∧ den ≤ (scaleUp num den).1 := by
  fun_induction scaleUp num den with
  | case1 num between n k scaled ih =>
      rw [scaled] at ih
      obtain ⟨split, reached⟩ := ih (by omega)
      refine ⟨?_, reached⟩
      rw [split, tenTo_succ, Nat.mul_assoc]
  | case2 num between => exact ⟨(Nat.mul_one num).symm, by omega⟩

/-- A division under construction: quotient and remainder make up the numerator at the place
reached. -/
structure LongDivision.Of (num den : Nat) (d : LongDivision) : Prop where
  split : d.quotient * den + d.remainder = num * tenTo d.places
  less : d.remainder < den

variable {num den : Nat} {d : LongDivision}

theorem LongDivision.Of.step (of : d.Of num den) :
    LongDivision.Of num den
      ⟨d.quotient * 10 + d.remainder * 10 / den, d.remainder * 10 % den, d.places + 1⟩ := by
  have positive : 0 < den := Nat.zero_lt_of_lt of.less
  refine ⟨?_, Nat.mod_lt _ positive⟩
  have digit := Nat.div_add_mod' (d.remainder * 10) den
  calc (d.quotient * 10 + d.remainder * 10 / den) * den + d.remainder * 10 % den
      = d.quotient * 10 * den + (d.remainder * 10 / den * den + d.remainder * 10 % den) := by ring
    _ = (d.quotient * den + d.remainder) * 10 := by rw [digit]; ring
    _ = num * tenTo (d.places + 1) := by rw [of.split, tenTo_succ]; ring

theorem LongDivision.Of.extend (of : d.Of num den) (steps : Nat) :
    (d.extend den steps).Of num den := by
  induction steps generalizing d with
  | zero => exact of
  | succ steps ih =>
      rw [LongDivision.extend]
      split
      · exact of
      · exact ih of.step

/-- Unless nothing remains, every step adds a digit to the quotient. -/
theorem LongDivision.extend_progress (den steps : Nat) (d : LongDivision) :
    (d.extend den steps).remainder = 0 ∨
      d.quotient * tenTo steps ≤ (d.extend den steps).quotient := by
  induction steps generalizing d with
  | zero => exact .inr (Nat.mul_one d.quotient).le
  | succ steps ih =>
      rw [LongDivision.extend]
      split
      · next done => exact .inl done
      · refine (ih _).imp_right fun more => le_trans ?_ more
        rw [tenTo_succ, ← Nat.mul_assoc]
        exact Nat.mul_le_mul_right _ (Nat.le_add_right _ _)

theorem LongDivision.Of.value_eq (of : d.Of num den) :
    (num : ℚ) / den * 10 ^ (d.places : ℤ) = d.quotient + d.remainder / den := by
  have positive : (den : ℚ) ≠ 0 := by exact_mod_cast (Nat.zero_lt_of_lt of.less).ne'
  have split : (d.quotient * den + d.remainder : ℚ) = num * 10 ^ d.places := by
    have := congrArg (Nat.cast : Nat → ℚ) of.split
    simpa [tenTo] using this
  rw [zpow_natCast]
  field_simp
  linarith

/-- The next digit is at least five exactly if at least half of the denominator remains, so the
quotient is rounded half up. -/
theorem LongDivision.Of.rounded_eq (of : d.Of num den) :
    ((d.rounded den : Nat) : ℤ) = round ((num : ℚ) / den * 10 ^ (d.places : ℤ)) := by
  have natPositive : 0 < den := Nat.zero_lt_of_lt of.less
  have positive : (0 : ℚ) < den := by exact_mod_cast natPositive
  have less : (d.remainder : ℚ) / den < 1 := by
    rw [div_lt_one positive]
    exact_mod_cast of.less
  have nonneg : (0 : ℚ) ≤ d.remainder / den := by positivity
  rw [of.value_eq, round_eq, eq_comm, Int.floor_eq_iff]
  unfold LongDivision.rounded
  have nextDigit : 5 ≤ d.remainder * 10 / den ↔ (1 : ℚ) / 2 ≤ d.remainder / den := by
    rw [Nat.le_div_iff_mul_le natPositive, div_le_div_iff₀ (by norm_num) positive]
    constructor
    · intro half
      have : den ≤ d.remainder * 2 := by omega
      rw [one_mul]
      exact_mod_cast this
    · intro half
      rw [one_mul] at half
      have : den ≤ d.remainder * 2 := by exact_mod_cast half
      omega
  split
  · next up =>
      have half := nextDigit.mp up
      push_cast
      constructor
      · linarith
      · linarith
  · next down =>
      have half := not_le.mp (mt nextDigit.mpr down)
      push_cast
      constructor
      · linarith
      · linarith

/-- A division with nothing left or with many digits is exact or rounded behind them. -/
theorem LongDivision.Of.rounds (of : d.Of num den)
    (long : d.remainder = 0 ∨ tenTo 99 ≤ d.quotient) :
    RoundsTo ((num : ℚ) / den) ((d.rounded den : Nat) * 10 ^ (-(d.places : ℤ))) := by
  have isRounded : ((d.rounded den : Nat) : ℚ) =
      round ((num : ℚ) / den * 10 ^ (d.places : ℤ)) := by exact_mod_cast of.rounded_eq
  have value := of.value_eq
  rw [isRounded]
  rcases long with done | long
  · have whole : (num : ℚ) / den * 10 ^ (d.places : ℤ) = ((d.quotient : ℤ) : ℚ) := by
      rw [value, done]
      simp
    rw [whole, round_intCast, ← whole, RoundsTo.mul_zpow_neg_cancel]
    exact .same
  · refine .atPlace _ ?_
    have cast : ((tenTo 99 : Nat) : ℚ) ≤ d.quotient := by exact_mod_cast long
    have power : ((tenTo 99 : Nat) : ℚ) = 10 ^ 99 := by norm_num [tenTo]
    have nonneg : (0 : ℚ) ≤ d.remainder / den := by positivity
    rw [value]
    linarith

/-- Unless nothing remains, there are steps enough for one hundred digits. -/
theorem tenTo_le_of_digits {quotient : Nat} (pos : 0 < quotient) :
    tenTo 99 ≤ quotient * tenTo (quotientDigits - (Text.digits quotient).length) := by
  have least := tenTo_digits_le pos
  calc tenTo 99
      ≤ tenTo ((Text.digits quotient).length - 1 +
          (quotientDigits - (Text.digits quotient).length)) :=
        Nat.pow_le_pow_right (by decide) (by unfold quotientDigits; omega)
    _ = tenTo ((Text.digits quotient).length - 1) *
          tenTo (quotientDigits - (Text.digits quotient).length) := tenTo_add _ _
    _ ≤ quotient * tenTo (quotientDigits - (Text.digits quotient).length) :=
        Nat.mul_le_mul_right _ least

/-- **The quotient of two positive numbers** is exact or rounded behind many digits. -/
theorem divideNat_rounds (numPos : 0 < num) (denPos : 0 < den) :
    RoundsTo ((num : ℚ) / den)
      ((divideNat num den).1 * 10 ^ (-((divideNat num den).2 : ℤ))) := by
  have spec := @scaleUp_spec num den numPos
  unfold divideNat
  generalize scaleUp num den = scaling at spec ⊢
  obtain ⟨n, k⟩ := scaling
  obtain ⟨scaled, reached⟩ := spec
  dsimp only at scaled reached ⊢
  have first : LongDivision.Of num den ⟨n / den, n % den, k⟩ :=
    ⟨by rw [← scaled]; exact Nat.div_add_mod' n den, Nat.mod_lt n denPos⟩
  have last := first.extend (quotientDigits - (Text.digits (n / den)).length)
  refine last.rounds ((LongDivision.extend_progress den _ _).imp_right fun more => ?_)
  exact (tenTo_le_of_digits (Nat.div_pos reached denPos)).trans more

/-! ## Decimals -/

variable {x y : Decimal}

theorem mantissa_nonneg_iff : 0 ≤ x.mantissa ↔ 0 ≤ x.value := by
  rw [value, mul_nonneg_iff_of_pos_right (zpow_ten_pos _), Int.cast_nonneg_iff]

theorem mantissa_pos_iff : 0 < x.mantissa ↔ 0 < x.value := by
  rw [value, mul_pos_iff_of_pos_right (zpow_ten_pos _), Int.cast_pos]

theorem value_of_isShortOne (one : x.isShortOne = true) : x.value = 1 := by
  unfold isShortOne at one
  simp only [Bool.and_eq_true, decide_eq_true_eq, beq_iff_eq] at one
  obtain ⟨⟨places, -⟩, mantissa⟩ := one
  have cast : (x.scale.toNat : Int) = x.scale := Int.toNat_of_nonneg places
  rw [value, mantissa, cast_tenTo, cast, ← zpow_add₀ (by norm_num), add_neg_cancel, zpow_zero]

theorem value_div_value (x y : Decimal) :
    x.value / y.value = (x.mantissa : ℚ) / y.mantissa * 10 ^ (y.scale - x.scale) := by
  rw [value, value, mul_div_mul_comm, ← zpow_sub₀ (by norm_num),
    show -x.scale - -y.scale = y.scale - x.scale by ring]

theorem value_of_mantissas (numPos : 0 < x.mantissa) (denPos : 0 < y.mantissa)
    (quotient places : Nat) :
    (⟨x.mantissa.sign * y.mantissa.sign * quotient, x.scale - y.scale + places⟩ : Decimal).value =
      quotient * 10 ^ (-(places : ℤ)) * 10 ^ (y.scale - x.scale) := by
  rw [Int.sign_eq_one_of_pos numPos, Int.sign_eq_one_of_pos denPos, one_mul, one_mul, value,
    mul_assoc, ← zpow_add₀ (by norm_num), Int.cast_natCast,
    show -(x.scale - y.scale + (places : ℤ)) = -(places : ℤ) + (y.scale - x.scale) by ring]

theorem cast_natAbs_mantissa (positive : 0 < x.mantissa) :
    (x.mantissa.natAbs : ℚ) = x.mantissa := by
  rw [Nat.cast_natAbs, abs_of_pos positive]

/-- **A quotient is exact or rounded behind many digits.** -/
theorem divide_rounds (nonneg : 0 ≤ x.value) (positive : 0 < y.value) :
    RoundsTo (x.value / y.value) (x / y).value := by
  have denPos := mantissa_pos_iff.mpr positive
  change RoundsTo _ (divide x y).value
  unfold divide
  split
  · next simple =>
      have same : x.value / y.value = x.value := by
        rcases simple with zero | one
        · have zero : x.value = 0 := by rw [value, zero, Int.cast_zero, zero_mul]
          rw [zero, zero_div]
        · rw [value_of_isShortOne one, div_one]
      rw [same]
      exact .same
  · next notSimple =>
      have numPos : 0 < x.mantissa := by
        have := mantissa_nonneg_iff.mpr nonneg
        have := (not_or.mp notSimple).1
        omega
      rw [value_div_value]
      split
      · next equal =>
          have one : (x.mantissa : ℚ) / y.mantissa = 1 := by
            rw [equal, div_self (by exact_mod_cast denPos.ne')]
          have isValue : (⟨1, x.scale - y.scale⟩ : Decimal).value =
              10 ^ (y.scale - x.scale) := by
            simp [value]
          rw [one, one_mul, isValue]
          exact .same
      · have rounds := divideNat_rounds (Int.natAbs_pos.mpr numPos.ne')
          (Int.natAbs_pos.mpr denPos.ne')
        rw [cast_natAbs_mantissa numPos, cast_natAbs_mantissa denPos] at rounds
        rw [value_of_mantissas numPos denPos]
        exact rounds.mul_zpow (y.scale - x.scale)

theorem truncated_eq_floor (nonneg : 0 ≤ x.value) : x.truncated = ⌊x.value⌋ := by
  by_cases flat : x.scale ≤ 0
  · have whole : x.isInteger = true := (isInteger_iff x).mpr (.inl flat)
    rw [value_of_isInteger whole, Int.floor_intCast]
  · have places : (x.scale.toNat : Int) = x.scale := by omega
    rw [truncated_of_scale_pos (by omega),
      Int.tdiv_eq_ediv_of_nonneg (mantissa_nonneg_iff.mpr nonneg),
      ← Rat.floor_intCast_div_natCast, value, zpow_neg, div_eq_mul_inv, ← Int.cast_natCast,
      cast_tenTo, places]

end Decimal

end BridgeRewards
