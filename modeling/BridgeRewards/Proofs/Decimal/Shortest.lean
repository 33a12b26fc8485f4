import BridgeRewards.Proofs.Decimal.Sum

/-!
# The shortest form

The shortest form of a decimal is the same number (`value_normalized`), and no decimal that stands
for this number has a smaller scale (`scale_normalized_le`), because the mantissa of the shortest
form ends in no zero.  So it depends on nothing but the number (`normalized_eq_of_value_eq`).  The
one exception is zero, which is written at scale zero and has a form at any other.
-/

set_option autoImplicit false

namespace BridgeRewards.Decimal

variable {x y : Decimal}

theorem normalized_of_ne_zero (h : x.mantissa ≠ 0) :
    x.normalized = ⟨x.mantissa.sign * (stripZeros x.mantissa.natAbs).1,
      x.scale - (stripZeros x.mantissa.natAbs).2⟩ := by
  unfold normalized
  rw [if_neg h]

theorem normalized_of_eq_zero (h : x.mantissa = 0) : x.normalized = 0 := if_pos h

theorem mantissa_eq_zero_iff : x.mantissa = 0 ↔ x.value = 0 := by
  rw [← isZero_iff_value_eq, isZero, beq_iff_eq]

theorem value_normalized (x : Decimal) : x.normalized.value = x.value := by
  by_cases zero : x.mantissa = 0
  · rw [normalized_of_eq_zero zero, value_zero, mantissa_eq_zero_iff.mp zero]
  · have whole : x.mantissa = x.mantissa.sign * (stripZeros x.mantissa.natAbs).1 *
        tenTo (stripZeros x.mantissa.natAbs).2 := by
      rw [mul_assoc, ← Nat.cast_mul, stripZeros_mul, Int.sign_mul_natAbs]
    rw [normalized_of_ne_zero zero, value, value]
    dsimp only
    rw [neg_sub, sub_eq_add_neg, zpow_add₀ (by norm_num), ← cast_tenTo, ← mul_assoc,
      ← Int.cast_mul, ← whole]

theorem not_ten_dvd_mantissa_normalized (h : x.mantissa ≠ 0) :
    ¬ (10 : ℤ) ∣ x.normalized.mantissa := by
  rw [normalized_of_ne_zero h]
  intro divides
  have digits : 10 ∣ (stripZeros x.mantissa.natAbs).1 := by
    have := Int.natAbs_dvd_natAbs.mpr divides
    rwa [Int.natAbs_mul, Int.natAbs_sign_of_ne_zero h, one_mul, Int.natAbs_natCast] at this
  exact stripZeros_mod_ten (Int.natAbs_pos.mpr h) (Nat.mod_eq_zero_of_dvd digits)

/-- No decimal that stands for a number other than zero has a smaller scale than its shortest form:
with one place more its mantissa would end in a zero. -/
theorem scale_normalized_le_of_ne_zero (h : x.mantissa ≠ 0) (same : x.value = y.value) :
    x.normalized.scale ≤ y.scale := by
  by_contra longer
  obtain ⟨more, scale⟩ : ∃ more : Nat, x.normalized.scale = y.scale + (more + 1 : Nat) :=
    ⟨(x.normalized.scale - y.scale - 1).toNat, by omega⟩
  rw [← value_normalized x] at same
  have mantissa : x.normalized.mantissa = y.mantissa * tenTo (more + 1) := by
    have positive := (zpow_ten_pos (-x.normalized.scale)).ne'
    rw [← Int.cast_inj (α := ℚ), ← mul_left_inj' positive, ← value, same, value, Int.cast_mul,
      cast_tenTo, mul_assoc, ← zpow_add₀ (by norm_num), scale]
    congr 2
    ring
  refine not_ten_dvd_mantissa_normalized h ⟨y.mantissa * tenTo more, ?_⟩
  rw [mantissa, tenTo_succ, Nat.cast_mul]
  ring

/-- The shortest form has no more places than any decimal that stands for the number. -/
theorem scale_normalized_le (same : x.value = y.value) : x.normalized.scale ≤ max y.scale 0 := by
  by_cases zero : x.mantissa = 0
  · rw [normalized_of_eq_zero zero]
    exact le_max_right y.scale 0
  · exact (scale_normalized_le_of_ne_zero zero same).trans (le_max_left y.scale 0)

/-- **The shortest form depends on the number only.** -/
theorem normalized_eq_of_value_eq (same : x.value = y.value) : x.normalized = y.normalized := by
  by_cases zero : x.mantissa = 0
  · have zero' : y.mantissa = 0 := by
      rw [mantissa_eq_zero_iff, ← same, mantissa_eq_zero_iff.mp zero]
    rw [normalized_of_eq_zero zero, normalized_of_eq_zero zero']
  · have nonzero : y.mantissa ≠ 0 := by
      rwa [Ne, mantissa_eq_zero_iff, ← same, ← mantissa_eq_zero_iff]
    have first := value_normalized x
    have second := value_normalized y
    refine eq_of_value_eq ((first.trans same).trans second.symm) (le_antisymm ?_ ?_)
    · exact scale_normalized_le_of_ne_zero zero (same.trans second.symm)
    · exact scale_normalized_le_of_ne_zero nonzero (same.symm.trans first.symm)

theorem scale_normalized_of_isInteger (h : x.isInteger = true) : x.normalized.scale ≤ 0 := by
  have whole : x.value = (ofInt x.truncated).value := by
    rw [value_ofInt, value_of_isInteger h]
  exact scale_normalized_le whole

end BridgeRewards.Decimal
