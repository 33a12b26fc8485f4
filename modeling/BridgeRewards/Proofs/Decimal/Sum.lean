import BridgeRewards.Proofs.Decimal.Value
import Mathlib.Algebra.BigOperators.Group.List.Basic

/-!
# Sums of decimals

The number of a sum is the sum of the numbers, and its scale is the largest among them.  A decimal
is determined by its number and its scale, so a sum does not depend on the order in which it is
taken (`sum_perm`), and a sum of integers at scale zero is an integer at scale zero.
-/

set_option autoImplicit false

namespace BridgeRewards.Decimal

theorem eq_of_value_eq {x y : Decimal} (number : x.value = y.value) (scale : x.scale = y.scale) :
    x = y := by
  obtain ⟨m, s⟩ := x
  obtain ⟨n, t⟩ := y
  obtain rfl : s = t := scale
  have nonzero := (zpow_ten_pos (-s)).ne'
  have mantissa : (m : ℚ) = n := mul_right_cancel₀ nonzero number
  rw [Int.cast_inj.mp mantissa]

theorem scale_add (x y : Decimal) : (x + y).scale = max x.scale y.scale := rfl

theorem value_foldl_add (xs : List Decimal) (x : Decimal) :
    (xs.foldl (· + ·) x).value = x.value + (xs.map value).sum := by
  induction xs generalizing x with
  | nil => simp
  | cons y rest ih =>
      rw [List.foldl_cons, ih, value_add, List.map_cons, List.sum_cons, add_assoc]

theorem value_sum (xs : List Decimal) : (sum xs).value = (xs.map value).sum := by
  rw [sum, value_foldl_add, value_zero, zero_add]

theorem scale_foldl_add (xs : List Decimal) (x : Decimal) :
    (xs.foldl (· + ·) x).scale = xs.foldl (fun scale y => max scale y.scale) x.scale := by
  induction xs generalizing x with
  | nil => rfl
  | cons y rest ih => rw [List.foldl_cons, ih, scale_add, List.foldl_cons]

theorem sum_perm {xs ys : List Decimal} (perm : xs.Perm ys) : sum xs = sum ys := by
  refine eq_of_value_eq ?_ ?_
  · rw [value_sum, value_sum, (perm.map value).sum_eq]
  · rw [sum, sum, scale_foldl_add, scale_foldl_add]
    exact perm.foldl_eq' (fun a _ b _ scale => max_right_comm scale a.scale b.scale) _

/-! ## Integers -/

theorem isInteger_iff_value (x : Decimal) : x.isInteger = true ↔ ∃ n : ℤ, x.value = n := by
  constructor
  · exact fun whole => ⟨x.truncated, value_of_isInteger whole⟩
  · rintro ⟨n, number⟩
    refine (isInteger_iff x).mpr ?_
    by_cases flat : x.scale ≤ 0
    · exact .inl flat
    · have places : ((x.scale.toNat : Nat) : Int) = x.scale := by omega
      refine .inr ⟨n, ?_⟩
      rw [value, zpow_neg, ← places, ← cast_tenTo, ← div_eq_mul_inv,
        div_eq_iff (by exact_mod_cast (tenTo_pos _).ne')] at number
      rw [mul_comm]
      exact_mod_cast number

theorem truncated_of_value {x : Decimal} {n : ℤ} (number : x.value = n) : x.truncated = n := by
  have whole := (isInteger_iff_value x).mpr ⟨n, number⟩
  rw [value_of_isInteger whole] at number
  exact_mod_cast number

theorem value_sum_of_isInteger {xs : List Decimal} (whole : ∀ x ∈ xs, x.isInteger = true) :
    (sum xs).value = ((xs.map truncated).sum : ℤ) := by
  rw [value_sum]
  induction xs with
  | nil => simp
  | cons x rest ih =>
      rw [List.map_cons, List.sum_cons, List.map_cons, List.sum_cons, Int.cast_add,
        ih fun y later => whole y (List.mem_cons_of_mem _ later),
        value_of_isInteger (whole x List.mem_cons_self)]

end BridgeRewards.Decimal
