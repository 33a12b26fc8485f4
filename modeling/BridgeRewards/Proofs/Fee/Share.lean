import BridgeRewards.Proofs.Decimal.Division
import BridgeRewards.Proofs.Decimal.Plain

/-!
# The share that a percentage takes

An on-chain percentage of an amount in smallest units is a fraction over `10 ^ 18`, and the share
is its quotient, cut off toward zero.  This is the only place where anything is lost, and what is
lost is less than one unit (`Decomposes.error`).  Everything else is exact: the percentage, the
share in whole tokens and in dollars, and also their texts, which are read back as these numbers
(`compute_is_exact`).  A text has less than `2 ^ 63` places, however, so the dollars are read back
only if the price leaves room for the decimals of the token (`dollars_not_read_back`).

A share of an amount that is not negative, at a percentage between nothing and all, lies between
nothing and the amount, and it does not shrink when the percentage grows.
-/

set_option autoImplicit false

namespace BridgeRewards

namespace Decimal

theorem value_mulNormalized (x y : Decimal) : (x.mulNormalized y).value = x.value * y.value := by
  unfold mulNormalized
  split
  · next one => rw [value_normalized, value_of_isShortOne one, one_mul]
  · split
    · next one => rw [value_normalized, value_of_isShortOne one, mul_one]
    · exact value_mul x y

/-- A fraction over a power of ten is a decimal with that many places. -/
theorem value_eq_of_mul_pow {x : Decimal} {n : ℤ} {places : Nat}
    (fraction : x.value * 10 ^ places = n) : x.value = (⟨n, places⟩ : Decimal).value := by
  show x.value = n * (10 : ℚ) ^ (-(places : ℤ))
  rw [← fraction, zpow_neg, zpow_natCast, mul_inv_cancel_right₀ (by positivity)]

end Decimal

namespace FeeShare

/-- The fields of a share by the names that they are written under. -/
def fields (share : FeeShare) : List (String × Decimal) :=
  [("pct", share.pct), ("formattedPct", share.formattedPct), ("pctAmount", share.pctAmount),
    ("formattedPctAmount", share.formattedPctAmount), ("pctAmountUsd", share.pctAmountUsd)]

theorem toJson_eq (share : FeeShare) :
    share.toJson = .object (share.fields.map fun field => (field.1, .string field.2.plain)) := rfl

/-- What a share is that a percentage takes of an amount in smallest units, where a whole token has
some decimals and a price. -/
structure Decomposes (share : FeeShare) (weiPct amount : ℤ) (usdPrice : ℚ) (decimals : Nat) :
    Prop where
  pct : share.pct.value * 10 ^ 18 = weiPct
  percent : share.formattedPct.value = 100 * share.pct.value
  quotient : share.pctAmount = .ofInt ((amount * weiPct).tdiv (10 ^ 18))
  error : |share.pctAmount.value * 10 ^ 18 - amount * weiPct| < 10 ^ 18
  units : share.formattedPctAmount.toSmallestUnits decimals = share.pctAmount
  dollars : share.pctAmountUsd.value * 10 ^ decimals = share.pctAmount.value * usdPrice

section

variable {weiPct amount : Decimal} {w a : ℤ} (isWeiPct : weiPct.value = w)
  (isAmount : amount.value = a) (usdPrice : Decimal) (decimals : Nat)

include isWeiPct in
theorem value_pct : (compute weiPct amount usdPrice decimals).pct.value * 10 ^ 18 = w := by
  show (weiPct * Decimal.inversePowerOfTen 18).value * 10 ^ 18 = w
  rw [Decimal.value_mul, Decimal.value_inversePowerOfTen, isWeiPct, mul_assoc,
    inv_mul_cancel₀ (by norm_num), mul_one]

theorem value_formattedPct : (compute weiPct amount usdPrice decimals).formattedPct.value =
    100 * (compute weiPct amount usdPrice decimals).pct.value := by
  show (_ * Decimal.ofInt 100).value = _
  rw [Decimal.value_mul, Decimal.value_ofInt, mul_comm]
  rfl

include isWeiPct isAmount in
theorem pctAmount_eq : (compute weiPct amount usdPrice decimals).pctAmount =
    .ofInt ((a * w).tdiv (10 ^ 18)) := by
  refine congrArg Decimal.ofInt (Decimal.truncated_of_fraction 18 ?_)
  rw [Decimal.value_mul, Decimal.value_mul, Decimal.value_inversePowerOfTen, isWeiPct, isAmount,
    Decimal.percentageDecimals, mul_assoc, inv_mul_cancel₀ (by norm_num), mul_one, Int.cast_mul]

include isWeiPct isAmount in
/-- It makes no difference whether the fraction is taken before or after the product. -/
theorem truncate_pct_mul :
    ((compute weiPct amount usdPrice decimals).pct * amount).truncate =
      .ofInt ((a * w).tdiv (10 ^ 18)) := by
  refine congrArg Decimal.ofInt (Decimal.truncated_of_fraction 18 ?_)
  rw [Decimal.value_mul, isAmount, mul_right_comm, value_pct isWeiPct, ← Int.cast_mul, mul_comm]

theorem value_formattedPctAmount :
    (compute weiPct amount usdPrice decimals).formattedPctAmount.value * 10 ^ decimals =
      (compute weiPct amount usdPrice decimals).pctAmount.value := by
  show (_ * Decimal.inversePowerOfTen decimals).value * 10 ^ decimals = _
  rw [Decimal.value_mul, Decimal.value_inversePowerOfTen, mul_assoc,
    inv_mul_cancel₀ (by positivity), mul_one]
  rfl

theorem value_pctAmountUsd : (compute weiPct amount usdPrice decimals).pctAmountUsd.value =
    (compute weiPct amount usdPrice decimals).formattedPctAmount.value * usdPrice.value :=
  Decimal.value_mulNormalized _ _

/-- What is cut off of a product over `10 ^ 18` is less than one unit. -/
theorem abs_quotient_sub_lt (n : ℤ) : |n.tdiv (10 ^ 18) * 10 ^ 18 - n| < 10 ^ 18 := by
  have split := Int.tmod_add_mul_tdiv n (10 ^ 18)
  have above := Int.tmod_lt_of_pos n (show (0 : ℤ) < 10 ^ 18 by norm_num)
  have below := Int.lt_tmod_of_pos n (show (0 : ℤ) < 10 ^ 18 by norm_num)
  rw [abs_lt]
  omega

include isWeiPct isAmount in
theorem decomposes_compute :
    (compute weiPct amount usdPrice decimals).Decomposes w a usdPrice.value decimals where
  pct := value_pct isWeiPct usdPrice decimals
  percent := value_formattedPct usdPrice decimals
  quotient := pctAmount_eq isWeiPct isAmount usdPrice decimals
  error := by
    rw [pctAmount_eq isWeiPct isAmount, Decimal.value_ofInt]
    exact_mod_cast abs_quotient_sub_lt (a * w)
  units := by
    rw [pctAmount_eq isWeiPct isAmount]
    refine congrArg Decimal.ofInt (Decimal.truncated_of_value ?_)
    rw [Decimal.value_mul, Decimal.value_powerOfTen, value_formattedPctAmount,
      pctAmount_eq isWeiPct isAmount, Decimal.value_ofInt]
  dollars := by
    rw [value_pctAmountUsd, mul_right_comm, value_formattedPctAmount]

/-! ## Between nothing and the amount -/

include isWeiPct isAmount in
/-- A share of an amount that is not negative is part of it, if the percentage is one. -/
theorem pctAmount_mem (amountSign : 0 ≤ a) (sign : 0 ≤ w) (all : w ≤ 10 ^ 18) :
    0 ≤ (compute weiPct amount usdPrice decimals).pctAmount.value ∧
      (compute weiPct amount usdPrice decimals).pctAmount.value ≤ amount.value := by
  have whole : (a * 10 ^ 18).tdiv (10 ^ 18) = a := Int.mul_tdiv_cancel a (by norm_num)
  have part : (a * w).tdiv (10 ^ 18) ≤ (a * 10 ^ 18).tdiv (10 ^ 18) :=
    Int.tdiv_le_tdiv (by norm_num) (Int.mul_le_mul_of_nonneg_left all amountSign)
  have nonneg : 0 ≤ (a * w).tdiv (10 ^ 18) :=
    Int.tdiv_nonneg (Int.mul_nonneg amountSign sign) (by norm_num)
  rw [pctAmount_eq isWeiPct isAmount, Decimal.value_ofInt, isAmount]
  exact ⟨by exact_mod_cast nonneg, by exact_mod_cast whole ▸ part⟩

include isWeiPct isAmount in
theorem pctAmount_le {more : Decimal} {v : ℤ} (isMore : more.value = v) (amountSign : 0 ≤ a)
    (le : w ≤ v) : (compute weiPct amount usdPrice decimals).pctAmount.value ≤
      (compute more amount usdPrice decimals).pctAmount.value := by
  have part : (a * w).tdiv (10 ^ 18) ≤ (a * v).tdiv (10 ^ 18) :=
    Int.tdiv_le_tdiv (by norm_num) (Int.mul_le_mul_of_nonneg_left le amountSign)
  rw [pctAmount_eq isWeiPct isAmount, pctAmount_eq isMore isAmount, Decimal.value_ofInt,
    Decimal.value_ofInt]
  exact_mod_cast part

/-! ## The texts of a share -/

include isWeiPct isAmount in
/-- The text of a field is read back as the number that it was written from; that of the dollars
has the places of the price beside those of the token. -/
theorem parse_fields (few : decimals < twoTo 32) :
    ∀ field ∈ (compute weiPct amount usdPrice decimals).fields,
      field.1 ≠ "pctAmountUsd" ∨ decimals + usdPrice.scale < twoTo 63 →
        ∃ x, Decimal.parse field.1 field.2.plain = .ok x ∧ x.value = field.2.value := by
  have exact := decomposes_compute isWeiPct isAmount usdPrice decimals
  have units := @value_formattedPctAmount weiPct amount usdPrice decimals
  rw [exact.quotient, Decimal.value_ofInt] at units
  have whole := Decimal.value_eq_of_mul_pow units
  have percent : (compute weiPct amount usdPrice decimals).formattedPct.value * 10 ^ 18 =
      (100 * w : ℤ) := by
    rw [exact.percent, mul_assoc, exact.pct, Int.cast_mul]
    rfl
  have dollars := @value_pctAmountUsd weiPct amount usdPrice decimals
  rw [whole, ← Decimal.value_mul] at dollars
  have fewPlaces : (decimals : ℤ) < twoTo 63 := by
    exact_mod_cast few.trans (twoTo_lt_twoTo (by decide))
  have eighteen : ((18 : ℕ) : ℤ) < twoTo 63 := by decide
  have noPlaces : (0 : ℤ) < twoTo 63 := by decide
  simp only [fields, List.mem_cons, List.not_mem_nil, or_false]
  rintro field (rfl | rfl | rfl | rfl | rfl) room
  · exact Decimal.exists_parse_plain (Decimal.value_eq_of_mul_pow exact.pct) eighteen _
  · exact Decimal.exists_parse_plain (Decimal.value_eq_of_mul_pow percent) eighteen _
  · exact Decimal.exists_parse_plain (congrArg Decimal.value exact.quotient) noPlaces _
  · exact Decimal.exists_parse_plain whole fewPlaces _
  · exact Decimal.exists_parse_plain dollars (room.resolve_left fun other => other rfl) _

end

end FeeShare

end BridgeRewards
