import BridgeRewards.Proofs.Decimal.Number

/-!
# The plain form

The plain form of a decimal is its shortest form with all places written out, so equal numbers have
one plain form.  Conversely it can be taken apart again into the mantissa and the places that it
shows, which make up the number, so different numbers have different plain forms
(`plain_eq_iff`).

The reader takes it apart in the same way.  It refuses only a text with `2 ^ 63` places or more,
and the scale of a decimal is a signed number of 64 bits.  So a plain form is read as its number,
and it is read as an integer exactly if the number is one (`plain_is_canonical`).
-/

set_option autoImplicit false

namespace BridgeRewards.Decimal

variable {x y : Decimal} {field text : String}

theorem value_mantissaAt {scale : Int} (enough : x.scale ≤ scale) :
    (⟨x.mantissaAt scale, scale⟩ : Decimal).value = x.value := by
  rw [value, mantissaAt_eq_value enough, mul_assoc, ← zpow_add₀ (by norm_num), add_neg_cancel,
    zpow_zero, mul_one]

/-! ## Different numbers have different plain forms -/

theorem value_eq_of_positionalChars_eq (same : positionalChars x = positionalChars y) :
    x.value = y.value := by
  obtain ⟨ds, split, mantissa⟩ := splitPoint_positionalChars x
  obtain ⟨es, splitOther, mantissaOther⟩ := splitPoint_positionalChars y
  rw [same, splitOther] at split
  obtain ⟨rfl, places⟩ := Prod.mk.inj split
  rw [mantissaOther, Option.some.injEq] at mantissa
  calc x.value
      = (⟨x.mantissaAt x.scale.toNat, x.scale.toNat⟩ : Decimal).value :=
        (value_mantissaAt (Int.self_le_toNat _)).symm
    _ = (⟨y.mantissaAt y.scale.toNat, y.scale.toNat⟩ : Decimal).value := by
        rw [← mantissa, places]
    _ = y.value := value_mantissaAt (Int.self_le_toNat _)

/-- **Decimals have one plain form exactly if they are one number.** -/
theorem plain_eq_iff : x.plain = y.plain ↔ x.value = y.value := by
  constructor
  · intro same
    rw [← value_normalized x, ← value_normalized y]
    exact value_eq_of_positionalChars_eq (String.ofList_injective same)
  · intro same
    unfold plain plainChars
    rw [normalized_eq_of_value_eq same]

/-! ## Reading the plain form -/

theorem value_of_ofText?_plain (read : ofText? x.plain = some y) : y.value = x.value := by
  have chars := ofText?_positionalChars x.normalized
  unfold plain plainChars at read
  rw [chars] at read
  split at read
  · rw [← Option.some.inj read, value_mantissaAt (Int.self_le_toNat _), value_normalized]
  · cases read

/-- A plain form is read if its number can be written at some scale of 64 bits. -/
theorem exists_parse_plain (same : x.value = y.value) (fits : y.scale < twoTo 63)
    (field : String) : ∃ z, parse field x.plain = .ok z ∧ z.value = x.value := by
  have shorter := scale_normalized_le same
  have positive : (0 : Int) < twoTo 63 := by exact_mod_cast twoTo_pos 63
  have inRange : scaleInRange x.normalized.scale.toNat = true := by
    simp only [scaleInRange, Bool.and_eq_true, decide_eq_true_eq]
    omega
  have read := (ofText?_positionalChars x.normalized).trans (if_pos inRange)
  exact ⟨_, parse_eq_ok.mpr read, value_of_ofText?_plain read⟩

theorem scale_lt_of_parse (read : parse field text = .ok x) : x.scale < twoTo 63 := by
  have denoted := parse_eq_ok.mp read
  unfold ofText? ofChars? at denoted
  obtain ⟨⟨base, exponent⟩, -, denoted⟩ := Option.bind_eq_some_iff.mp denoted
  dsimp only at denoted
  split at denoted
  case isTrue => cases denoted
  case isFalse =>
    split at denoted
    case isTrue inRange =>
      obtain ⟨mantissa, -, rfl⟩ := Option.map_eq_some_iff.mp denoted
      simp only [scaleInRange, Bool.and_eq_true, decide_eq_true_eq] at inRange
      exact inRange.2
    case isFalse => cases denoted

/-- **A plain form is read back exactly if its number has a scale of 64 bits**, once its trailing
zeros are taken off. -/
theorem exists_parse_plain_iff (field : String) :
    (∃ y, parse field x.plain = .ok y) ↔ x.normalized.scale < twoTo 63 := by
  constructor
  · rintro ⟨y, read⟩
    have shorter := scale_normalized_le (value_of_ofText?_plain (parse_eq_ok.mp read)).symm
    have fits := scale_lt_of_parse read
    have positive : (0 : Int) < twoTo 63 := by exact_mod_cast twoTo_pos 63
    omega
  · intro fits
    obtain ⟨y, read, -⟩ := exists_parse_plain (value_normalized x).symm fits field
    exact ⟨y, read⟩

theorem parseInteger_plain_iff (field : String) :
    parseInteger field x.plain = .ok y ↔ ∃ n : ℤ, x.value = n ∧ y = ofInt n := by
  constructor
  · intro read
    obtain ⟨z, denoted, whole, rfl⟩ := parseInteger_eq_ok.mp read
    refine ⟨z.truncated, ?_, rfl⟩
    rw [← value_of_ofText?_plain denoted, value_of_isInteger whole]
  · rintro ⟨n, number, rfl⟩
    rw [parseInteger_plain ((isInteger_iff_value x).mpr ⟨n, number⟩), truncate,
      truncated_of_value number]

/-- **The plain form is canonical and loses nothing.**  A decimal with a scale of 64 bits is read
back from its plain form as the same number; two decimals have one plain form exactly if they are
one number; and a plain form is read as an integer exactly if the number is one, at scale zero. -/
theorem plain_is_canonical (x : Decimal) (field : String) :
    (x.scale < twoTo 63 → ∃ y, parse field x.plain = .ok y ∧ y.value = x.value) ∧
      (∀ y : Decimal, x.plain = y.plain ↔ x.value = y.value) ∧
      ((∃ y, parseInteger field x.plain = .ok y) ↔ ∃ n : ℤ, x.value = n) ∧
      ∀ y, parseInteger field x.plain = .ok y → y.value = x.value ∧ y.scale = 0 := by
  refine ⟨fun fits => exists_parse_plain rfl fits field, fun y => plain_eq_iff, ?_, ?_⟩
  · simp only [parseInteger_plain_iff]
    exact ⟨fun ⟨_, n, number, _⟩ => ⟨n, number⟩, fun ⟨n, number⟩ => ⟨_, n, number, rfl⟩⟩
  · intro y read
    obtain ⟨n, number, rfl⟩ := (parseInteger_plain_iff field).mp read
    exact ⟨by rw [value_ofInt, number], rfl⟩

/-- A number with trailing zeros is written as without them and read back. -/
theorem plain_is_canonical_trial :
    (∃ y, parse "amount" (⟨-1200, 5⟩ : Decimal).plain = .ok y ∧
        y.value = (⟨-1200, 5⟩ : Decimal).value) ∧
      (⟨-1200, 5⟩ : Decimal).plain = (⟨-12, 3⟩ : Decimal).plain ∧
      (⟨-12, 3⟩ : Decimal).plain = "-0.012" := by
  obtain ⟨reads, same, -⟩ := plain_is_canonical ⟨-1200, 5⟩ "amount"
  refine ⟨reads (by decide), (same ⟨-12, 3⟩).mpr ?_, by decide +kernel⟩
  norm_num [value]

end BridgeRewards.Decimal
