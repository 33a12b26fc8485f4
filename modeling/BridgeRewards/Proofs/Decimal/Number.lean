import BridgeRewards.Fee
import BridgeRewards.Proofs.Decimal.Text
import BridgeRewards.Proofs.Decimal.Value
import BridgeRewards.Proofs.Outcome

/-!
# The numbers that texts denote

A text is read as a decimal exactly if it denotes one, and as an integer exactly if the decimal
that it denotes is one (`exists_parse_iff`, `parseInteger_iff`).  Either way what is read
stands for the number that the text denotes.
-/

set_option autoImplicit false

namespace BridgeRewards.Decimal

variable {field text : String} {x : Decimal}

/-- Whether a text denotes a decimal. -/
def isDecimalText (text : String) : Bool := (ofText? text).isSome

/-- Whether a text denotes an integer. -/
def isIntegerText (text : String) : Bool := (ofText? text).any isInteger

/-- The number that a text denotes, zero if it denotes none. -/
def numberOf (text : String) : ℚ := ((ofText? text).map value).getD 0

/-- The integer that a text denotes, zero if it denotes none. -/
@[irreducible] def integerOf (text : String) : Decimal := ((ofText? text).map truncate).getD 0

theorem parse_eq_ok : parse field text = .ok x ↔ ofText? text = some x := by
  unfold parse
  cases ofText? text <;> simp

theorem parseInteger_eq_ok :
    parseInteger field text = .ok x ↔
      ∃ y, ofText? text = some y ∧ y.isInteger = true ∧ x = y.truncate := by
  unfold parseInteger
  rw [Outcome.bind_eq_ok]
  refine exists_congr fun y => ?_
  rw [parse_eq_ok]
  refine and_congr_right fun _ => ?_
  by_cases whole : y.isInteger = true
  · simp [whole, pure, Except.pure, eq_comm]
  · simp [whole, throw, throwThe, MonadExceptOf.throw]

theorem exists_parse_iff (field : String) :
    (∃ x, parse field text = .ok x) ↔ isDecimalText text = true := by
  simp only [parse_eq_ok, isDecimalText, Option.isSome_iff_exists]

theorem exists_parseInteger_iff (field : String) :
    (∃ x, parseInteger field text = .ok x) ↔ isIntegerText text = true := by
  simp [parseInteger_eq_ok, isIntegerText, Option.any_eq_true]

theorem value_of_parse (h : parse field text = .ok x) : x.value = numberOf text := by
  rw [numberOf, parse_eq_ok.mp h]
  rfl

theorem value_of_parseInteger (h : parseInteger field text = .ok x) : x.value = numberOf text := by
  obtain ⟨y, denoted, whole, rfl⟩ := parseInteger_eq_ok.mp h
  rw [numberOf, denoted, truncate, value_ofInt, ← value_of_isInteger whole]
  rfl

/-- A text is read as an integer exactly if it denotes one, and as that integer. -/
theorem parseInteger_iff (field : String) :
    parseInteger field text = .ok x ↔ isIntegerText text = true ∧ x = integerOf text := by
  constructor
  · intro h
    refine ⟨(exists_parseInteger_iff field).mp ⟨x, h⟩, ?_⟩
    obtain ⟨y, denoted, -, rfl⟩ := parseInteger_eq_ok.mp h
    rw [integerOf, denoted]
    rfl
  · rintro ⟨whole, rfl⟩
    obtain ⟨y, read⟩ := (exists_parseInteger_iff field).mpr whole
    obtain ⟨z, denoted, -, rfl⟩ := parseInteger_eq_ok.mp read
    rw [read, integerOf, denoted]
    rfl

theorem value_integerOf (whole : isIntegerText text = true) :
    (integerOf text).value = numberOf text :=
  value_of_parseInteger ((parseInteger_iff "amount").mpr ⟨whole, rfl⟩)

theorem isInteger_integerOf (text : String) : (integerOf text).isInteger = true := by
  unfold integerOf
  cases ofText? text <;> rfl

theorem isIntegerText_plain (whole : x.isInteger = true) : isIntegerText x.plain = true :=
  (exists_parseInteger_iff "amount").mp ⟨_, parseInteger_plain whole "amount"⟩

theorem numberOf_plain (whole : x.isInteger = true) : numberOf x.plain = x.value := by
  rw [← value_of_parseInteger (parseInteger_plain whole "amount"), truncate, value_ofInt,
    value_of_isInteger whole]

end BridgeRewards.Decimal
