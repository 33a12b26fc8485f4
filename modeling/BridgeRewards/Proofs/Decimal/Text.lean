import BridgeRewards.Decimal.Plain
import BridgeRewards.Fee
import BridgeRewards.Proofs.Decimal.Shortest
import BridgeRewards.Proofs.Outcome
import Mathlib.Data.List.TakeWhile

/-!
# Decimals through their text

What the reader makes of a text of digits, and what it makes of what was written: a positional form
is read as the number that it was written from, with as many places as there are digits behind its
point (`ofText?_positionalChars`).  The plain form of an integer has no point, because it is written
from the shortest form, and so it is read as the integer at scale zero (`parseInteger_plain`).
-/

set_option autoImplicit false

namespace BridgeRewards

namespace Text

/-- Whether all characters are decimal digits. -/
def AllDigits (cs : List Char) : Prop := ∀ c ∈ cs, c.isDigit = true

theorem allDigits_digits (n : Nat) : AllDigits (digits n) := by
  intro c member
  rw [digits_eq] at member
  exact Nat.isDigit_of_mem_toDigits (by decide) (by decide) member

theorem digits_ne_nil (n : Nat) : digits n ≠ [] := by
  rw [digits_eq]
  exact Nat.toDigits_ne_nil

theorem AllDigits.append {cs ds : List Char} (first : AllDigits cs) (second : AllDigits ds) :
    AllDigits (cs ++ ds) := by
  intro c member
  rcases List.mem_append.mp member with member | member
  · exact first c member
  · exact second c member

theorem allDigits_replicate_zero (count : Nat) : AllDigits (List.replicate count '0') := by
  intro c member
  rw [List.eq_of_mem_replicate member]
  rfl

theorem AllDigits.ne_of_mem {cs : List Char} (h : AllDigits cs) {c : Char} (member : c ∈ cs)
    {other : Char} (isOther : other.isDigit = false) : c ≠ other := by
  rintro rfl
  exact Bool.false_ne_true (isOther.symm.trans (h c member))

theorem isBlank_of_isDigit {c : Char} (h : c.isDigit = true) : isBlank c = false := by
  obtain ⟨lower, upper⟩ := Char.isDigit_iff_toNat.mp h
  have lower : 48 ≤ c.toNat := lower
  have upper : c.toNat ≤ 57 := upper
  simp only [isBlank, Bool.or_eq_false_iff, Bool.and_eq_false_iff, decide_eq_false_iff_not,
    beq_eq_false_iff_ne]
  omega

theorem trimChars_eq_self {cs : List Char} (h : ∀ c ∈ cs, isBlank c = false) :
    trimChars cs = cs := by
  have keep : ∀ ds : List Char, (∀ c ∈ ds, isBlank c = false) → ds.dropWhile isBlank = ds := by
    intro ds solid
    cases ds with
    | nil => rfl
    | cons c rest => simp [solid c List.mem_cons_self]
  unfold trimChars trimEnd trimStart
  rw [keep cs h, keep cs.reverse (by simpa using h), List.reverse_reverse]

end Text

namespace Decimal

open Text (AllDigits)

/-! ## Reading digits -/

theorem readSpacedDigits_of_allDigits {cs : List Char} (h : AllDigits cs) :
    readSpacedDigits cs = some (Nat.ofDigitChars 10 cs 0) := by
  unfold readSpacedDigits
  generalize 0 = read
  induction cs generalizing read with
  | nil => rfl
  | cons c rest ih =>
      have digit := h c List.mem_cons_self
      have notUnderscore : c ≠ '_' := by
        rintro rfl
        cases digit
      rw [List.foldlM_cons, if_neg notUnderscore, Text.digitValue?, if_pos digit,
        Nat.ofDigitChars_cons, Nat.mul_comm 10 read]
      exact ih (fun d later => h d (List.mem_cons_of_mem _ later)) _

theorem readMagnitude_of_allDigits {cs : List Char} (h : AllDigits cs) (nonempty : cs ≠ []) :
    readMagnitude cs = some (Nat.ofDigitChars 10 cs 0) := by
  obtain ⟨c, rest, rfl⟩ := List.exists_cons_of_ne_nil nonempty
  have digit := h c List.mem_cons_self
  have notPlus : c ≠ '+' := by
    rintro rfl
    cases digit
  have notUnderscore : c ≠ '_' := by
    rintro rfl
    cases digit
  rw [← readSpacedDigits_of_allDigits h]
  simp [readMagnitude, notPlus, notUnderscore]

theorem readMantissa_signChars {cs : List Char} (h : AllDigits cs) (nonempty : cs ≠ []) (n : Int) :
    readMantissa (signChars n ++ cs) =
      some (if n < 0 then -(Nat.ofDigitChars 10 cs 0 : Int) else Nat.ofDigitChars 10 cs 0) := by
  obtain ⟨c, rest, rfl⟩ := List.exists_cons_of_ne_nil nonempty
  have digit := h c List.mem_cons_self
  have notPlus : c ≠ '+' := by
    rintro rfl
    cases digit
  have notMinus : c ≠ '-' := by
    rintro rfl
    cases digit
  have magnitude := readMagnitude_of_allDigits h nonempty
  by_cases negative : n < 0
  · simp [signChars, negative, readMantissa, notPlus, magnitude]
  · simp [signChars, negative, readMantissa, notMinus, magnitude]

/-! ## Marks and points -/

/-- Without an exponent the places are those behind the point. -/
theorem ofChars?_of_splitPoint {cs ds : List Char} {places : Nat} (nonempty : cs ≠ [])
    (unmarked : ∀ c ∈ cs, c ≠ 'e' ∧ c ≠ 'E') (split : splitPoint cs = (ds, places)) :
    ofChars? cs =
      if scaleInRange places then (readMantissa ds).map (⟨·, places⟩) else none := by
  have noMark : cs.dropWhile (fun c => !(c == 'e' || c == 'E')) = [] := by
    refine List.dropWhile_eq_nil_iff.mpr fun c member => ?_
    obtain ⟨small, large⟩ := unmarked c member
    simp [small, large]
  have whole : splitExponent cs = some (cs, 0) := by
    simp only [splitExponent, noMark]
  simp [ofChars?, whole, split, nonempty]

theorem mem_signChars {n : Int} {c : Char} (member : c ∈ signChars n) : c = '-' := by
  unfold signChars at member
  split at member
  · exact List.mem_singleton.mp member
  · cases member

theorem splitPoint_of_flat {cs : List Char} (flat : ∀ c ∈ cs, c ≠ '.') :
    splitPoint cs = (cs, 0) := by
  have noPoint : cs.dropWhile (· != '.') = [] := by
    refine List.dropWhile_eq_nil_iff.mpr fun c member => ?_
    simp [flat c member]
  unfold splitPoint
  rw [noPoint]

theorem splitPoint_append {lead trail : List Char} (flat : ∀ c ∈ lead, c ≠ '.')
    (digits : AllDigits trail) :
    splitPoint (lead ++ '.' :: trail) = (lead ++ trail, trail.length) := by
  have before : ∀ c ∈ lead, (c != '.') = true := fun c member => by simp [flat c member]
  have all : trail.filter (· != '_') = trail := by
    refine List.filter_eq_self.mpr fun c member => ?_
    simpa using digits.ne_of_mem member rfl
  unfold splitPoint
  rw [List.dropWhile_append_of_pos before, List.takeWhile_append_of_pos before]
  simp [all]

/-! ## Reading what was written -/

/-- Digits with a point among them are the digits, perhaps behind further zeros, with as many of
them behind the point as there are places. -/
theorem exists_pointed {cs : List Char} (digits : AllDigits cs) {places : Nat}
    (positive : 0 < places) :
    ∃ lead trail, pointed cs places = lead ++ '.' :: trail ∧ AllDigits lead ∧ AllDigits trail ∧
      trail.length = places ∧
      Nat.ofDigitChars 10 (lead ++ trail) 0 = Nat.ofDigitChars 10 cs 0 := by
  unfold pointed
  rw [if_neg positive.ne']
  split
  · next within =>
      refine ⟨_, _, rfl, fun c member => digits c (List.mem_of_mem_take member),
        fun c member => digits c (List.mem_of_mem_drop member), ?_, ?_⟩
      · rw [List.length_drop]
        omega
      · rw [List.take_append_drop]
  · next beyond =>
      refine ⟨['0'], _, rfl, by simp [AllDigits],
        (Text.allDigits_replicate_zero _).append digits, ?_, ?_⟩
      · rw [List.length_append, List.length_replicate]
        omega
      · rw [List.singleton_append, ← List.cons_append, ← List.replicate_succ,
          Nat.ofDigitChars_append, Nat.ofDigitChars_replicate_zero, Nat.mul_zero]

theorem ofDigitChars_digits (n : Nat) : Nat.ofDigitChars 10 (Text.digits n) 0 = n := by
  rw [Text.digits_eq, Nat.ofDigitChars_ten_toDigits]

/-- A number without places is written as a sign and digits, which are those of its mantissa at
scale zero. -/
theorem exists_positionalChars_of_scale_nonpos {x : Decimal} (whole : x.scale ≤ 0) :
    ∃ cs, positionalChars x = signChars x.mantissa ++ cs ∧ AllDigits cs ∧ cs ≠ [] ∧
      Nat.ofDigitChars 10 cs 0 = x.mantissa.natAbs * tenTo (-x.scale).toNat := by
  refine ⟨_, congrArg (signChars x.mantissa ++ ·) (if_pos whole),
    (Text.allDigits_digits _).append (Text.allDigits_replicate_zero _),
    List.append_ne_nil_of_left_ne_nil (Text.digits_ne_nil _) _, ?_⟩
  rw [Nat.ofDigitChars_append, ofDigitChars_digits, Nat.ofDigitChars_replicate_zero, Nat.mul_comm]
  rfl

/-- A number with places is written as a sign and the digits of its mantissa, perhaps behind
further zeros, with a point before the last of them. -/
theorem exists_positionalChars_of_scale_pos {x : Decimal} (positive : 0 < x.scale) :
    ∃ lead trail, positionalChars x = signChars x.mantissa ++ (lead ++ '.' :: trail) ∧
      AllDigits lead ∧ AllDigits trail ∧ trail.length = x.scale.toNat ∧
      Nat.ofDigitChars 10 (lead ++ trail) 0 = x.mantissa.natAbs := by
  obtain ⟨lead, trail, isPointed, leading, trailing, length, same⟩ :=
    exists_pointed (Text.allDigits_digits x.mantissa.natAbs) (show 0 < x.scale.toNat by omega)
  refine ⟨lead, trail, congrArg (signChars x.mantissa ++ ·) ?_, leading, trailing, length, ?_⟩
  · rw [if_neg (by omega), isPointed]
  · rw [same, ofDigitChars_digits]

/-- A sign and digits that make up a multiple of a magnitude are read as that multiple. -/
theorem readMantissa_of_ofDigitChars {cs : List Char} (digits : AllDigits cs) (nonempty : cs ≠ [])
    {n : Int} {factor : Nat} (magnitude : Nat.ofDigitChars 10 cs 0 = n.natAbs * factor) :
    readMantissa (signChars n ++ cs) = some (n * factor) := by
  rw [readMantissa_signChars digits nonempty, magnitude, Nat.cast_mul]
  split
  · next negative => rw [Int.ofNat_natAbs_of_nonpos negative.le, neg_mul, neg_neg]
  · next positive => rw [Int.natAbs_of_nonneg (not_lt.mp positive)]

/-- The digits of a positional form are those of the mantissa that the number has with the places
behind its point. -/
theorem splitPoint_positionalChars (x : Decimal) :
    ∃ ds, splitPoint (positionalChars x) = (ds, x.scale.toNat) ∧
      readMantissa ds = some (x.mantissaAt x.scale.toNat) := by
  have flat : ∀ {cs : List Char}, AllDigits cs → ∀ c ∈ signChars x.mantissa ++ cs, c ≠ '.' := by
    intro cs digits c member
    rcases List.mem_append.mp member with sign | digit
    · rw [mem_signChars sign]
      decide
    · exact digits.ne_of_mem digit rfl
  rw [mantissaAt_eq]
  by_cases whole : x.scale ≤ 0
  · obtain ⟨cs, chars, digits, nonempty, magnitude⟩ := exists_positionalChars_of_scale_nonpos whole
    rw [chars, Int.toNat_of_nonpos whole, Nat.cast_zero, zero_sub]
    exact ⟨_, splitPoint_of_flat (flat digits),
      readMantissa_of_ofDigitChars digits nonempty magnitude⟩
  · have places : (x.scale.toNat : Int) = x.scale := by omega
    obtain ⟨lead, trail, chars, leading, trailing, length, magnitude⟩ :=
      exists_positionalChars_of_scale_pos (x := x) (by omega)
    have nonempty : lead ++ trail ≠ [] :=
      List.append_ne_nil_of_right_ne_nil _ (List.ne_nil_of_length_pos (by omega))
    rw [chars, places, sub_self, ← List.append_assoc, splitPoint_append (flat leading) trailing,
      length, List.append_assoc]
    exact ⟨_, rfl, readMantissa_of_ofDigitChars (leading.append trailing) nonempty
      (magnitude.trans (Nat.mul_one _).symm)⟩

theorem solid_of_mem_positionalChars {x : Decimal} {c : Char} (member : c ∈ positionalChars x) :
    Text.isBlank c = false ∧ c ≠ 'e' ∧ c ≠ 'E' := by
  have solid : ∀ {cs : List Char}, AllDigits cs → c ∈ cs →
      Text.isBlank c = false ∧ c ≠ 'e' ∧ c ≠ 'E' := fun all member =>
    ⟨Text.isBlank_of_isDigit (all c member), all.ne_of_mem member rfl, all.ne_of_mem member rfl⟩
  have solidSign : c ∈ signChars x.mantissa → Text.isBlank c = false ∧ c ≠ 'e' ∧ c ≠ 'E' := by
    intro sign
    rw [mem_signChars sign]
    decide
  by_cases whole : x.scale ≤ 0
  · obtain ⟨cs, chars, digits, -⟩ := exists_positionalChars_of_scale_nonpos whole
    rw [chars] at member
    exact (List.mem_append.mp member).elim solidSign (solid digits)
  · obtain ⟨lead, trail, chars, leading, trailing, -⟩ :=
      exists_positionalChars_of_scale_pos (x := x) (by omega)
    rw [chars, List.mem_append, List.mem_append, List.mem_cons] at member
    rcases member with sign | before | rfl | behind
    · exact solidSign sign
    · exact solid leading before
    · decide
    · exact solid trailing behind

theorem positionalChars_ne_nil (x : Decimal) : positionalChars x ≠ [] := by
  intro empty
  obtain ⟨ds, split, mantissa⟩ := splitPoint_positionalChars x
  rw [empty] at split
  obtain rfl : ds = [] := (congrArg Prod.fst split).symm
  cases mantissa

/-- Reading a positional form gives the number again, with the places behind the point as its
scale, if there are not too many of them. -/
theorem ofText?_positionalChars (x : Decimal) :
    ofText? (String.ofList (positionalChars x)) =
      if scaleInRange x.scale.toNat then some ⟨x.mantissaAt x.scale.toNat, x.scale.toNat⟩
      else none := by
  obtain ⟨ds, split, mantissa⟩ := splitPoint_positionalChars x
  unfold ofText?
  rw [String.toList_ofList,
    Text.trimChars_eq_self fun c member => (solid_of_mem_positionalChars member).1,
    ofChars?_of_splitPoint (positionalChars_ne_nil x)
      (fun c member => (solid_of_mem_positionalChars member).2) split, mantissa, Option.map_some]

/-- **The plain form of an integer is read as the integer**, at scale zero. -/
theorem parseInteger_plain {x : Decimal} (h : x.isInteger = true) (field : String) :
    parseInteger field x.plain = .ok x.truncate := by
  have whole := scale_normalized_of_isInteger h
  have same : x.normalized.mantissaAt 0 = x.truncated := by
    have number := mantissaAt_eq_value whole
    rw [value_normalized, value_of_isInteger h, zpow_zero, mul_one] at number
    exact_mod_cast number
  have read := ofText?_positionalChars x.normalized
  rw [Int.toNat_of_nonpos whole, Nat.cast_zero, same, if_pos (by decide)] at read
  have parsed : parse field x.plain = .ok (ofInt x.truncated) := by
    unfold parse plain plainChars
    rw [read]
    rfl
  have again : (ofInt x.truncated).truncate = x.truncate := by
    simp [truncate, truncated_of_scale_nonpos, ofInt]
  unfold parseInteger
  rw [parsed]
  exact congrArg Except.ok again

end Decimal

end BridgeRewards
