import BridgeRewards.Error
import BridgeRewards.Proofs.Text.Hex
import BridgeRewards.Window.Tree
import Mathlib.Data.List.TakeWhile

/-!
# Addresses as text and as bytes

An address is a number, and it is written both as text and as bytes.  A text is read as an address
exactly if it is, between blanks, `0x` or `0X` and forty hexadecimal digits of either case
(`parse_eq_ok_iff`); what is written again is `0x` with the same digits in lower case, and the
bytes are those that the digits denote, two for each byte.  Numbers, texts and bytes are equal
together and ordered alike, so that leaves can be numbered in the order of the texts
(`text_is_canonical`).
-/

set_option autoImplicit false

namespace BridgeRewards

namespace Text

/-! ## Trimming -/

/-- A text is what is left of it when it is trimmed, between blanks. -/
theorem exists_trimChars (cs : List Char) : ∃ front back, cs = front ++ trimChars cs ++ back ∧
    (∀ c ∈ front, isBlank c = true) ∧ ∀ c ∈ back, isBlank c = true := by
  refine ⟨cs.takeWhile isBlank, ((trimStart cs).reverse.takeWhile isBlank).reverse, ?_, ?_, ?_⟩
  · unfold trimChars trimEnd trimStart
    rw [List.append_assoc, ← List.reverse_append, List.takeWhile_append_dropWhile,
      List.reverse_reverse, List.takeWhile_append_dropWhile]
  · exact fun c member => List.mem_takeWhile_imp member
  · exact fun c member => List.mem_takeWhile_imp (List.mem_reverse.mp member)

/-- Leading blanks end at the first character that is not blank. -/
theorem dropWhile_isBlank_append {front core : List Char}
    (blank : ∀ c ∈ front, isBlank c = true) (solid : ∀ c ∈ core.head?, isBlank c = false) :
    (front ++ core).dropWhile isBlank = core := by
  rw [List.dropWhile_append_of_pos blank]
  cases core with
  | nil => rfl
  | cons c rest => rw [List.dropWhile_cons_of_neg (by simp [solid c rfl])]

/-- A text without blanks is what is left of it by trimming, also between blanks. -/
theorem trimChars_append {front core back : List Char} (nonempty : core ≠ [])
    (solid : ∀ c ∈ core, isBlank c = false) (blankFront : ∀ c ∈ front, isBlank c = true)
    (blankBack : ∀ c ∈ back, isBlank c = true) : trimChars (front ++ core ++ back) = core := by
  have start : trimStart (front ++ core ++ back) = core ++ back := by
    rw [trimStart, List.append_assoc]
    obtain ⟨first, others, rfl⟩ := List.exists_cons_of_ne_nil nonempty
    refine dropWhile_isBlank_append blankFront fun c isFirst => ?_
    obtain rfl : first = c := Option.some.inj isFirst
    exact solid first List.mem_cons_self
  rw [trimChars, start, trimEnd, List.reverse_append,
    dropWhile_isBlank_append (fun c member => blankBack c (List.mem_reverse.mp member))
      (fun c last => solid c (List.mem_reverse.mp (List.mem_of_mem_head? last))),
    List.reverse_reverse]

end Text

namespace Address

/-! ## The texts of addresses -/

/-- A text is written with forty hexadecimal digits, of either case, behind `0x` or `0X` and
between blanks. -/
structure Written (s : String) (digits : List Char) : Prop where
  framed : ∃ front mark back, s.toList = front ++ '0' :: mark :: digits ++ back ∧
    (mark = 'x' ∨ mark = 'X') ∧ (∀ c ∈ front, Text.isBlank c = true) ∧
    ∀ c ∈ back, Text.isBlank c = true
  length : digits.length = 40
  hexadecimal : ∀ c ∈ digits, c ∈ Text.hexAlphabet

variable {s : String} {a : Address} {digits : List Char}

/-- Trimming leaves the digits behind their prefix. -/
theorem Written.trimChars (written : Written s digits) :
    ∃ mark, (mark = 'x' ∨ mark = 'X') ∧ Text.trimChars s.toList = '0' :: mark :: digits := by
  obtain ⟨front, mark, back, framed, isMark, blankFront, blankBack⟩ := written.framed
  refine ⟨mark, isMark, ?_⟩
  rw [framed]
  refine Text.trimChars_append nofun (fun c member => ?_) blankFront blankBack
  have solid : ('x' :: 'X' :: Text.hexAlphabet).all (fun c => !Text.isBlank c) = true := rfl
  refine (Bool.not_eq_true' _).mp (List.all_eq_true.mp solid c ?_)
  rcases List.mem_cons.mp member with rfl | member
  · decide
  · rcases List.mem_cons.mp member with rfl | member
    · rcases isMark with rfl | rfl <;> decide
    · exact .tail _ (.tail _ (written.hexadecimal c member))

/-- A text is not written with other digits as well. -/
theorem Written.unique {others : List Char} (written : Written s digits)
    (again : Written s others) : digits = others := by
  obtain ⟨_, -, first⟩ := written.trimChars
  obtain ⟨_, -, second⟩ := again.trimChars
  rw [first, List.cons.injEq, List.cons.injEq] at second
  exact second.2.2

theorem ofText?_of_written (written : Written s digits)
    (read : Text.readHex digits = some a.value) : ofText? s = some a := by
  obtain ⟨mark, isMark, trimmed⟩ := written.trimChars
  unfold ofText?
  rcases isMark with rfl | rfl <;>
    simp only [trimmed, Option.bind_some, if_pos written.length, read, dif_pos a.value_lt]

theorem written_of_ofText? (isAddress : ofText? s = some a) :
    ∃ digits, Written s digits ∧ Text.readHex digits = some a.value := by
  unfold ofText? at isAddress
  obtain ⟨digits, prefixed, isAddress⟩ := Option.bind_eq_some_iff.mp isAddress
  split at isAddress
  case isFalse => cases isAddress
  case isTrue length =>
    obtain ⟨n, read, isAddress⟩ := Option.bind_eq_some_iff.mp isAddress
    split at isAddress
    case isFalse => cases isAddress
    case isTrue fits =>
      obtain rfl := Option.some.inj isAddress
      obtain ⟨mark, isMark, trimmed⟩ : ∃ mark, (mark = 'x' ∨ mark = 'X') ∧
          Text.trimChars s.toList = '0' :: mark :: digits := by
        split at prefixed
        case h_1 rest trimmed => exact ⟨'x', .inl rfl, Option.some.inj prefixed ▸ trimmed⟩
        case h_2 rest trimmed => exact ⟨'X', .inr rfl, Option.some.inj prefixed ▸ trimmed⟩
        case h_3 => cases prefixed
      obtain ⟨front, back, whole, blankFront, blankBack⟩ := Text.exists_trimChars s.toList
      rw [trimmed] at whole
      exact ⟨digits, ⟨⟨front, mark, back, whole, isMark, blankFront, blankBack⟩, length,
        (Text.exists_readHex_iff digits).mp ⟨n, read⟩⟩, read⟩

/-- A text is read as an address exactly if forty hexadecimal digits in it denote the address. -/
theorem parse_eq_ok_iff :
    parse s = .ok a ↔ ∃ digits, Written s digits ∧ Text.readHex digits = some a.value := by
  have isRead : parse s = .ok a ↔ ofText? s = some a := by
    unfold parse
    cases ofText? s <;> simp
  rw [isRead]
  exact ⟨written_of_ofText?, fun ⟨_, written, read⟩ => ofText?_of_written written read⟩

theorem parse_eq_error_iff : parse s = .error (.invalidAddress s) ↔ ∀ a, parse s ≠ .ok a := by
  unfold parse
  cases ofText? s <;> simp

theorem exists_of_written (written : Written s digits) :
    ∃ a : Address, Text.readHex digits = some a.value := by
  obtain ⟨n, read⟩ := (Text.exists_readHex_iff digits).mpr written.hexadecimal
  have fits := (Text.hexDigits_of_readHex read).1
  rw [written.length] at fits
  exact ⟨⟨n, fits⟩, read⟩

theorem value_lt_digits (a : Address) : a.value < twoTo (4 * 40) := a.value_lt

theorem value_lt_bytes (a : Address) : a.value < twoTo (8 * 20) := a.value_lt

theorem written_text (a : Address) : Written a.text (Text.hexDigits 40 a.value) := by
  have read := Text.readHex_hexDigits a.value_lt_digits
  exact ⟨⟨[], 'x', [], by simp [text], .inl rfl, nofun, nofun⟩,
    Text.bigEndian_hexDigits.length 40 a.value, (Text.exists_readHex_iff _).mp ⟨_, read⟩⟩

theorem parse_text (a : Address) : parse a.text = .ok a :=
  parse_eq_ok_iff.mpr ⟨_, written_text a, Text.readHex_hexDigits a.value_lt_digits⟩

/-! ## Orders -/

theorem text_lt_text_iff (a b : Address) : a.text < b.text ↔ a < b := by
  have order := Text.bigEndian_hexDigits.lt_iff a.value_lt_digits b.value_lt_digits
  show a.text.toList < b.text.toList ↔ a.value < b.value
  rw [← order]
  simp [text]

theorem text_le_text_iff (a b : Address) : a.text ≤ b.text ↔ a ≤ b := by
  show ¬ b.text < a.text ↔ a.value ≤ b.value
  rw [text_lt_text_iff]
  exact Nat.not_lt

theorem bytes_lt_bytes_iff (a b : Address) : a.bytes < b.bytes ↔ a < b :=
  Bytes.bigEndian.lt_iff a.value_lt_bytes b.value_lt_bytes

theorem toNat_bytes (a : Address) : Bytes.toNat a.bytes = a.value :=
  Bytes.toNat_ofNat a.value_lt_bytes

theorem bytes_injective : Function.Injective bytes := fun a b same =>
  ext (Bytes.ofNat_inj a.value_lt_bytes b.value_lt_bytes same)

theorem text_injective : Function.Injective text := by
  intro a b same
  have read := parse_text a
  rw [same, parse_text b] at read
  exact (Except.ok.inj read).symm

/-- **Text and bytes of addresses are isomorphic.**  A text is read as an address exactly if it is
`0x` or `0X` and forty hexadecimal digits, between blanks, and any other text is refused.  The
address is written as `0x` and the digits in lower case, which is read as the same address, and its
twenty bytes are those that the digits denote.  Addresses are equal as their texts and their bytes
are, and the order of the texts, in which leaves are numbered, is that of the bytes, both from the
left and as big-endian numbers. -/
theorem text_is_canonical (s : String) :
    ((∃ a, parse s = .ok a) ↔ ∃ digits, Written s digits) ∧
      (parse s = .error (.invalidAddress s) ↔ ¬ ∃ digits, Written s digits) ∧
      (∀ a digits, parse s = .ok a → Written s digits →
        a.text = String.ofList ('0' :: 'x' :: digits.map Char.toLower) ∧ parse a.text = .ok a ∧
          Text.readHexBytes digits = some a.bytes ∧ a.bytes.length = 20) ∧
      (∀ a b : Address, (a = b ↔ a.bytes = b.bytes) ∧ (a = b ↔ a.text = b.text) ∧
        (a < b ↔ a.text < b.text) ∧ (a.text < b.text ↔ a.bytes < b.bytes) ∧
          (a.bytes < b.bytes ↔ Bytes.toNat a.bytes < Bytes.toNat b.bytes)) ∧
      ∀ totals, WindowTree.inOrder totals =
        totals.mergeSort fun x y => decide (x.address.text ≤ y.address.text) := by
  have accepted : (∃ a, parse s = .ok a) ↔ ∃ digits, Written s digits := by
    constructor
    · rintro ⟨a, isRead⟩
      obtain ⟨digits, written, -⟩ := parse_eq_ok_iff.mp isRead
      exact ⟨digits, written⟩
    · rintro ⟨digits, written⟩
      obtain ⟨a, read⟩ := exists_of_written written
      exact ⟨a, parse_eq_ok_iff.mpr ⟨digits, written, read⟩⟩
  refine ⟨accepted, ?_, ?_, fun a b => ⟨?_, ?_, ?_, ?_, ?_⟩, fun totals => ?_⟩
  · rw [parse_eq_error_iff, ← accepted, not_exists]
  · intro a digits isRead written
    obtain ⟨others, again, read⟩ := parse_eq_ok_iff.mp isRead
    obtain rfl := written.unique again
    have lower := (Text.hexDigits_of_readHex read).2
    rw [written.length] at lower
    have even : digits.length = 2 * 20 := written.length
    refine ⟨?_, parse_text a, Text.readHexBytes_of_readHex even read,
      Bytes.length_ofNat 20 a.value⟩
    rw [text, lower]
  · exact bytes_injective.eq_iff.symm
  · exact text_injective.eq_iff.symm
  · exact (text_lt_text_iff a b).symm
  · rw [text_lt_text_iff, bytes_lt_bytes_iff]
  · rw [bytes_lt_bytes_iff, toNat_bytes, toNat_bytes]
    rfl
  · simp only [WindowTree.inOrder, text_le_text_iff]

/-- A text between blanks, with digits of both cases, is read as the address of number 171, and
its last digit is the lower-case `b`. -/
theorem text_is_canonical_trial :
    ∃ a, parse "  0X00000000000000000000000000000000000000aB\n" = .ok a ∧
      a.text = "0x00000000000000000000000000000000000000ab" ∧ parse a.text = .ok a ∧
      a.bytes = List.replicate 19 0 ++ [0xab] := by
  have isHex : ("00000000000000000000000000000000000000aB".toList.all fun c =>
      decide (c ∈ Text.hexAlphabet)) = true := rfl
  have written : Written "  0X00000000000000000000000000000000000000aB\n"
      ("00000000000000000000000000000000000000aB".toList) := by
    refine ⟨⟨[' ', ' '], 'X', ['\n'], rfl, .inr rfl, ?_, ?_⟩, rfl, fun c member => ?_⟩
    · exact List.all_eq_true.mp rfl
    · exact List.all_eq_true.mp rfl
    · exact of_decide_eq_true (List.all_eq_true.mp isHex c member)
  have canonical := text_is_canonical "  0X00000000000000000000000000000000000000aB\n"
  obtain ⟨a, isRead⟩ := canonical.1.mpr ⟨_, written⟩
  obtain ⟨isText, again, isBytes, -⟩ := canonical.2.2.1 a _ isRead written
  refine ⟨a, isRead, isText.trans (by decide), again, ?_⟩
  exact Option.some.inj (isBytes.symm.trans (by decide))

end Address

end BridgeRewards
