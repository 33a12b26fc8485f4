import BridgeRewards.Bytes
import BridgeRewards.Text.Hex
import Mathlib.Data.List.Induction

/-!
# Hexadecimal digits and bytes

A text of hexadecimal digits is read as one number (`exists_readHex_iff`), and the number is
written back as the same digits in lower case (`hexDigits_of_readHex`).  Read byte by byte, the
digits are the bytes of the number (`readHexBytes_of_readHex`).

Digits and bytes are both written with the most significant place first (`BigEndian`).  So numbers
of one width are ordered as what is written for them is, from the left (`BigEndian.lt_iff`).
-/

set_option autoImplicit false

namespace BridgeRewards

/-! ## The most significant place first -/

/-- Whole and remainder order numbers as the numbers are ordered. -/
theorem lt_iff_div_mod {base m n : Nat} :
    m < n ↔ m / base < n / base ∨ m / base = n / base ∧ m % base < n % base := by
  have splitFirst := Nat.div_add_mod m base
  have splitSecond := Nat.div_add_mod n base
  constructor
  · intro less
    rcases Nat.lt_or_eq_of_le (Nat.div_le_div_right (Nat.le_of_lt less)) with high | same
    · exact .inl high
    · rw [same] at splitFirst
      exact .inr ⟨same, by omega⟩
  · rintro (high | ⟨same, low⟩)
    · exact Nat.lt_of_div_lt_div high
    · rw [same] at splitFirst
      omega

section

variable {α : Type} [LT α]

/-- Lists of one length are ordered by their last places only if they agree in all others. -/
theorem append_singleton_lt_iff {xs ys : List α} (same : xs.length = ys.length) (a b : α) :
    xs ++ [a] < ys ++ [b] ↔ xs < ys ∨ xs = ys ∧ a < b := by
  induction xs generalizing ys with
  | nil =>
      obtain rfl : ys = [] := List.length_eq_zero_iff.mp same.symm
      simp [List.cons_lt_cons_iff]
  | cons x xs ih =>
      cases ys with
      | nil => cases same
      | cons y ys =>
          rw [List.cons_append, List.cons_append, List.cons_lt_cons_iff, List.cons_lt_cons_iff,
            ih (Nat.succ.inj same), List.cons.injEq]
          tauto

/-- A way to write numbers in places of some bits each, the most significant place first, where
larger places stand for larger numbers. -/
structure BigEndian (bits : Nat) (place : Nat → α) (write : Nat → Nat → List α) : Prop where
  empty : ∀ n, write 0 n = []
  last : ∀ width n,
    write (width + 1) n = write width (n / twoTo bits) ++ [place (n % twoTo bits)]
  increasing : ∀ m < twoTo bits, ∀ n < twoTo bits, place m < place n ↔ m < n

variable {bits : Nat} {place : Nat → α} {write : Nat → Nat → List α}

theorem BigEndian.length (writing : BigEndian bits place write) (width n : Nat) :
    (write width n).length = width := by
  induction width generalizing n with
  | zero => rw [writing.empty, List.length_nil]
  | succ width ih => rw [writing.last, List.length_append, ih, List.length_singleton]

/-- Numbers of one width are ordered as what is written for them. -/
theorem BigEndian.lt_iff (writing : BigEndian bits place write) {width m n : Nat}
    (first : m < twoTo (bits * width)) (second : n < twoTo (bits * width)) :
    write width m < write width n ↔ m < n := by
  induction width generalizing m n with
  | zero =>
      rw [Nat.mul_zero, twoTo_zero, Nat.lt_one_iff] at first second
      rw [first, second, writing.empty]
      simp
  | succ width ih =>
      have high : ∀ {k}, k < twoTo (bits * (width + 1)) →
          k / twoTo bits < twoTo (bits * width) := by
        intro k fits
        rw [Nat.mul_succ, twoTo_add, Nat.mul_comm] at fits
        exact Nat.div_lt_of_lt_mul fits
      have order := ih (high first) (high second)
      have reverse := ih (high second) (high first)
      have never := ih (high first) (high first)
      -- what is written for the high places is the same only if they are
      have equal : write width (m / twoTo bits) = write width (n / twoTo bits) ↔
          m / twoTo bits = n / twoTo bits := by
        refine ⟨fun same => ?_, congrArg (write width)⟩
        rw [← same] at order reverse
        have := order.symm.trans never
        have := reverse.symm.trans never
        omega
      rw [writing.last, writing.last,
        append_singleton_lt_iff (by rw [writing.length, writing.length]), order, equal,
        writing.increasing _ (Nat.mod_lt _ (twoTo_pos bits)) _ (Nat.mod_lt _ (twoTo_pos bits))]
      exact lt_iff_div_mod.symm

end

theorem Bytes.bigEndian : BigEndian 8 UInt8.ofNat Bytes.ofNat where
  empty _ := rfl
  last _ _ := rfl
  increasing m first n second := by
    have isFirst : m < 2 ^ 8 := first
    have isSecond : n < 2 ^ 8 := second
    rw [UInt8.lt_iff_toNat_lt, UInt8.toNat_ofNat_of_lt' isFirst, UInt8.toNat_ofNat_of_lt' isSecond]

namespace Text

theorem bigEndian_hexDigits : BigEndian 4 hexDigit hexDigits where
  empty _ := rfl
  last _ _ := rfl
  increasing := by decide

/-! ## Single digits -/

/-- The hexadecimal digits of either case. -/
def hexAlphabet : List Char := "0123456789abcdefABCDEF".toList

/-- What is true of the first 128 characters and of all others is true of every character. -/
theorem forall_char {P : Char → Prop} (ascii : ∀ n < 128, P (Char.ofNat n))
    (others : ∀ c : Char, 128 ≤ c.toNat → P c) (c : Char) : P c := by
  rcases Nat.lt_or_ge c.toNat 128 with below | above
  · exact Char.ofNat_toNat c ▸ ascii c.toNat below
  · exact others c above

theorem hexValue?_of_le {c : Char} (above : 128 ≤ c.toNat) : hexValue? c = none := by
  have upTo : ∀ last : Char, last.toNat < 128 → ¬ c ≤ last := by
    intro last small le
    have : c.toNat ≤ last.toNat := le
    omega
  unfold hexValue?
  rw [if_neg fun digit => upTo '9' (by decide) digit.2,
    if_neg fun digit => upTo 'f' (by decide) digit.2,
    if_neg fun digit => upTo 'F' (by decide) digit.2]

theorem isSome_hexValue?_iff (c : Char) : (hexValue? c).isSome = true ↔ c ∈ hexAlphabet := by
  refine forall_char (P := fun c => (hexValue? c).isSome = true ↔ c ∈ hexAlphabet)
    (by decide +kernel) ?_ c
  intro c above
  rw [hexValue?_of_le above]
  refine ⟨nofun, fun digit => ?_⟩
  have small : hexAlphabet.all (fun c => decide (c.toNat < 128)) = true := rfl
  have := of_decide_eq_true (List.all_eq_true.mp small c digit)
  omega

/-- A digit with a value below sixteen is written as the digit in lower case. -/
theorem hexDigit_of_hexValue? {c : Char} {d : Nat} (isValue : hexValue? c = some d) :
    d < 16 ∧ hexDigit d = c.toLower := by
  have all : ∀ e ∈ hexValue? c, e < 16 ∧ hexDigit e = c.toLower :=
    forall_char (P := fun c => ∀ e ∈ hexValue? c, e < 16 ∧ hexDigit e = c.toLower)
      (by decide +kernel)
      (fun c above e isValue => by rw [hexValue?_of_le above] at isValue; cases isValue) c
  exact all d isValue

theorem hexValue?_hexDigit : ∀ d < 16, hexValue? (hexDigit d) = some d := by decide

/-! ## Reading and writing numbers -/

theorem readHex_concat (cs : List Char) (c : Char) :
    readHex (cs ++ [c]) = (readHex cs).bind fun n => (hexValue? c).map (n * 16 + ·) := by
  simp [readHex, List.foldlM_append]

/-- What is read of a text is below sixteen to its length, and is written as the text in lower
case. -/
theorem hexDigits_of_readHex {cs : List Char} {n : Nat} (read : readHex cs = some n) :
    n < twoTo (4 * cs.length) ∧ hexDigits cs.length n = cs.map Char.toLower := by
  induction cs using List.reverseRecOn generalizing n with
  | nil =>
      obtain rfl : 0 = n := Option.some.inj read
      exact ⟨Nat.zero_lt_one, rfl⟩
  | append_singleton cs c ih =>
      rw [readHex_concat] at read
      obtain ⟨high, isHigh, isValue⟩ := Option.bind_eq_some_iff.mp read
      obtain ⟨d, isDigit, rfl⟩ := Option.map_eq_some_iff.mp isValue
      obtain ⟨small, lower⟩ := hexDigit_of_hexValue? isDigit
      obtain ⟨fits, written⟩ := ih isHigh
      rw [List.length_append, List.length_singleton]
      constructor
      · have room : twoTo (4 * cs.length + 4) = twoTo (4 * cs.length) * 16 := twoTo_add _ 4
        show high * 16 + d < twoTo (4 * cs.length + 4)
        omega
      · have whole : (high * 16 + d) / 16 = high := by omega
        have rest : (high * 16 + d) % 16 = d := by omega
        rw [hexDigits, whole, rest, written, lower, List.map_append, List.map_singleton]

theorem readHex_hexDigits {width n : Nat} (fits : n < twoTo (4 * width)) :
    readHex (hexDigits width n) = some n := by
  induction width generalizing n with
  | zero =>
      obtain rfl : n = 0 := Nat.lt_one_iff.mp fits
      rfl
  | succ width ih =>
      rw [Nat.mul_succ, twoTo_add, Nat.mul_comm] at fits
      have high : n / 16 < twoTo (4 * width) := Nat.div_lt_of_lt_mul fits
      rw [hexDigits, readHex_concat, ih high, Option.bind_some,
        hexValue?_hexDigit _ (Nat.mod_lt n (by decide)), Option.map_some, Nat.div_add_mod']

theorem exists_readHex_iff (cs : List Char) :
    (∃ n, readHex cs = some n) ↔ ∀ c ∈ cs, c ∈ hexAlphabet := by
  induction cs using List.reverseRecOn with
  | nil => simp [readHex]
  | append_singleton cs c ih =>
      simp only [List.mem_append, List.mem_singleton, or_imp, forall_and, forall_eq]
      rw [← ih, ← isSome_hexValue?_iff, Option.isSome_iff_exists, readHex_concat]
      constructor
      · rintro ⟨n, read⟩
        obtain ⟨high, isHigh, isValue⟩ := Option.bind_eq_some_iff.mp read
        obtain ⟨d, isDigit, -⟩ := Option.map_eq_some_iff.mp isValue
        exact ⟨⟨high, isHigh⟩, d, isDigit⟩
      · rintro ⟨⟨high, isHigh⟩, d, isDigit⟩
        rw [isHigh, isDigit]
        exact ⟨_, rfl⟩

/-! ## Reading bytes -/

theorem readHexBytes_append {cs : List Char} {bytes : List UInt8}
    (read : readHexBytes cs = some bytes) {high low : Char} {h l : Nat}
    (isHigh : hexValue? high = some h) (isLow : hexValue? low = some l) :
    readHexBytes (cs ++ [high, low]) = some (bytes ++ [UInt8.ofNat (h * 16 + l)]) := by
  fun_induction readHexBytes cs generalizing bytes with
  | case1 =>
      obtain rfl : [] = bytes := Option.some.inj read
      simp [readHexBytes, isHigh, isLow]
  | case2 => cases read
  | case3 first second rest ih =>
      simp only [Option.bind_eq_bind, Option.bind_eq_some_iff] at read
      obtain ⟨h', isFirst, l', isSecond, others, isOthers, isBytes⟩ := read
      obtain rfl := Option.some.inj isBytes
      simp [readHexBytes, isFirst, isSecond, ih isOthers]

/-- Byte by byte, digits are read as the bytes of their number. -/
theorem readHexBytes_of_readHex {width : Nat} {cs : List Char} {n : Nat}
    (length : cs.length = 2 * width) (read : readHex cs = some n) :
    readHexBytes cs = some (Bytes.ofNat width n) := by
  induction width generalizing cs n with
  | zero =>
      obtain rfl := List.length_eq_zero_iff.mp length
      rfl
  | succ width ih =>
      obtain ⟨front, high, low, rfl⟩ : ∃ front high low, cs = front ++ [high] ++ [low] := by
        cases cs using List.reverseRecOn with
        | nil => cases length
        | append_singleton others low =>
            cases others using List.reverseRecOn with
            | nil =>
                rw [List.nil_append, List.length_singleton] at length
                omega
            | append_singleton front high => exact ⟨front, high, low, rfl⟩
      rw [readHex_concat, readHex_concat] at read
      obtain ⟨_, isNumber, isLow⟩ := Option.bind_eq_some_iff.mp read
      obtain ⟨m, isFront, isHigh⟩ := Option.bind_eq_some_iff.mp isNumber
      obtain ⟨h, valueHigh, rfl⟩ := Option.map_eq_some_iff.mp isHigh
      obtain ⟨l, valueLow, rfl⟩ := Option.map_eq_some_iff.mp isLow
      have smallHigh := (hexDigit_of_hexValue? valueHigh).1
      have smallLow := (hexDigit_of_hexValue? valueLow).1
      have whole : ((m * 16 + h) * 16 + l) / 256 = m := by omega
      have rest : ((m * 16 + h) * 16 + l) % 256 = h * 16 + l := by omega
      have shorter : front.length = 2 * width := by
        simp at length
        omega
      rw [Bytes.ofNat, whole, rest, List.append_assoc]
      exact readHexBytes_append (ih shorter isFront) valueHigh valueLow

end Text

end BridgeRewards
