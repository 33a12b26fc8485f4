import BridgeRewards.Merkle.Leaf
import BridgeRewards.Proofs.Decimal.Sum
import BridgeRewards.Proofs.Outcome

/-!
# Packed leaves

A leaf can be packed exactly when its index and its amount are words, and then its bytes are the
two words with the address between them.  The three parts have known widths, so the bytes of a
leaf determine its index, its account and the number that its amount is (`packed_inj`).

An index of 64 bits is always a word.  So whether a leaf can be packed is a matter of its amount
alone, and of the number that the amount is rather than of the scale at which it is written
(`packed_exact`).
-/

set_option autoImplicit false

namespace BridgeRewards

namespace Bytes

/-- The number that the bytes from one position up to another denote. -/
def numberIn (bytes : List UInt8) (start stop : Nat) : Nat := toNat ((bytes.take stop).drop start)

/-- The number between what comes before it and what comes behind it. -/
theorem numberIn_append {front middle rear : List UInt8} {start stop : Nat}
    (before : front.length = start) (upTo : (front ++ middle).length = stop) :
    numberIn (front ++ middle ++ rear) start stop = toNat middle := by
  rw [numberIn, List.take_left' upTo, List.drop_left' before]

end Bytes

namespace Decimal

theorem toWord?_eq_some {x : Decimal} {n : Nat} :
    x.toWord? = some n ↔
      0 ≤ x.mantissa ∧ x.isInteger = true ∧ x.truncated < twoTo 256 ∧ x.truncated.toNat = n := by
  unfold toWord?
  by_cases negative : x.mantissa < 0
  · rw [if_pos negative]
    simp
    omega
  · rw [if_neg negative]
    by_cases integer : x.isInteger = true
    · by_cases fits : x.truncated < twoTo 256
      · simp [integer, fits, Int.not_lt.mp negative]
      · simp [integer, fits]
    · simp [integer]

theorem truncated_nonneg {x : Decimal} (h : 0 ≤ x.mantissa) : 0 ≤ x.truncated := by
  by_cases flat : x.scale ≤ 0
  · rw [truncated_of_scale_nonpos flat]
    exact Int.mul_nonneg h (Int.natCast_nonneg _)
  · rw [truncated_of_scale_pos (Int.not_le.mp flat)]
    exact Int.tdiv_nonneg h (Int.natCast_nonneg _)

theorem value_of_toWord? {x : Decimal} {n : Nat} (h : x.toWord? = some n) : x.value = n := by
  obtain ⟨sign, integer, -, rfl⟩ := toWord?_eq_some.mp h
  rw [value_of_isInteger integer, ← Int.cast_natCast, Int.toNat_of_nonneg (truncated_nonneg sign)]

theorem lt_of_toWord? {x : Decimal} {n : Nat} (h : x.toWord? = some n) : n < twoTo 256 := by
  obtain ⟨sign, -, fits, rfl⟩ := toWord?_eq_some.mp h
  have := truncated_nonneg sign
  omega

/-- Whether a number is a natural number below `2 ^ 256`. -/
def IsWord (x : Decimal) : Prop := ∃ n : Nat, n < twoTo 256 ∧ x.value = n

/-- What is packed as a word is the number alone, whatever the scale. -/
theorem isWord_iff (x : Decimal) : x.IsWord ↔ ∃ n, x.toWord? = some n := by
  constructor
  · rintro ⟨n, fits, number⟩
    have number' : x.value = ((n : ℤ) : ℚ) := by exact_mod_cast number
    have sign : 0 ≤ x.mantissa := by
      by_contra negative
      have below : x.value < 0 :=
        mul_neg_of_neg_of_pos (by exact_mod_cast Int.not_le.mp negative) (zpow_ten_pos _)
      have above : (0 : ℚ) ≤ n := Nat.cast_nonneg n
      exact absurd (number ▸ below) (not_lt.mpr above)
    have truncated := truncated_of_value number'
    have integer := (isInteger_iff_value x).mpr ⟨n, number'⟩
    refine ⟨n, toWord?_eq_some.mpr ⟨sign, integer, ?_, ?_⟩⟩
    · rw [truncated]
      exact_mod_cast fits
    · rw [truncated, Int.toNat_natCast]
  · rintro ⟨n, isWord⟩
    exact ⟨n, lt_of_toWord? isWord, value_of_toWord? isWord⟩

theorem toWord?_ofInt {n : Nat} (h : n < twoTo 256) : (ofInt n).toWord? = some n := by
  have truncated : (ofInt n).truncated = n := by
    rw [truncated_of_scale_nonpos (by simp [ofInt])]
    simp [ofInt]
  refine toWord?_eq_some.mpr ⟨by simp [ofInt], by simp [isInteger, ofInt], ?_, ?_⟩
  · rw [truncated]
    exact_mod_cast h
  · rw [truncated]
    exact Int.toNat_natCast n

theorem word_eq_ok {x : Decimal} {bytes : List UInt8} :
    x.word = .ok bytes ↔ ∃ n, x.toWord? = some n ∧ Bytes.ofNat 32 n = bytes := by
  unfold word
  cases h : x.toWord? with
  | none => simp
  | some n => simp

end Decimal

namespace Leaf

/-- The packed bytes of a leaf: the word of its index, its address and the word of its amount. -/
theorem packed_eq_ok {leaf : Leaf} {bytes : List UInt8} :
    leaf.packed = .ok bytes ↔
      leaf.accountIndex < twoTo 256 ∧ ∃ n, leaf.amount.toWord? = some n ∧
        Bytes.ofNat 32 leaf.accountIndex ++ leaf.account.bytes ++ Bytes.ofNat 32 n = bytes := by
  unfold packed
  simp only [Outcome.bind_eq_ok, Decimal.word_eq_ok]
  constructor
  · rintro ⟨_, ⟨index, isIndex, rfl⟩, _, ⟨n, isWord, rfl⟩, whole⟩
    have same : index = leaf.accountIndex := by
      have := Decimal.value_of_toWord? isIndex
      rw [Decimal.value_ofInt] at this
      exact_mod_cast this.symm
    subst same
    exact ⟨Decimal.lt_of_toWord? isIndex, n, isWord, Except.ok.inj whole⟩
  · rintro ⟨fits, n, isWord, rfl⟩
    exact ⟨_, ⟨_, Decimal.toWord?_ofInt fits, rfl⟩, _, ⟨n, isWord, rfl⟩, rfl⟩

theorem length_packed {leaf : Leaf} {bytes : List UInt8} (h : leaf.packed = .ok bytes) :
    bytes.length = 84 := by
  obtain ⟨-, n, -, rfl⟩ := packed_eq_ok.mp h
  simp [Address.bytes]

/-- The positions at which the three parts of a leaf are found in its bytes. -/
theorem numberIn_packed {leaf : Leaf} {bytes : List UInt8} (h : leaf.packed = .ok bytes) :
    Bytes.numberIn bytes 0 32 = leaf.accountIndex ∧
      Bytes.numberIn bytes 32 52 = leaf.account.value ∧
      (Bytes.numberIn bytes 52 84 : ℚ) = leaf.amount.value := by
  obtain ⟨fits, n, amount, rfl⟩ := packed_eq_ok.mp h
  refine ⟨?_, ?_, ?_⟩
  · have index : Bytes.numberIn ([] ++ Bytes.ofNat 32 leaf.accountIndex ++
        (leaf.account.bytes ++ Bytes.ofNat 32 n)) 0 32 = leaf.accountIndex := by
      rw [Bytes.numberIn_append List.length_nil (by simp), Bytes.toNat_ofNat fits]
    rwa [List.nil_append, ← List.append_assoc] at index
  · rw [Bytes.numberIn_append (by simp) (by simp [Address.bytes]), Address.bytes,
      Bytes.toNat_ofNat leaf.account.value_lt]
  · have number : Bytes.numberIn (Bytes.ofNat 32 leaf.accountIndex ++ leaf.account.bytes ++
        Bytes.ofNat 32 n ++ []) 52 84 = n := by
      rw [Bytes.numberIn_append (by simp [Address.bytes]) (by simp [Address.bytes]),
        Bytes.toNat_ofNat (Decimal.lt_of_toWord? amount)]
    rw [List.append_nil] at number
    rw [number, Decimal.value_of_toWord? amount]

theorem packed_inj {first second : Leaf} {bytes : List UInt8} (hfirst : first.packed = .ok bytes)
    (hsecond : second.packed = .ok bytes) :
    first.accountIndex = second.accountIndex ∧ first.account = second.account ∧
      first.amount.Same second.amount := by
  obtain ⟨indexFirst, accountFirst, amountFirst⟩ := numberIn_packed hfirst
  obtain ⟨indexSecond, accountSecond, amountSecond⟩ := numberIn_packed hsecond
  refine ⟨indexFirst.symm.trans indexSecond, ?_, ?_⟩
  · exact Address.ext (accountFirst.symm.trans accountSecond)
  · exact (Decimal.same_iff_value_eq _ _).mpr (amountFirst.symm.trans amountSecond)

theorem packed_congr {first second : Leaf} {bytes : List UInt8}
    (hfirst : first.packed = .ok bytes) (index : first.accountIndex = second.accountIndex)
    (account : first.account = second.account)
    (number : first.amount.value = second.amount.value) : second.packed = .ok bytes := by
  obtain ⟨fits, m, wordFirst, rfl⟩ := packed_eq_ok.mp hfirst
  have isWord : second.amount.IsWord :=
    ⟨m, Decimal.lt_of_toWord? wordFirst, number ▸ Decimal.value_of_toWord? wordFirst⟩
  obtain ⟨n, wordSecond⟩ := (Decimal.isWord_iff _).mp isWord
  obtain rfl : n = m := by
    rw [Decimal.value_of_toWord? wordFirst, Decimal.value_of_toWord? wordSecond] at number
    exact_mod_cast number.symm
  rw [index] at fits
  rw [index, account]
  exact packed_eq_ok.mpr ⟨fits, n, wordSecond, rfl⟩

theorem isWord_of_packed {leaf : Leaf} {bytes : List UInt8} (h : leaf.packed = .ok bytes) :
    leaf.amount.IsWord := by
  obtain ⟨-, n, amount, -⟩ := packed_eq_ok.mp h
  exact (Decimal.isWord_iff _).mpr ⟨n, amount⟩

theorem exists_packed {leaf : Leaf} (fits : leaf.accountIndex < twoTo 256)
    (isWord : leaf.amount.IsWord) : ∃ bytes, leaf.packed = .ok bytes := by
  obtain ⟨n, amount⟩ := (Decimal.isWord_iff _).mp isWord
  exact ⟨_, packed_eq_ok.mpr ⟨fits, n, amount, rfl⟩⟩

theorem packed_of_not_isWord {leaf : Leaf} (fits : leaf.accountIndex < twoTo 256)
    (unfit : ¬ leaf.amount.IsWord) : leaf.packed = .error (.amountOutOfRange leaf.amount) := by
  have index := Decimal.word_eq_ok.mpr ⟨_, Decimal.toWord?_ofInt fits, rfl⟩
  have amount : leaf.amount.word = .error (.amountOutOfRange leaf.amount) := by
    rw [Decimal.isWord_iff, not_exists] at unfit
    unfold Decimal.word
    rw [Option.eq_none_iff_forall_ne_some.mpr unfit]
  unfold packed
  rw [index, amount]
  rfl

/-- **The packed form is exact.**  A leaf is packed if and only if its amount is a natural number
below `2 ^ 256`, at whatever scale, and it is refused for its amount otherwise.  Its 84 bytes are
the index, the account and the amount, and two leaves have the same bytes if and only if they have
the same index, the same account and amounts that are one number. -/
theorem packed_exact (leaf : Leaf) (fits : leaf.accountIndex < twoTo 64) :
    ((∃ bytes, leaf.packed = .ok bytes) ↔ leaf.amount.IsWord) ∧
      (¬ leaf.amount.IsWord → leaf.packed = .error (.amountOutOfRange leaf.amount)) ∧
      ∀ bytes, leaf.packed = .ok bytes →
        bytes.length = 84 ∧ Bytes.numberIn bytes 0 32 = leaf.accountIndex ∧
          Bytes.numberIn bytes 32 52 = leaf.account.value ∧
          (Bytes.numberIn bytes 52 84 : ℚ) = leaf.amount.value ∧
          ∀ other : Leaf, other.packed = .ok bytes ↔
            leaf.accountIndex = other.accountIndex ∧ leaf.account = other.account ∧
              leaf.amount.value = other.amount.value := by
  have isIndex : leaf.accountIndex < twoTo 256 := fits.trans (twoTo_lt_twoTo (by decide))
  refine ⟨⟨?_, exists_packed isIndex⟩, packed_of_not_isWord isIndex, ?_⟩
  · exact fun ⟨bytes, isPacked⟩ => isWord_of_packed isPacked
  · intro bytes isPacked
    obtain ⟨index, account, amount⟩ := numberIn_packed isPacked
    refine ⟨length_packed isPacked, index, account, amount, fun other => ⟨?_, ?_⟩⟩
    · intro same
      obtain ⟨indices, accounts, amounts⟩ := packed_inj isPacked same
      exact ⟨indices, accounts, (Decimal.same_iff_value_eq _ _).mp amounts⟩
    · rintro ⟨indices, accounts, amounts⟩
      exact packed_congr isPacked indices accounts amounts

/-- Ten and a half cannot be packed, but a hundred and five can, also with a place too many. -/
theorem packed_exact_trial :
    (⟨7, .zero, ⟨105, 1⟩⟩ : Leaf).packed = .error (.amountOutOfRange ⟨105, 1⟩) ∧
      ∃ bytes, (⟨7, .zero, ⟨1050, 1⟩⟩ : Leaf).packed = .ok bytes ∧
        (⟨7, .zero, ⟨105, 0⟩⟩ : Leaf).packed = .ok bytes ∧ Bytes.numberIn bytes 0 32 = 7 := by
  have fraction := packed_exact ⟨7, .zero, ⟨105, 1⟩⟩ (by decide)
  have whole := packed_exact ⟨7, .zero, ⟨1050, 1⟩⟩ (by decide)
  refine ⟨fraction.2.1 ?_, ?_⟩
  · rintro ⟨n, -, number⟩
    have tenth : (105 : ℚ) = (n * 10 : Nat) := by
      rw [Nat.cast_mul, ← number]
      norm_num [Decimal.value]
    have : 105 = n * 10 := by exact_mod_cast tenth
    omega
  · obtain ⟨bytes, isPacked⟩ := whole.1.mpr ⟨105, by decide, by norm_num [Decimal.value]⟩
    obtain ⟨-, index, -, -, others⟩ := whole.2.2 bytes isPacked
    exact ⟨bytes, isPacked, (others _).mpr ⟨rfl, rfl, by norm_num [Decimal.value]⟩, index⟩

theorem hash_eq_ok {leaf : Leaf} {hash : Hash32} :
    leaf.hash = .ok hash ↔ ∃ bytes, leaf.packed = .ok bytes ∧ Hash32.keccak256 bytes = hash := by
  unfold Leaf.hash
  rw [Outcome.bind_eq_ok]
  refine exists_congr fun bytes => and_congr_right fun _ => ?_
  exact ⟨Except.ok.inj, congrArg Except.ok⟩

theorem failsWith_hash (leaf : Leaf) :
    Outcome.FailsWith (fun e => ∃ amount, e = .amountOutOfRange amount ∧ amount.toWord? = none)
      leaf.hash := by
  have word : ∀ x : Decimal, Outcome.FailsWith (fun e => ∃ amount : Decimal,
      e = RewardError.amountOutOfRange amount ∧ amount.toWord? = none) x.word := by
    intro x
    unfold Decimal.word
    split
    · exact Outcome.failsWith_ok _
    · next unfit => exact Outcome.failsWith_error ⟨x, rfl, unfit⟩
  exact ((word _).bind fun _ => (word _).bind fun _ => Outcome.failsWith_ok _).bind fun _ =>
    Outcome.failsWith_ok _

theorem isWord_of_hash {leaf : Leaf} {hash : Hash32} (hashed : leaf.hash = .ok hash) :
    leaf.amount.IsWord := by
  obtain ⟨bytes, isPacked, -⟩ := hash_eq_ok.mp hashed
  exact isWord_of_packed isPacked

/-- A leaf whose index is a word has no hash only if its amount is no word, and says so. -/
theorem unfit_of_hash_eq_error {leaf : Leaf} {e : RewardError}
    (fits : leaf.accountIndex < twoTo 256) (failed : leaf.hash = .error e) :
    ¬ leaf.amount.IsWord ∧ e = .amountOutOfRange leaf.amount := by
  unfold hash at failed
  by_cases isWord : leaf.amount.IsWord
  · obtain ⟨bytes, isPacked⟩ := exists_packed fits isWord
    rw [isPacked] at failed
    cases failed
  · rw [packed_of_not_isWord fits isWord] at failed
    exact ⟨isWord, (Except.error.inj failed).symm⟩

end Leaf

end BridgeRewards
