import BridgeRewards.Powers

/-!
# Exact decimals

A decimal is an integer mantissa times a power of ten: `⟨m, s⟩` stands for `m · 10 ^ (-s)`, and
the scale `s` may be negative.  Several pairs stand for one number, so numerical equality is a
relation of its own, `Decimal.Same`, beside the equality of pairs; sums, products and comparisons
are exact.  Cutting off the fraction goes toward zero.

The scale is an unbounded integer here, whereas the decimals that are kept and exchanged have a
scale that is a signed number of 64 bits.  What is read of a text has such a scale
(`Decimal.scaleInRange`), but a product or a quotient need not have one.  It exists here all the
same, and where its text has to be read back a statement names the bound `2 ^ 63`.
-/

set_option autoImplicit false

namespace BridgeRewards

/-- The number `mantissa · 10 ^ (-scale)`, at a scale without bounds. -/
structure Decimal where
  mantissa : Int
  scale : Int
  deriving DecidableEq, Repr, Inhabited

namespace Decimal

/-- An integer as a decimal. -/
def ofInt (n : Int) : Decimal := ⟨n, 0⟩

instance : Zero Decimal := ⟨ofInt 0⟩

/-- The power of ten with a natural exponent. -/
def powerOfTen (exponent : Nat) : Decimal := ⟨1, -(exponent : Int)⟩

/-- The power of ten with a negated natural exponent. -/
def inversePowerOfTen (exponent : Nat) : Decimal := ⟨1, exponent⟩

/-- Whether the number is zero. -/
def isZero (x : Decimal) : Bool := x.mantissa == 0

/-- The mantissa that the number has at a scale which is at least its own. -/
def mantissaAt (x : Decimal) (scale : Int) : Int :=
  if x.mantissa = 0 then 0 else x.mantissa * tenTo (scale - x.scale).toNat

theorem mantissaAt_eq (x : Decimal) (scale : Int) :
    x.mantissaAt scale = x.mantissa * tenTo (scale - x.scale).toNat := by
  unfold mantissaAt
  split <;> simp_all

/-- The larger of two scales, at which both numbers have a mantissa. -/
def commonScale (x y : Decimal) : Int := max x.scale y.scale

/-- The sum, at the larger of the two scales. -/
def add (x y : Decimal) : Decimal :=
  let s := commonScale x y
  ⟨x.mantissaAt s + y.mantissaAt s, s⟩

/-- The number with the opposite sign. -/
def neg (x : Decimal) : Decimal := ⟨-x.mantissa, x.scale⟩

/-- The difference, at the larger of the two scales unless one of the numbers is zero. -/
def sub (x y : Decimal) : Decimal :=
  if y.isZero then x else if x.isZero then neg y else add x (neg y)

/-- A number without its trailing zeros, if these are fewer than `2 ^ level`, and how many there
were.  Half of them are taken off at once. -/
def stripFewer : Nat → Nat → Nat × Nat
  | 0, n => (n, 0)
  | level + 1, n =>
    if n % tenTo (twoTo level) = 0 then
      let (m, k) := stripFewer level (n / tenTo (twoTo level))
      (m, k + twoTo level)
    else stripFewer level n

/-- A positive number without its trailing zeros, and how many there were. -/
def stripZeros (n : Nat) : Nat × Nat := stripFewer (n.log2.log2 + 1) n

theorem stripFewer_mul (level n : Nat) :
    (stripFewer level n).1 * tenTo (stripFewer level n).2 = n := by
  induction level generalizing n with
  | zero => simp [stripFewer]
  | succ level ih =>
    rw [stripFewer]
    split
    case isTrue h =>
      show (stripFewer level (n / tenTo (twoTo level))).1 *
        tenTo ((stripFewer level (n / tenTo (twoTo level))).2 + twoTo level) = n
      rw [tenTo_add, ← Nat.mul_assoc, ih, Nat.div_mul_cancel (Nat.dvd_of_mod_eq_zero h)]
    case isFalse => exact ih n

theorem stripFewer_mod_ten {level n : Nat} (h : n % tenTo (twoTo level) ≠ 0) :
    (stripFewer level n).1 % 10 ≠ 0 := by
  induction level generalizing n with
  | zero => exact h
  | succ level ih =>
    rw [stripFewer]
    split
    case isTrue hzero =>
      apply ih
      intro hlow
      apply h
      rw [twoTo_succ, Nat.two_mul, tenTo_add]
      apply Nat.mod_eq_zero_of_dvd
      rw [← Nat.div_mul_cancel (Nat.dvd_of_mod_eq_zero hzero)]
      exact Nat.mul_dvd_mul_right (Nat.dvd_of_mod_eq_zero hlow) _
    case isFalse hsome => exact ih hsome

theorem stripZeros_mul (n : Nat) : (stripZeros n).1 * tenTo (stripZeros n).2 = n :=
  stripFewer_mul _ n

/-- What is left of a positive number ends in no zero. -/
theorem stripZeros_mod_ten {n : Nat} (h : 0 < n) : (stripZeros n).1 % 10 ≠ 0 := by
  apply stripFewer_mod_ten
  rw [Nat.mod_eq_of_lt (lt_tenTo_twoTo_log2 n)]
  exact Nat.ne_of_gt h

/-- The same number with the smallest possible mantissa; zero has scale zero. -/
def normalized (x : Decimal) : Decimal :=
  if x.mantissa = 0 then 0
  else
    let (m, k) := stripZeros x.mantissa.natAbs
    ⟨x.mantissa.sign * m, x.scale - k⟩

/-- The product; the scales add up. -/
def mul (x y : Decimal) : Decimal := ⟨x.mantissa * y.mantissa, x.scale + y.scale⟩

/-- The largest number of places with which one is recognised. -/
def maxPlacesOfOne : Int := 38

/-- Whether a number is one and written with few enough places to be recognised. -/
def isShortOne (x : Decimal) : Bool :=
  0 ≤ x.scale && x.scale ≤ maxPlacesOfOne && x.mantissa == tenTo x.scale.toNat

/-- The product; beside a one it is the other number in its shortest form. -/
def mulNormalized (x y : Decimal) : Decimal :=
  if x.isShortOne then y.normalized
  else if y.isShortOne then x.normalized
  else mul x y

instance : Add Decimal := ⟨add⟩
instance : Neg Decimal := ⟨neg⟩
instance : Sub Decimal := ⟨sub⟩
instance : Mul Decimal := ⟨mul⟩

/-- Whether two decimals are the same number. -/
def Same (x y : Decimal) : Prop :=
  x.mantissaAt (commonScale x y) = y.mantissaAt (commonScale x y)

instance : LT Decimal where
  lt x y := x.mantissaAt (commonScale x y) < y.mantissaAt (commonScale x y)

instance : LE Decimal where
  le x y := x.mantissaAt (commonScale x y) ≤ y.mantissaAt (commonScale x y)

/-! ## Comparing numbers of distant scales

Scales may be so far apart that no mantissa at the common scale could be written down.  But ten
to as many places as a mantissa has binary digits exceeds it, and further places change neither a
comparison with it nor its quotient. -/

/-- As many of some places as matter beside a mantissa. -/
def cappedPlaces (places : Nat) (mantissa : Int) : Nat := min places (mantissa.natAbs.log2 + 1)

theorem cappedPlaces_le (places : Nat) (mantissa : Int) : cappedPlaces places mantissa ≤ places :=
  Nat.min_le_left _ _

@[simp] theorem cappedPlaces_zero (mantissa : Int) : cappedPlaces 0 mantissa = 0 :=
  Nat.zero_min _

/-- Where places are left out, ten to those that are kept exceeds the mantissa. -/
theorem natAbs_lt_of_cappedPlaces_lt {places : Nat} {mantissa : Int}
    (h : cappedPlaces places mantissa < places) :
    mantissa.natAbs < tenTo (cappedPlaces places mantissa) := by
  have kept : cappedPlaces places mantissa = mantissa.natAbs.log2 + 1 := by
    unfold cappedPlaces at h ⊢
    omega
  rw [kept]
  exact Nat.lt_of_lt_of_le Nat.lt_log2_self (Nat.pow_le_pow_left (by decide) _)

/-- Once a power of ten exceeds a mantissa, larger powers compare with it in the same way. -/
theorem lt_mul_tenTo_iff {a b : Int} {c d : Nat} (hcd : c ≤ d) (ha : a.natAbs < tenTo c) :
    (a < b * tenTo d ↔ a < b * tenTo c) ∧ (b * tenTo d < a ↔ b * tenTo c < a) := by
  have hpow : (tenTo c : Int) ≤ tenTo d :=
    Int.ofNat_le.mpr (Nat.pow_le_pow_right (by decide) hcd)
  rcases Int.lt_trichotomy b 0 with hb | hb | hb
  · have h1 : b * tenTo c ≤ -1 * (tenTo c : Int) :=
      Int.mul_le_mul_of_nonneg_right (by omega) (by omega)
    have h2 : b * tenTo d ≤ -1 * (tenTo d : Int) :=
      Int.mul_le_mul_of_nonneg_right (by omega) (by omega)
    omega
  · simp [hb]
  · have h1 : 1 * (tenTo c : Int) ≤ b * tenTo c :=
      Int.mul_le_mul_of_nonneg_right (by omega) (by omega)
    have h2 : 1 * (tenTo d : Int) ≤ b * tenTo d :=
      Int.mul_le_mul_of_nonneg_right (by omega) (by omega)
    omega

/-- A mantissa that stands to that of the other number as the two numbers stand to each other. -/
def mantissaBeside (x y : Decimal) : Int :=
  x.mantissa * tenTo (cappedPlaces (y.scale - x.scale).toNat y.mantissa)

/-- Places that do not matter may be left out of a comparison, on either side. -/
theorem mul_tenTo_cappedPlaces_lt_iff (a b : Int) (d : Nat) :
    (a < b * tenTo d ↔ a < b * tenTo (cappedPlaces d a)) ∧
      (b * tenTo d < a ↔ b * tenTo (cappedPlaces d a) < a) := by
  rcases Nat.lt_or_eq_of_le (cappedPlaces_le d a) with h | h
  · exact lt_mul_tenTo_iff (cappedPlaces_le d a) (natAbs_lt_of_cappedPlaces_lt h)
  · rw [h]
    exact ⟨Iff.rfl, Iff.rfl⟩

theorem lt_iff_mantissaBeside (x y : Decimal) :
    x < y ↔ x.mantissaBeside y < y.mantissaBeside x := by
  show x.mantissaAt (commonScale x y) < y.mantissaAt (commonScale x y) ↔ _
  rw [mantissaAt_eq, mantissaAt_eq, mantissaBeside, mantissaBeside, commonScale]
  rcases Int.le_total x.scale y.scale with h | h
  · rw [Int.max_eq_right h, Int.sub_self, Int.toNat_eq_zero.mpr (Int.sub_nonpos_of_le h)]
    simpa using (mul_tenTo_cappedPlaces_lt_iff y.mantissa x.mantissa _).2
  · rw [Int.max_eq_left h, Int.sub_self, Int.toNat_eq_zero.mpr (Int.sub_nonpos_of_le h)]
    simpa using (mul_tenTo_cappedPlaces_lt_iff x.mantissa y.mantissa _).1

theorem le_iff_not_lt (x y : Decimal) : x ≤ y ↔ ¬ y < x := by
  show x.mantissaAt (commonScale x y) ≤ y.mantissaAt (commonScale x y) ↔
    ¬ y.mantissaAt (commonScale y x) < x.mantissaAt (commonScale y x)
  rw [show commonScale y x = commonScale x y from Int.max_comm _ _]
  omega

theorem same_iff (x y : Decimal) : Same x y ↔ x ≤ y ∧ y ≤ x := by
  show x.mantissaAt (commonScale x y) = y.mantissaAt (commonScale x y) ↔
    x.mantissaAt (commonScale x y) ≤ y.mantissaAt (commonScale x y) ∧
      y.mantissaAt (commonScale y x) ≤ x.mantissaAt (commonScale y x)
  rw [show commonScale y x = commonScale x y from Int.max_comm _ _]
  omega

instance (x y : Decimal) : Decidable (x < y) :=
  decidable_of_iff _ (lt_iff_mantissaBeside x y).symm

instance (x y : Decimal) : Decidable (x ≤ y) := decidable_of_iff _ (le_iff_not_lt x y).symm

instance (x y : Decimal) : Decidable (Same x y) := decidable_of_iff _ (same_iff x y).symm

/-! ## Integers among the decimals -/

/-- The integer part, toward zero. -/
def truncated (x : Decimal) : Int :=
  if x.mantissa = 0 then 0
  else if x.scale ≤ 0 then x.mantissa * tenTo (-x.scale).toNat
  else x.mantissa.tdiv (tenTo (cappedPlaces x.scale.toNat x.mantissa))

theorem truncated_of_scale_nonpos {x : Decimal} (h : x.scale ≤ 0) :
    x.truncated = x.mantissa * tenTo (-x.scale).toNat := by
  unfold truncated
  split <;> simp_all

theorem truncated_of_scale_pos {x : Decimal} (h : 0 < x.scale) :
    x.truncated = x.mantissa.tdiv (tenTo x.scale.toNat) := by
  unfold truncated
  rw [if_neg (Int.not_le.mpr h)]
  rcases Nat.lt_or_eq_of_le (cappedPlaces_le x.scale.toNat x.mantissa) with capped | all
  · have kept := natAbs_lt_of_cappedPlaces_lt capped
    have more : x.mantissa.natAbs < tenTo x.scale.toNat :=
      Nat.lt_of_lt_of_le kept (Nat.pow_le_pow_right (by decide) (cappedPlaces_le _ _))
    have zero : ∀ n : Nat, x.mantissa.natAbs < n → x.mantissa.tdiv n = 0 := by
      intro n hn
      apply Int.natAbs_eq_zero.mp
      rw [Int.natAbs_tdiv]
      exact Nat.div_eq_of_lt hn
    rw [zero _ kept, zero _ more]
    simp
  · rw [all]
    split <;> simp_all

/-- The number without its fraction, at scale zero. -/
def truncate (x : Decimal) : Decimal := ofInt x.truncated

/-- Whether the number is an integer, whatever its scale. -/
def isInteger (x : Decimal) : Bool :=
  x.scale ≤ 0 || x.mantissa % tenTo (cappedPlaces x.scale.toNat x.mantissa) == 0

theorem isInteger_iff (x : Decimal) :
    x.isInteger = true ↔ x.scale ≤ 0 ∨ (tenTo x.scale.toNat : Int) ∣ x.mantissa := by
  simp only [isInteger, Bool.or_eq_true, decide_eq_true_eq, beq_iff_eq,
    ← Int.dvd_iff_emod_eq_zero]
  apply or_congr_right
  rcases Nat.lt_or_eq_of_le (cappedPlaces_le x.scale.toNat x.mantissa) with capped | all
  · have kept := natAbs_lt_of_cappedPlaces_lt capped
    have more : x.mantissa.natAbs < tenTo x.scale.toNat :=
      Nat.lt_of_lt_of_le kept (Nat.pow_le_pow_right (by decide) (cappedPlaces_le _ _))
    have zero : ∀ n : Nat, x.mantissa.natAbs < n → ((n : Int) ∣ x.mantissa ↔ x.mantissa = 0) := by
      intro n hn
      refine ⟨fun h => Int.eq_zero_of_dvd_of_natAbs_lt_natAbs h (by simpa using hn), ?_⟩
      intro h
      simp [h]
    rw [zero _ kept, zero _ more]
  · rw [all]

/-- The sum of a list of decimals. -/
def sum (xs : List Decimal) : Decimal := xs.foldl (· + ·) 0

end Decimal

end BridgeRewards
