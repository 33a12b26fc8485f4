import BridgeRewards.Powers

/-!
# Big-endian words

A number of at most `width` bytes as a word of `width` bytes, the most significant byte first, and
the number that a byte string denotes.  The two are inverse to each other (`toNat_ofNat`), so a
word of known width determines its number (`ofNat_inj`), and words of known widths can be read
back from their concatenation.
-/

set_option autoImplicit false

namespace BridgeRewards.Bytes

/-- The `width` low bytes of a number, the most significant first. -/
def ofNat : Nat → Nat → List UInt8
  | 0, _ => []
  | width + 1, n => ofNat width (n / 256) ++ [UInt8.ofNat (n % 256)]

/-- The number that a byte string denotes, the most significant byte first. -/
def toNat (bytes : List UInt8) : Nat := bytes.foldl (fun acc b => acc * 256 + b.toNat) 0

@[simp] theorem length_ofNat (width n : Nat) : (ofNat width n).length = width := by
  induction width generalizing n with
  | zero => rfl
  | succ width ih => simp [ofNat, ih]

/-- Appending a byte shifts the number by one byte and adds it. -/
theorem toNat_append_singleton (bytes : List UInt8) (b : UInt8) :
    toNat (bytes ++ [b]) = toNat bytes * 256 + b.toNat := by
  simp [toNat]

/-- A further byte makes room for `256` times as many numbers. -/
theorem twoTo_bytes_succ (width : Nat) : twoTo (8 * (width + 1)) = 256 * twoTo (8 * width) := by
  rw [Nat.mul_succ, twoTo_add, Nat.mul_comm]
  rfl

theorem toNat_ofNat_mod (width n : Nat) : toNat (ofNat width n) = n % twoTo (8 * width) := by
  induction width generalizing n with
  | zero => simp [ofNat, toNat, Nat.mod_one]
  | succ width ih =>
    rw [ofNat, toNat_append_singleton, ih, twoTo_bytes_succ, Nat.mod_mul]
    simp
    omega

theorem toNat_ofNat {width n : Nat} (h : n < twoTo (8 * width)) :
    toNat (ofNat width n) = n := by
  rw [toNat_ofNat_mod, Nat.mod_eq_of_lt h]

theorem ofNat_inj {width m n : Nat} (hm : m < twoTo (8 * width)) (hn : n < twoTo (8 * width))
    (h : ofNat width m = ofNat width n) : m = n := by
  rw [← toNat_ofNat hm, ← toNat_ofNat hn, h]

end BridgeRewards.Bytes
