/-!
# Powers of two and of ten

Widths of words are told in powers of two and places of decimals in powers of ten.  Both grow by
their base with each step and turn sums into products.
-/

set_option autoImplicit false

namespace BridgeRewards

/-- Two to a natural power. -/
def twoTo (n : Nat) : Nat := Nat.pow 2 n

/-- Ten to a natural power. -/
def tenTo (n : Nat) : Nat := Nat.pow 10 n

@[simp] theorem twoTo_zero : twoTo 0 = 1 := rfl

@[simp] theorem tenTo_zero : tenTo 0 = 1 := rfl

theorem twoTo_succ (n : Nat) : twoTo (n + 1) = 2 * twoTo n := Nat.pow_succ'

theorem tenTo_succ (n : Nat) : tenTo (n + 1) = 10 * tenTo n := Nat.pow_succ'

theorem twoTo_add (m n : Nat) : twoTo (m + n) = twoTo m * twoTo n := Nat.pow_add 2 m n

theorem tenTo_add (m n : Nat) : tenTo (m + n) = tenTo m * tenTo n := Nat.pow_add 10 m n

theorem twoTo_pos (n : Nat) : 0 < twoTo n := Nat.pow_pos (by decide)

theorem tenTo_pos (n : Nat) : 0 < tenTo n := Nat.pow_pos (by decide)

theorem twoTo_lt_twoTo {m n : Nat} (h : m < n) : twoTo m < twoTo n :=
  Nat.pow_lt_pow_right (by decide) h

/-- A number lies below ten to the power of two that is next above the logarithm of its binary
logarithm. -/
theorem lt_tenTo_twoTo_log2 (n : Nat) : n < tenTo (twoTo (n.log2.log2 + 1)) := by
  have hbits : n < twoTo (n.log2 + 1) := Nat.lt_log2_self
  have hwidth : n.log2 < twoTo (n.log2.log2 + 1) := Nat.lt_log2_self
  exact Nat.lt_of_lt_of_le hbits (Nat.le_trans (Nat.pow_le_pow_right (by decide) hwidth)
    (Nat.pow_le_pow_left (by decide) _))

end BridgeRewards
