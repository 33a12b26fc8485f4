import BridgeRewards.Bytes
import BridgeRewards.Hash.Keccak
import BridgeRewards.Hash.Blake3
import BridgeRewards.Text.Hex

/-!
# Hashes of 32 bytes

A hash is a number below `2 ^ 256`, written as 64 hexadecimal digits after `0x`.  Its order is
that of the numbers, which is the order of its big-endian bytes.
-/

set_option autoImplicit false

namespace BridgeRewards

/-- A hash of 32 bytes, as the number that its bytes denote. -/
structure Hash32 where
  value : Nat
  value_lt : value < twoTo 256
  deriving DecidableEq

namespace Hash32

@[ext] theorem ext {a b : Hash32} (h : a.value = b.value) : a = b := by
  cases a; cases b; simp_all

/-- The hash whose bytes are all zero. -/
def zero : Hash32 := ⟨0, twoTo_pos 256⟩

/-- Whether all bytes are zero. -/
def isZero (h : Hash32) : Bool := h.value == 0

/-- The hash that the last 32 of some bytes make up. -/
def ofBytes (bytes : List UInt8) : Hash32 :=
  ⟨Bytes.toNat bytes % twoTo 256, Nat.mod_lt _ (twoTo_pos 256)⟩

/-- The 32 bytes of a hash. -/
def bytes (h : Hash32) : List UInt8 := Bytes.ofNat 32 h.value

@[simp] theorem length_bytes (h : Hash32) : h.bytes.length = 32 := Bytes.length_ofNat 32 _

theorem bytes_inj {a b : Hash32} (h : a.bytes = b.bytes) : a = b :=
  ext (Bytes.ofNat_inj a.value_lt b.value_lt h)

instance : Ord Hash32 where
  compare a b := compare a.value b.value

instance : LE Hash32 where
  le a b := a.value ≤ b.value

instance (a b : Hash32) : Decidable (a ≤ b) := inferInstanceAs (Decidable (a.value ≤ b.value))

/-- A hash as text: `0x` and 64 digits. -/
def text (h : Hash32) : String := String.ofList ('0' :: 'x' :: Text.hexDigits 64 h.value)

/-- The short form of a hash: its first eight bytes. -/
def abbreviated (h : Hash32) : String :=
  "Bytes32(" ++ String.ofList ((h.text.toList).take 18) ++ "...)"

/-- The hash that a text of 64 hexadecimal digits denotes, with or without `0x` before it. -/
def ofText? (s : String) : Option Hash32 :=
  let digits := match s.toList with
    | '0' :: 'x' :: rest => rest
    | cs => cs
  if digits.length = 64 then
    (Text.readHex digits).bind fun n => if h : n < twoTo 256 then some ⟨n, h⟩ else none
  else none

/-- The Keccak-256 hash of some bytes. -/
def keccak256 (bytes : List UInt8) : Hash32 := ofBytes (Hash.Keccak.digest bytes)

/-- The BLAKE3 hash of some bytes. -/
def blake3 (bytes : List UInt8) : Hash32 := ofBytes (Hash.Blake3.digest bytes)

end Hash32

end BridgeRewards
