import BridgeRewards.Chunks

/-!
# Keccak-256

The sponge over the permutation of 1600 bits, with a rate of 136 bytes and the padding that
starts with the byte `0x01`, which is the variant that contracts use.  A state is 25 lanes of 64
bits; lane `(x, y)` stands at index `5 * y + x`, and the bytes of a lane are in little-endian
order.
-/

set_option autoImplicit false

namespace BridgeRewards.Hash.Keccak

/-- A state of the permutation: 25 lanes. -/
abbrev State := Vector UInt64 25

/-- The index of lane `(x, y)`. -/
def lane (x y : Fin 5) : Fin 25 := ⟨5 * y.val + x.val, by omega⟩

/-- The column of a lane index. -/
def column (i : Fin 25) : Fin 5 := ⟨i.val % 5, by omega⟩

/-- The row of a lane index. -/
def row (i : Fin 25) : Fin 5 := ⟨i.val / 5, by omega⟩

/-- A word turned to the left by fewer than 64 bits. -/
def rotateLeft (word amount : UInt64) : UInt64 := (word <<< amount) ||| (word >>> (64 - amount))

/-- How far each lane is turned. -/
def offsets : Vector UInt64 25 :=
  #v[0, 1, 62, 28, 27, 36, 44, 6, 55, 20, 3, 10, 43, 25, 39, 41, 45, 15, 21, 8, 18, 2, 61, 56, 14]

/-- The constant that each round adds to the first lane. -/
def roundConstants : List UInt64 :=
  [0x0000000000000001, 0x0000000000008082, 0x800000000000808A, 0x8000000080008000,
   0x000000000000808B, 0x0000000080000001, 0x8000000080008081, 0x8000000000008009,
   0x000000000000008A, 0x0000000000000088, 0x0000000080008009, 0x000000008000000A,
   0x000000008000808B, 0x800000000000008B, 0x8000000000008089, 0x8000000000008003,
   0x8000000000008002, 0x8000000000000080, 0x000000000000800A, 0x800000008000000A,
   0x8000000080008081, 0x8000000000008080, 0x0000000080000001, 0x8000000080008008]

/-- Each lane gains the parities of two neighbouring columns. -/
def mixColumns (s : State) : State :=
  let parity : Vector UInt64 5 := Vector.ofFn fun x =>
    s[lane x 0] ^^^ s[lane x 1] ^^^ s[lane x 2] ^^^ s[lane x 3] ^^^ s[lane x 4]
  Vector.ofFn fun i =>
    s[i] ^^^ parity[column i + 4] ^^^ rotateLeft parity[column i + 1] 1

/-- Each lane is turned and moved to another place. -/
def moveLanes (s : State) : State :=
  Vector.ofFn fun i =>
    let source := lane (column i + 3 * row i) (column i)
    rotateLeft s[source] offsets[source]

/-- Each lane gains a product of its two neighbours in the row. -/
def mixRows (s : State) : State :=
  Vector.ofFn fun i =>
    s[i] ^^^ (~~~ s[lane (column i + 1) (row i)] &&& s[lane (column i + 2) (row i)])

/-- One round of the permutation. -/
def round (s : State) (constant : UInt64) : State :=
  let mixed := mixRows (moveLanes (mixColumns s))
  mixed.set 0 (mixed[0] ^^^ constant)

/-- The permutation: 24 rounds. -/
def permute (s : State) : State := roundConstants.foldl round s

/-- The number of bytes that one permutation absorbs. -/
def rate : Nat := 136

/-- A message filled up to a multiple of the rate. -/
def pad (message : List UInt8) : List UInt8 :=
  let missing := rate - message.length % rate
  if missing = 1 then message ++ [0x81]
  else message ++ 0x01 :: List.replicate (missing - 2) 0 ++ [0x80]

/-- The lane that up to eight bytes make up, the least significant first. -/
def laneOfBytes (bytes : List UInt8) : UInt64 :=
  bytes.foldr (fun b acc => (acc <<< 8) ||| b.toUInt64) 0

/-- The eight bytes of a lane, the least significant first. -/
def bytesOfLane (word : UInt64) : List UInt8 :=
  (List.range 8).map fun i => (word >>> (8 * i).toUInt64).toUInt8

/-- A state after one block of the message. -/
def absorb (s : State) (block : List UInt8) : State :=
  let lanes := ((chunksOf 7 block).map laneOfBytes).toArray
  permute (Vector.ofFn fun i => s[i] ^^^ lanes.getD i.val 0)

/-- The 32 bytes of the hash of a message. -/
def digest (message : List UInt8) : List UInt8 :=
  let final := (chunksOf (rate - 1) (pad message)).foldl absorb (Vector.replicate 25 0)
  (final.toList.take 4).flatMap bytesOfLane

end BridgeRewards.Hash.Keccak
