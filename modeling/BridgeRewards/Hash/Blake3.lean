import BridgeRewards.Chunks

/-!
# BLAKE3

The unkeyed hash with an output of 32 bytes.  A message is cut into chunks of 1024 bytes and each
chunk into blocks of 64; the compression function chains the blocks of a chunk, and the chaining
values of the chunks are combined two by two, a last one without a neighbour moving up, until two
are left.  The node above them, or a lone chunk, is compressed with the root flag.
-/

set_option autoImplicit false

namespace BridgeRewards.Hash.Blake3

/-- Eight words that stand for everything hashed below a node. -/
abbrev ChainingValue := Vector UInt32 8

/-- The sixteen words of a block. -/
abbrev Block := Vector UInt32 16

/-- The chaining value that every chunk starts from. -/
def initial : ChainingValue :=
  #v[0x6A09E667, 0xBB67AE85, 0x3C6EF372, 0xA54FF53A, 0x510E527F, 0x9B05688C, 0x1F83D9AB, 0x5BE0CD19]

/-- The place from which each message word comes in the next round. -/
def permutation : Vector (Fin 16) 16 := #v[2, 6, 3, 10, 7, 0, 4, 13, 1, 11, 12, 5, 9, 14, 15, 8]

/-- The flag of the first block of a chunk. -/
def flagChunkStart : UInt32 := 1

/-- The flag of the last block of a chunk. -/
def flagChunkEnd : UInt32 := 2

/-- The flag of a node above others. -/
def flagParent : UInt32 := 4

/-- The flag of the last compression. -/
def flagRoot : UInt32 := 8

/-- A word turned to the right. -/
def rotateRight (word amount : UInt32) : UInt32 := (word >>> amount) ||| (word <<< (32 - amount))

/-- Mixes two message words into four words of the state. -/
def mix (s : Block) (a b c d : Fin 16) (x y : UInt32) : Block :=
  let a1 := s[a] + s[b] + x
  let d1 := rotateRight (s[d] ^^^ a1) 16
  let c1 := s[c] + d1
  let b1 := rotateRight (s[b] ^^^ c1) 12
  let a2 := a1 + b1 + y
  let d2 := rotateRight (d1 ^^^ a2) 8
  let c2 := c1 + d2
  let b2 := rotateRight (b1 ^^^ c2) 7
  (((s.set a a2).set b b2).set c c2).set d d2

/-- Mixes a whole block into the state, first along the columns, then along the diagonals. -/
def round (s m : Block) : Block :=
  let s := mix s 0 4 8 12 m[0] m[1]
  let s := mix s 1 5 9 13 m[2] m[3]
  let s := mix s 2 6 10 14 m[4] m[5]
  let s := mix s 3 7 11 15 m[6] m[7]
  let s := mix s 0 5 10 15 m[8] m[9]
  let s := mix s 1 6 11 12 m[10] m[11]
  let s := mix s 2 7 8 13 m[12] m[13]
  mix s 3 4 9 14 m[14] m[15]

/-- The block with its words moved as the next round reads them. -/
def permuteBlock (m : Block) : Block := Vector.ofFn fun i => m[permutation[i]]

/-- Seven rounds, the message words moved after each. -/
def rounds : Nat → Block → Block → Block
  | 0, s, _ => s
  | n + 1, s, m => rounds n (round s m) (permuteBlock m)

/-- The compression function, cut to its first eight words. -/
def compress (cv : ChainingValue) (m : Block) (counter : UInt64) (length flags : UInt32) :
    ChainingValue :=
  let s : Block := #v[cv[0], cv[1], cv[2], cv[3], cv[4], cv[5], cv[6], cv[7],
    initial[0], initial[1], initial[2], initial[3],
    counter.toUInt32, (counter >>> 32).toUInt32, length, flags]
  let out := rounds 7 s m
  Vector.ofFn fun i => out[i.castLE (by decide : 8 ≤ 16)] ^^^ out[i.natAdd 8]

/-- The word that up to four bytes make up, the least significant first. -/
def wordOfBytes (bytes : List UInt8) : UInt32 :=
  bytes.foldr (fun b acc => (acc <<< 8) ||| b.toUInt32) 0

/-- The four bytes of a word, the least significant first. -/
def bytesOfWord (word : UInt32) : List UInt8 :=
  (List.range 4).map fun i => (word >>> (8 * i).toUInt32).toUInt8

/-- A block of up to 64 bytes, filled up with zeros. -/
def blockOfBytes (bytes : List UInt8) : Block :=
  let words := ((chunksOf 3 bytes).map wordOfBytes).toArray
  Vector.ofFn fun i => words.getD i.val 0

/-- Chains the blocks of a chunk; the last of them gets the closing flags. -/
def chain (counter : UInt64) (closing : UInt32) :
    ChainingValue → UInt32 → List (List UInt8) → ChainingValue
  | cv, opening, [] => compress cv (blockOfBytes []) counter 0 (opening ||| closing)
  | cv, opening, [last] =>
    compress cv (blockOfBytes last) counter last.length.toUInt32 (opening ||| closing)
  | cv, opening, block :: rest =>
    chain counter closing (compress cv (blockOfBytes block) counter block.length.toUInt32 opening)
      0 rest

/-- The chaining value of a chunk, with `extra` flags on its last block. -/
def chunk (counter : Nat) (extra : UInt32) (bytes : List UInt8) : ChainingValue :=
  chain counter.toUInt64 (flagChunkEnd ||| extra) initial flagChunkStart (chunksOf 63 bytes)

/-- The chaining value of the node above two others. -/
def parent (extra : UInt32) (left right : ChainingValue) : ChainingValue :=
  compress initial (left ++ right) 0 64 (flagParent ||| extra)

/-- The chaining value at the root of two or more chunks; each of `height` levels halves their
number. -/
def root : Nat → List ChainingValue → ChainingValue
  | _, [left, right] => parent flagRoot left right
  | height + 1, cvs => root height (pairUp (parent 0) cvs)
  | 0, cvs => cvs.headD initial

/-- The 32 bytes of the hash of a message. -/
def digest (message : List UInt8) : List UInt8 :=
  let cv := match chunksOf 1023 message with
    | [] => chunk 0 flagRoot []
    | [only] => chunk 0 flagRoot only
    | chunks => root chunks.length (chunks.zipIdx.map fun (bytes, i) => chunk i 0 bytes)
  cv.toList.flatMap bytesOfWord

end BridgeRewards.Hash.Blake3
