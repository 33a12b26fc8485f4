import BridgeRewards.Proofs.Merkle.Climb
import Mathlib.Data.List.Induction

/-!
# Descending from the root

A proof that leads to the root of a tree is followed from the root down.  A node above the leaves
is the hash of 64 bytes, those of its two children in order.  So where the proof reaches such a
node its last step hashed the same 64 bytes, and then it came from one of the two children, or
else different bytes have one hash.  In the end the proof, or the part of it below, stands at a
leaf (`collides_or_mem_of_climb_eq_top`).

The bytes are collected as they are hashed: `nodeInputs` for a tree and `climbInputs` for a
proof.  Nothing is assumed about the hash function; where the argument would need it to be
injective, two of the collected byte strings are a collision.
-/

set_option autoImplicit false

namespace BridgeRewards

/-- The bytes of two hashes, the smaller one first. -/
def Hash32.pairBytes (a b : Hash32) : List UInt8 :=
  if a ≤ b then a.bytes ++ b.bytes else b.bytes ++ a.bytes

theorem Hash32.pair_eq (a b : Hash32) : pair a b = keccak256 (pairBytes a b) := by
  unfold pair pairBytes
  split <;> rfl

@[simp] theorem Hash32.length_pairBytes (a b : Hash32) : (pairBytes a b).length = 64 := by
  unfold pairBytes
  split <;> simp

theorem Hash32.pairBytes_inj {a b c d : Hash32} (h : pairBytes a b = pairBytes c d) :
    a = c ∧ b = d ∨ a = d ∧ b = c := by
  have halves : ∀ {p q r s : Hash32}, p.bytes ++ q.bytes = r.bytes ++ s.bytes → p = r ∧ q = s := by
    intro p q r s equal
    obtain ⟨first, second⟩ := List.append_inj equal (by simp)
    exact ⟨bytes_inj first, bytes_inj second⟩
  unfold pairBytes at h
  split at h <;> split at h
  · exact .inl (halves h)
  · exact .inr (halves h)
  · exact .inr (halves h).symm
  · exact .inl (halves h).symm

/-- Two different byte strings among some have one hash. -/
def Collides (inputs : List (List UInt8)) : Prop :=
  ∃ first ∈ inputs, ∃ second ∈ inputs, first ≠ second ∧
    Hash32.keccak256 first = Hash32.keccak256 second

/-- Byte strings with one hash are equal, or they collide. -/
theorem eq_or_collides {inputs : List (List UInt8)} {first second : List UInt8}
    (isFirst : first ∈ inputs) (isSecond : second ∈ inputs)
    (same : Hash32.keccak256 first = Hash32.keccak256 second) :
    first = second ∨ Collides inputs := by
  by_cases equal : first = second
  · exact .inl equal
  · exact .inr ⟨first, isFirst, second, isSecond, equal, same⟩

namespace Merkle

/-- The byte strings that are hashed to go one level up. -/
def levelInputs : List Hash32 → List (List UInt8)
  | left :: right :: rest => Hash32.pairBytes left right :: levelInputs rest
  | _ => []

/-- The byte strings that are hashed to build the tree over some leaves. -/
def nodeInputs (leaves : List Hash32) : List (List UInt8) :=
  (levels leaves).flatMap levelInputs

/-- The byte strings that are hashed to climb from a leaf along a proof. -/
def climbInputs : Hash32 → List Hash32 → List (List UInt8)
  | _, [] => []
  | node, sibling :: rest =>
    Hash32.pairBytes node sibling :: climbInputs (Hash32.pair node sibling) rest

/-- A level is hashed on the way to the root if there is one above it. -/
theorem nodeInputs_of_lt_length {leaves : List Hash32} (long : ¬ leaves.length ≤ 1) :
    nodeInputs leaves = levelInputs leaves ++ nodeInputs (pairUp Hash32.pair leaves) := by
  unfold nodeInputs
  rw [levels_of_lt_length long, List.flatMap_cons]

theorem length_of_mem_levelInputs {level : List Hash32} {bytes : List UInt8}
    (h : bytes ∈ levelInputs level) : bytes.length = 64 := by
  fun_induction levelInputs level with
  | case1 left right rest ih =>
      rcases List.mem_cons.mp h with rfl | h
      · exact Hash32.length_pairBytes left right
      · exact ih h
  | case2 => cases h

theorem length_of_mem_nodeInputs {leaves : List Hash32} {bytes : List UInt8}
    (h : bytes ∈ nodeInputs leaves) : bytes.length = 64 := by
  obtain ⟨level, -, h⟩ := List.mem_flatMap.mp h
  exact length_of_mem_levelInputs h

theorem length_of_mem_climbInputs {node : Hash32} {proof : List Hash32} {bytes : List UInt8}
    (h : bytes ∈ climbInputs node proof) : bytes.length = 64 := by
  induction proof generalizing node with
  | nil => cases h
  | cons sibling rest ih =>
      rcases List.mem_cons.mp h with rfl | h
      · exact Hash32.length_pairBytes node sibling
      · exact ih h

theorem climbInputs_append (node : Hash32) (lower upper : List Hash32) :
    climbInputs node (lower ++ upper) =
      climbInputs node lower ++ climbInputs (climb node lower) upper := by
  induction lower generalizing node with
  | nil => rfl
  | cons sibling lower ih => simp [climbInputs, climb, ih]

/-- The node at the end of a proof that is not empty is the hash of a pair. -/
theorem climb_concat (node : Hash32) (lower : List Hash32) (sibling : Hash32) :
    climb node (lower ++ [sibling]) =
      Hash32.keccak256 (Hash32.pairBytes (climb node lower) sibling) := by
  rw [climb_append, ← Hash32.pair_eq]
  rfl

theorem pairBytes_mem_climbInputs (node : Hash32) (lower : List Hash32) (sibling : Hash32)
    (upper : List Hash32) :
    Hash32.pairBytes (climb node lower) sibling ∈
      climbInputs node (lower ++ [sibling] ++ upper) := by
  rw [List.append_assoc, climbInputs_append]
  exact List.mem_append_right _ List.mem_cons_self

theorem mem_pairUp {level : List Hash32} {node : Hash32}
    (h : node ∈ pairUp Hash32.pair level) :
    (∃ left ∈ level, ∃ right ∈ level, Hash32.pairBytes left right ∈ levelInputs level ∧
      node = Hash32.keccak256 (Hash32.pairBytes left right)) ∨ node ∈ level := by
  fun_induction pairUp Hash32.pair level with
  | case1 left right rest ih =>
      rcases List.mem_cons.mp h with rfl | h
      · exact .inl ⟨left, by simp, right, by simp, by simp [levelInputs], Hash32.pair_eq _ _⟩
      · rcases ih h with ⟨a, ha, b, hb, hashed, rfl⟩ | old
        · exact .inl ⟨a, by simp [ha], b, by simp [hb], by simp [levelInputs, hashed], rfl⟩
        · exact .inr (by simp [old])
  | case2 single => exact .inr h
  | case3 => exact .inr h

theorem pairUp_ne_nil {level : List Hash32} (h : level ≠ []) :
    pairUp Hash32.pair level ≠ [] := by
  have length := length_pairUp Hash32.pair level
  have positive := List.length_pos_iff.mpr h
  intro empty
  rw [empty, List.length_nil] at length
  omega

section Descent

variable {start : List UInt8} {proof : List Hash32} {inputs : List (List UInt8)}

/-- One level down.  A part of the proof that stands at a node of the next level stands, or an
even shorter part does, at a node of this one, unless there is a collision. -/
theorem collides_or_mem_of_mem_pairUp {level : List Hash32} (long : start.length ≠ 64)
    (hashedStart : start ∈ inputs) (hashedLevel : levelInputs level ⊆ inputs)
    (hashedProof : climbInputs (Hash32.keccak256 start) proof ⊆ inputs)
    (above : ∃ lower upper, proof = lower ++ upper ∧
      climb (Hash32.keccak256 start) lower ∈ pairUp Hash32.pair level) :
    Collides inputs ∨ ∃ lower upper, proof = lower ++ upper ∧
      climb (Hash32.keccak256 start) lower ∈ level := by
  obtain ⟨lower, upper, rfl, here⟩ := above
  rcases mem_pairUp here with ⟨left, isLeft, right, isRight, hashed, equal⟩ | promoted
  -- The node is the hash of a pair.  So is what the proof has come to if it took a step, and
  -- without a step it has come to the hash of the start, which is no pair.
  · cases lower using List.reverseRecOn with
    | nil =>
        rcases eq_or_collides hashedStart (hashedLevel hashed) equal with same | collides
        · exact absurd (by rw [same]; simp) long
        · exact .inl collides
    | append_singleton lower sibling _ =>
        have hashedLast := hashedProof (pairBytes_mem_climbInputs _ lower sibling upper)
        rw [climb_concat] at equal
        rcases eq_or_collides hashedLast (hashedLevel hashed) equal with same | collides
        · refine .inr ⟨lower, sibling :: upper, by simp, ?_⟩
          rcases Hash32.pairBytes_inj same with ⟨child, -⟩ | ⟨child, -⟩
          · exact child ▸ isLeft
          · exact child ▸ isRight
        · exact .inl collides
  · exact .inr ⟨lower, upper, rfl, promoted⟩

/-- **A proof that leads to the root passes through a leaf.**  It starts from the hash of bytes
that are not of the length of a pair. -/
theorem collides_or_mem_of_climb_eq_top {leaves : List Hash32} (long : start.length ≠ 64)
    (some : leaves ≠ []) (hashedStart : start ∈ inputs) (hashedNodes : nodeInputs leaves ⊆ inputs)
    (hashedProof : climbInputs (Hash32.keccak256 start) proof ⊆ inputs)
    (leads : climb (Hash32.keccak256 start) proof = top (levels leaves)) :
    Collides inputs ∨ ∃ lower upper, proof = lower ++ upper ∧
      climb (Hash32.keccak256 start) lower ∈ leaves := by
  -- The induction goes down from the root: the next level is settled before this one.
  induction leaves using levels.induct with
  | case1 leaves short =>
      refine .inr ⟨proof, [], by simp, ?_⟩
      rw [leads, levels_of_length_le short]
      cases leaves with
      | nil => exact absurd rfl some
      | cons first rest => exact List.mem_cons_self
  | case2 leaves more ih =>
      rw [nodeInputs_of_lt_length more] at hashedNodes
      rw [levels_of_lt_length more, top_cons (levels_ne_nil _)] at leads
      have hashedLevel := List.Subset.trans (List.subset_append_left _ _) hashedNodes
      have hashedAbove := List.Subset.trans (List.subset_append_right _ _) hashedNodes
      rcases ih (pairUp_ne_nil some) hashedAbove leads with collides | above
      · exact .inl collides
      · exact collides_or_mem_of_mem_pairUp long hashedStart hashedLevel hashedProof above

end Descent

end Merkle

end BridgeRewards
