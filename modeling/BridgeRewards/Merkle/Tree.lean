import BridgeRewards.Chunks
import BridgeRewards.Error

/-!
# Merkle trees

A node hashes its two children in increasing order, so a proof is a bare list of siblings and
which side each stands on need not be said.  A node without a neighbour moves up unchanged and
has no sibling at that level.  The root of the empty tree is the zero hash.
-/

set_option autoImplicit false

namespace BridgeRewards

/-- The hash of two hashes, the smaller one first. -/
def Hash32.pair (a b : Hash32) : Hash32 :=
  if a ≤ b then keccak256 (a.bytes ++ b.bytes) else keccak256 (b.bytes ++ a.bytes)

/-- The order of the two hashes does not matter. -/
theorem Hash32.pair_comm (a b : Hash32) : pair a b = pair b a := by
  unfold pair
  by_cases hab : a ≤ b <;> by_cases hba : b ≤ a
  · have : a = b := ext (Nat.le_antisymm hab hba)
    subst this; rfl
  · rw [if_pos hab, if_neg hba]
  · rw [if_neg hab, if_pos hba]
  · rcases Nat.le_total a.value b.value with h | h
    · exact absurd h hab
    · exact absurd h hba

namespace Merkle

/-- The levels of the tree over some leaves, from the leaves up to the root. -/
def levels (leaves : List Hash32) : List (List Hash32) :=
  if leaves.length ≤ 1 then [leaves] else leaves :: levels (pairUp Hash32.pair leaves)
termination_by leaves.length
decreasing_by rw [length_pairUp]; omega

/-- The root above some levels: the one node of the last of them. -/
def top : List (List Hash32) → Hash32
  | [] => .zero
  | [level] => level.headD .zero
  | _ :: rest => top rest

/-- The place of a node's neighbour on the same level. -/
def sibling (index : Nat) : Nat := if index % 2 = 0 then index + 1 else index - 1

/-- The siblings on the way from a node of the first level to the root, where there are any. -/
def path : List (List Hash32) → Nat → List Hash32
  | [], _ => []
  | [_], _ => []
  | level :: rest, index => level[sibling index]?.toList ++ path rest (index / 2)

/-- A tree, given by its levels from the leaves up to the root. -/
structure Tree where
  levels : List (List Hash32)

namespace Tree

/-- The tree over some leaves. -/
def ofLeaves (leaves : List Hash32) : Tree := ⟨Merkle.levels leaves⟩

/-- The leaves of a tree. -/
def leaves (tree : Tree) : List Hash32 := tree.levels.headD []

@[simp] theorem leaves_ofLeaves (leaves : List Hash32) : (ofLeaves leaves).leaves = leaves := by
  unfold ofLeaves Tree.leaves Merkle.levels
  split <;> rfl

/-- The root of a tree. -/
def root (tree : Tree) : Hash32 := top tree.levels

/-- The proof of the leaf at an index. -/
def proof (tree : Tree) (index : Nat) : Except RewardError (List Hash32) :=
  if index < tree.leaves.length then .ok (path tree.levels index)
  else .error (.leafIndexOutOfBounds index tree.leaves.length)

end Tree

/-- The root that a leaf and a proof lead to. -/
def climb (leaf : Hash32) (proof : List Hash32) : Hash32 := proof.foldl Hash32.pair leaf

/-- Whether a proof leads from a leaf to a root. -/
def verify (root leaf : Hash32) (proof : List Hash32) : Bool := climb leaf proof == root

end Merkle

end BridgeRewards
