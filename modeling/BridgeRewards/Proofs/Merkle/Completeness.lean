import BridgeRewards.Proofs.Merkle.Climb
import Mathlib.Data.Nat.Log

/-!
# Every leaf has a short proof

The tree over some leaves has one level above them for each time that their number can be halved,
rounding up, before it comes to one (`length_levels`).  A proof takes at most one sibling on each
level below the root, and none where a node is promoted, so it is no longer than the binary
logarithm of the number of leaves, rounded up.  Together with the climb along it, this makes the
proofs complete (`proof_complete`): every leaf has one, and no other index does.

A proof says nothing about sides, and need not.  Whichever way each sibling is hashed in, the end
is the same (`leadsTo_iff`).
-/

set_option autoImplicit false

namespace BridgeRewards.Merkle

/-! ## How many levels there are -/

/-- One level up takes one from the binary logarithm of the length, rounded up. -/
theorem clog_length_pairUp {leaves : List Hash32} (long : ¬ leaves.length ≤ 1) :
    Nat.clog 2 leaves.length = Nat.clog 2 (pairUp Hash32.pair leaves).length + 1 := by
  rw [length_pairUp, Nat.clog_of_two_le (by decide) (by omega)]
  rfl

/-- Above the leaves there are as many levels as their number has to be halved. -/
theorem length_levels (leaves : List Hash32) :
    (levels leaves).length = Nat.clog 2 leaves.length + 1 := by
  induction leaves using levels.induct with
  | case1 leaves short =>
      rw [levels_of_length_le short, List.length_singleton, Nat.clog_of_right_le_one short]
  | case2 leaves long ih =>
      rw [levels_of_lt_length long, List.length_cons, ih, clog_length_pairUp long]

/-- A path has at most one sibling on each level below the last. -/
theorem length_path_lt {levels : List (List Hash32)} (some : levels ≠ []) (index : Nat) :
    (path levels index).length < levels.length := by
  fun_induction path levels index with
  | case1 index => exact absurd rfl some
  | case2 level index => exact Nat.zero_lt_one
  | case3 level rest index more ih =>
      have above : rest ≠ [] := more
      have sibling : level[sibling index]?.toList.length ≤ 1 := by
        cases level[sibling index]? <;> simp
      have further := ih above
      rw [List.length_append, List.length_cons]
      omega

theorem length_path_levels_le (leaves : List Hash32) (index : Nat) :
    (path (levels leaves) index).length ≤ Nat.clog 2 leaves.length := by
  have shorter := length_path_lt (levels_ne_nil leaves) index
  rw [length_levels] at shorter
  exact Nat.le_of_lt_succ shorter

/-! ## Sides do not matter -/

/-- A proof leads from a node to a root: every sibling is hashed in, on either side of the node. -/
inductive LeadsTo (root : Hash32) : Hash32 → List Hash32 → Prop
  | arrived : LeadsTo root root []
  | before {node sibling : Hash32} {rest : List Hash32}
      (onwards : LeadsTo root (Hash32.pair sibling node) rest) :
      LeadsTo root node (sibling :: rest)
  | behind {node sibling : Hash32} {rest : List Hash32}
      (onwards : LeadsTo root (Hash32.pair node sibling) rest) :
      LeadsTo root node (sibling :: rest)

/-- On whichever sides the siblings are hashed in, the climb is the same. -/
theorem leadsTo_iff {root node : Hash32} {proof : List Hash32} :
    LeadsTo root node proof ↔ climb node proof = root := by
  constructor
  · intro leads
    induction leads with
    | arrived => rfl
    | before onwards ih =>
        rw [Hash32.pair_comm] at ih
        exact ih
    | behind onwards ih => exact ih
  · intro ends
    induction proof generalizing node with
    | nil =>
        obtain rfl : node = root := ends
        exact .arrived
    | cons sibling rest ih => exact .behind (ih ends)

/-! ## Proofs -/

theorem Tree.proof_ofLeaves {leaves : List Hash32} {index : Nat} (bound : index < leaves.length) :
    (ofLeaves leaves).proof index = .ok (path (Merkle.levels leaves) index) := by
  unfold proof
  rw [leaves_ofLeaves, if_pos bound]
  rfl

theorem Tree.proof_ofLeaves_of_le {leaves : List Hash32} {index : Nat}
    (beyond : leaves.length ≤ index) : (ofLeaves leaves).proof index =
      .error (.leafIndexOutOfBounds index leaves.length) := by
  unfold proof
  rw [leaves_ofLeaves, if_neg (Nat.not_lt.mpr beyond)]

theorem Tree.root_ofLeaves_nil : (ofLeaves []).root = .zero := by
  unfold root ofLeaves
  have few : ([] : List Hash32).length ≤ 1 := Nat.zero_le 1
  rw [levels_of_length_le few]
  rfl

/-- **Proofs are complete and short.**  Every leaf of a tree has a proof, which is valid for the
root and has at most as many siblings as the binary logarithm of the number of leaves, rounded up;
an index behind the leaves has none, and so no index of the empty tree, whose root is zero; and a
climb does not depend on the sides on which siblings are hashed in. -/
theorem proof_complete (leaves : List Hash32) (index : Nat) :
    (∀ leaf, leaves[index]? = some leaf → ∃ proof,
        (Tree.ofLeaves leaves).proof index = .ok proof ∧
          verify (Tree.ofLeaves leaves).root leaf proof = true ∧
          proof.length ≤ Nat.clog 2 leaves.length) ∧
      (leaves.length ≤ index → (Tree.ofLeaves leaves).proof index =
        .error (.leafIndexOutOfBounds index leaves.length)) ∧
      (Tree.ofLeaves []).root = .zero ∧
      ∀ root node proof, LeadsTo root node proof ↔ climb node proof = root := by
  refine ⟨fun leaf here => ?_, Tree.proof_ofLeaves_of_le, Tree.root_ofLeaves_nil,
    fun root node proof => leadsTo_iff⟩
  obtain ⟨bound, -⟩ := List.getElem?_eq_some_iff.mp here
  refine ⟨_, Tree.proof_ofLeaves bound, ?_, length_path_levels_le leaves index⟩
  exact beq_iff_eq.mpr (climb_path leaves index here)

/-- A lone leaf has the empty proof.  The last of three leaves, of which two are equal, has a proof
of at most two siblings, and there is no fourth. -/
theorem proof_complete_trial :
    (Tree.ofLeaves [.zero]).proof 0 = .ok [] ∧
      (∃ proof, (Tree.ofLeaves [.zero, .zero, .keccak256 []]).proof 2 = .ok proof ∧
        verify (Tree.ofLeaves [.zero, .zero, .keccak256 []]).root (.keccak256 []) proof = true ∧
        proof.length ≤ 2) ∧
      (Tree.ofLeaves [.zero, .zero, .keccak256 []]).proof 3 =
        .error (.leafIndexOutOfBounds 3 3) := by
  have two : Nat.clog 2 3 = 2 := by decide
  obtain ⟨alone, isProof, -, short⟩ := (proof_complete [.zero] 0).1 .zero rfl
  obtain ⟨last, isLast, valid, few⟩ :=
    (proof_complete [.zero, .zero, .keccak256 []] 2).1 (.keccak256 []) rfl
  obtain rfl : alone = [] := List.length_eq_zero_iff.mp (Nat.le_zero.mp short)
  exact ⟨isProof, ⟨last, isLast, valid, two ▸ few⟩,
    (proof_complete [.zero, .zero, .keccak256 []] 3).2.1 le_rfl⟩

end BridgeRewards.Merkle
