import BridgeRewards.Merkle.Tree

/-!
# Climbing to the root

Every node of a level, climbed with its siblings on the way up, leads to the root.  One step of
the climb goes to the node above on the next level (`getElem?_pairUp`): beside a neighbour the
two are hashed, and a node without a neighbour is there unchanged and takes no sibling.  The
climb along the whole path follows by induction on the levels (`climb_path`).
-/

set_option autoImplicit false

namespace BridgeRewards.Merkle

theorem levels_ne_nil (leaves : List Hash32) : levels leaves ≠ [] := by
  unfold levels
  split <;> simp

theorem levels_of_length_le {leaves : List Hash32} (short : leaves.length ≤ 1) :
    levels leaves = [leaves] := by
  rw [levels, if_pos short]

theorem levels_of_lt_length {leaves : List Hash32} (long : ¬ leaves.length ≤ 1) :
    levels leaves = leaves :: levels (pairUp Hash32.pair leaves) := by
  rw [levels, if_neg long]

theorem top_cons {level : List Hash32} {rest : List (List Hash32)} (above : rest ≠ []) :
    top (level :: rest) = top rest := by
  cases rest with
  | nil => exact absurd rfl above
  | cons => rfl

theorem path_cons {level : List Hash32} {rest : List (List Hash32)} (above : rest ≠ [])
    (index : Nat) :
    path (level :: rest) index = level[sibling index]?.toList ++ path rest (index / 2) := by
  cases rest with
  | nil => exact absurd rfl above
  | cons => rfl

/-- A climb along two proofs in a row goes on where the first one ended. -/
theorem climb_append (leaf : Hash32) (lower upper : List Hash32) :
    climb leaf (lower ++ upper) = climb (climb leaf lower) upper :=
  List.foldl_append

theorem sibling_succ_succ (index : Nat) : sibling (index + 2) = sibling index + 2 := by
  unfold sibling
  split <;> split <;> omega

/-- Climbing past the sibling leads to the node above. -/
theorem getElem?_pairUp (level : List Hash32) (index : Nat) {node : Hash32}
    (here : level[index]? = some node) :
    (pairUp Hash32.pair level)[index / 2]? =
      some (climb node level[sibling index]?.toList) := by
  fun_induction pairUp Hash32.pair level generalizing index with
  | case1 left right rest ih =>
      rcases index with _ | _ | index
      · obtain rfl : left = node := by simpa using here
        simp [sibling, climb]
      · obtain rfl : right = node := by simpa using here
        simp [sibling, climb, Hash32.pair_comm]
      · have there : rest[index]? = some node := by simpa using here
        have half : (index + 2) / 2 = index / 2 + 1 := by omega
        rw [sibling_succ_succ, half]
        simpa using ih index there
  | case2 single =>
      cases index with
      | zero =>
          obtain rfl : single = node := by simpa using here
          simp [sibling, climb]
      | succ index => simp at here
  | case3 => simp at here

/-- Every leaf climbs along its path to the root. -/
theorem climb_path (leaves : List Hash32) (index : Nat) {leaf : Hash32}
    (here : leaves[index]? = some leaf) :
    climb leaf (path (levels leaves) index) = top (levels leaves) := by
  induction leaves using levels.induct generalizing index leaf with
  | case1 leaves short =>
      rw [levels_of_length_le short]
      match leaves, short with
      | [], _ => simp at here
      | [single], _ =>
          match index with
          | 0 => simpa [path, top, climb] using here.symm
          | index + 1 => simp at here
  | case2 leaves long ih =>
      rw [levels_of_lt_length long, path_cons (levels_ne_nil _), top_cons (levels_ne_nil _),
        climb_append]
      exact ih (index / 2) (getElem?_pairUp leaves index here)

end BridgeRewards.Merkle
