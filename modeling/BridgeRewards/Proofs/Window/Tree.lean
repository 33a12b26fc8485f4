import BridgeRewards.Proofs.Merkle.Packed
import BridgeRewards.Proofs.Merkle.Climb
import BridgeRewards.Window.Tree
import Mathlib.Data.List.Nodup

/-!
# What the tree of a window is made of

The leaves of a window's tree are its totals in order of their addresses, numbered from zero;
the addresses increase strictly, since a repeated one is refused.  Every leaf can be hashed, the
root is that of the tree over the hashes, and each leaf with its proof climbs to it
(`build_eq_ok`, `climb_of_mem_leaves`).  Totals are refused if there are none, if an address stands
twice or if some leaf cannot be hashed, and for no other reason (`failsWith_build`).
-/

set_option autoImplicit false

namespace BridgeRewards.WindowTree

/-! ## Putting totals in order -/

theorem perm_inOrder (totals : List Total) : (inOrder totals).Perm totals :=
  List.mergeSort_perm totals _

theorem pairwise_inOrder (totals : List Total) :
    (inOrder totals).Pairwise fun a b => a.address ≤ b.address := by
  have sorted : (inOrder totals).Pairwise fun a b => decide (a.address ≤ b.address) = true := by
    refine List.pairwise_mergeSort (fun a b c => ?_) (fun a b => ?_) totals
    · simp only [decide_eq_true_eq]
      exact Nat.le_trans
    · simp only [Bool.or_eq_true, decide_eq_true_eq]
      exact Nat.le_total _ _
  exact sorted.imp of_decide_eq_true

theorem inOrder_of_pairwise {totals : List Total}
    (sorted : totals.Pairwise fun a b => a.address ≤ b.address) : inOrder totals = totals :=
  List.mergeSort_of_pairwise (sorted.imp fun h => by simpa using h)

/-- Where no address stands twice in a row, addresses that do not decrease increase. -/
theorem pairwise_lt_of_firstRepeated_eq_none {totals : List Total}
    (sorted : totals.Pairwise fun a b => a.address ≤ b.address)
    (fresh : firstRepeated totals = none) :
    totals.Pairwise fun a b => a.address < b.address := by
  fun_induction firstRepeated totals with
  | case1 a b rest same => simp at fresh
  | case2 a b rest differ ih =>
      obtain ⟨least, sorted⟩ := List.pairwise_cons.mp sorted
      have increasing := ih sorted fresh
      have step : a.address < b.address := by
        have weak : a.address.value ≤ b.address.value := least b List.mem_cons_self
        exact Nat.lt_of_le_of_ne weak fun equal => differ (Address.ext equal)
      refine List.pairwise_cons.mpr ⟨fun c member => ?_, increasing⟩
      rcases List.mem_cons.mp member with rfl | member
      · exact step
      · exact Nat.lt_trans step ((List.pairwise_cons.mp increasing).1 c member)
  | case3 totals short =>
      match totals, short with
      | [], _ => exact .nil
      | [single], _ => exact List.pairwise_singleton _ _
      | a :: b :: rest, short => exact (short a b rest rfl).elim

theorem firstRepeated_of_pairwise {totals : List Total}
    (increasing : totals.Pairwise fun a b => a.address < b.address) :
    firstRepeated totals = none := by
  fun_induction firstRepeated totals with
  | case1 a b rest same =>
      have less := (List.pairwise_cons.mp increasing).1 b List.mem_cons_self
      exact (Nat.ne_of_lt less (congrArg Address.value same)).elim
  | case2 a b rest differ ih => exact ih (List.pairwise_cons.mp increasing).2
  | case3 totals short => rfl

/-! ## Numbering totals -/

@[simp] theorem length_number (totals : List Total) : (number totals).length = totals.length := by
  simp [number]

theorem map_accountIndex_number (totals : List Total) :
    (number totals).map (·.accountIndex) = List.range totals.length := by
  simp [number, Function.comp_def, List.zipIdx_map_snd, ← List.range_eq_range']

theorem map_account_number (totals : List Total) :
    (number totals).map (·.account) = totals.map (·.address) := by
  have first : ∀ pair : Total × Nat, pair.1.address = (Total.address ∘ Prod.fst) pair :=
    fun _ => rfl
  simp only [number, List.map_map, Function.comp_def]
  simp only [first, ← List.map_map, List.zipIdx_map_fst]

/-! ## Building -/

/-- The leaf at an index of a tree with its proof. -/
def prove (hashes : List Hash32) (leaf : Leaf) (index : Nat) : ProvenLeaf :=
  ⟨leaf, Merkle.path (Merkle.levels hashes) index⟩

/-- A tree is built when there is something to pay, no address stands twice and every leaf can
be hashed; then its root is that over the hashes and its leaves come with their paths. -/
theorem build_eq_ok {totals : List Total} {tree : WindowTree} :
    build totals = .ok tree ↔
      totals ≠ [] ∧ firstRepeated (inOrder totals) = none ∧
        ∃ hashes, List.Forall₂ (fun leaf hash => leaf.hash = .ok hash)
          (number (inOrder totals)) hashes ∧
          tree = ⟨Merkle.top (Merkle.levels hashes),
            (number (inOrder totals)).zipIdx.map fun row => prove hashes row.1 row.2⟩ := by
  have proven : ∀ hashes : List Hash32, (number (inOrder totals)).length = hashes.length →
      (number (inOrder totals)).zipIdx.mapM (fun row : Leaf × Nat => do
          return (⟨row.1, ← (Merkle.Tree.ofLeaves hashes).proof row.2⟩ : ProvenLeaf)) =
        (.ok ((number (inOrder totals)).zipIdx.map fun row => prove hashes row.1 row.2) :
          Except RewardError (List ProvenLeaf)) := by
    intro hashes length
    refine Outcome.mapM_eq_ok_map fun row member => ?_
    have bound : row.2 < hashes.length := by
      simpa [← length] using List.snd_lt_of_mem_zipIdx member
    simp only [Merkle.Tree.proof, Merkle.Tree.leaves_ofLeaves, if_pos bound]
    rfl
  unfold build
  by_cases empty : totals = []
  · simp [empty, throw, throwThe, MonadExceptOf.throw, bind, Except.bind]
  · rw [if_neg empty]
    cases repeated : firstRepeated (inOrder totals) with
    | some address =>
        simp [repeated, throw, throwThe, MonadExceptOf.throw, bind, Except.bind]
    | none =>
        simp only [repeated, empty, not_false_eq_true, ne_eq, true_and]
        show (number (inOrder totals)).mapM Leaf.hash >>= _ = _ ↔ _
        rw [Outcome.bind_eq_ok]
        refine exists_congr fun hashes => ?_
        rw [Outcome.mapM_eq_ok]
        refine and_congr_right fun hashed => ?_
        rw [proven hashes hashed.length_eq]
        exact ⟨fun h => (Except.ok.inj h).symm, fun h => congrArg Except.ok h.symm⟩

/-- Why a tree of totals is refused. -/
inductive Refusal (totals : List Total) : RewardError → Prop
  | empty (none : totals = []) : Refusal totals .emptyWindow
  | repeated {address : Address} (twice : firstRepeated (inOrder totals) = some address) :
      Refusal totals (.duplicateRecipient address)
  | unfit {amount : Decimal} (unfit : amount.toWord? = none) :
      Refusal totals (.amountOutOfRange amount)

/-- Once all leaves can be hashed there is a tree, so a leaf without a hash is the last cause for
which there is none. -/
theorem failsWith_build (totals : List Total) :
    Outcome.FailsWith (Refusal totals) (build totals) := by
  by_cases none : totals = []
  · unfold build
    rw [if_pos none]
    exact Outcome.failsWith_error (.empty none)
  cases twice : firstRepeated (inOrder totals) with
  | some address =>
      unfold build
      rw [if_neg none]
      dsimp only
      rw [twice]
      exact Outcome.failsWith_error (.repeated twice)
  | none =>
      cases hashed : (number (inOrder totals)).mapM Leaf.hash with
      | ok hashes =>
          exact Outcome.failsWith_of_eq_ok (build_eq_ok.mpr
            ⟨none, twice, hashes, Outcome.mapM_eq_ok.mp hashed, rfl⟩)
      | error e =>
          obtain ⟨amount, rfl, unfit⟩ := Outcome.FailsWith.mapM Leaf.failsWith_hash _ e hashed
          unfold build
          rw [if_neg none]
          dsimp only
          rw [twice, hashed]
          exact Outcome.failsWith_error (.unfit unfit)

/-- The tree of a single total is its leaf, without a proof. -/
theorem build_singleton {total : Total} {hash : Hash32}
    (hashed : Leaf.hash ⟨0, total.address, total.amount⟩ = .ok hash) :
    build [total] = .ok ⟨hash, [⟨⟨0, total.address, total.amount⟩, []⟩]⟩ := by
  have ordered : inOrder [total] = [total] := inOrder_of_pairwise (List.pairwise_singleton _ _)
  have levels : Merkle.levels [hash] = [[hash]] := Merkle.levels_of_length_le (by simp)
  refine build_eq_ok.mpr ⟨by simp, ?_, [hash], ?_, ?_⟩
  · rw [ordered]
    rfl
  · rw [ordered]
    exact .cons hashed .nil
  · rw [ordered, levels]
    simp [number, prove, levels, Merkle.path, Merkle.top]

theorem map_leaf_of_build {totals : List Total} {tree : WindowTree}
    (built : build totals = .ok tree) :
    tree.leaves.map (·.leaf) = number (inOrder totals) := by
  obtain ⟨-, -, hashes, -, rfl⟩ := build_eq_ok.mp built
  have first : ∀ row : Leaf × Nat, (prove hashes row.1 row.2).leaf = row.1 := fun _ => rfl
  simp only [List.map_map, Function.comp_def, first]
  exact List.zipIdx_map_fst 0 _

/-- Every leaf of a tree can be hashed, and climbs with its proof to the root. -/
theorem climb_of_mem_leaves {totals : List Total} {tree : WindowTree} {proven : ProvenLeaf}
    (built : build totals = .ok tree) (member : proven ∈ tree.leaves) :
    ∃ hash, proven.leaf.hash = .ok hash ∧ Merkle.climb hash proven.proof = tree.root := by
  obtain ⟨-, -, hashes, hashed, rfl⟩ := build_eq_ok.mp built
  obtain ⟨⟨leaf, index⟩, numbered, rfl⟩ := List.mem_map.mp member
  have here := List.mem_zipIdx_iff_getElem?.mp numbered
  obtain ⟨bound, atIndex⟩ := List.getElem?_eq_some_iff.mp here
  have bound' : index < hashes.length := hashed.length_eq ▸ bound
  refine ⟨hashes[index], ?_, Merkle.climb_path hashes index (List.getElem?_eq_getElem bound')⟩
  have atBoth := hashed.get bound bound'
  rw [List.get_eq_getElem, List.get_eq_getElem, atIndex] at atBoth
  exact atBoth

theorem map_accountIndex_of_build {totals : List Total} {tree : WindowTree}
    (built : build totals = .ok tree) :
    tree.leaves.map (·.leaf.accountIndex) = List.range tree.leaves.length := by
  have leaves := map_leaf_of_build built
  have length : tree.leaves.length = totals.length := by
    simpa [(perm_inOrder totals).length_eq] using congrArg List.length leaves
  have indices := congrArg (List.map (·.accountIndex)) leaves
  rw [map_accountIndex_number, (perm_inOrder totals).length_eq, ← length, List.map_map] at indices
  exact indices

theorem eq_of_accountIndex_eq {totals : List Total} {tree : WindowTree} {a b : ProvenLeaf}
    (built : build totals = .ok tree) (isLeaf : a ∈ tree.leaves) (isOther : b ∈ tree.leaves)
    (same : a.leaf.accountIndex = b.leaf.accountIndex) : a = b := by
  have distinct : (tree.leaves.map (·.leaf.accountIndex)).Nodup := by
    rw [map_accountIndex_of_build built]
    exact List.nodup_range
  exact List.inj_on_of_nodup_map distinct isLeaf isOther same

theorem pairwise_account_of_build {totals : List Total} {tree : WindowTree}
    (built : build totals = .ok tree) :
    tree.leaves.Pairwise fun a b => a.leaf.account < b.leaf.account := by
  obtain ⟨-, fresh, -⟩ := build_eq_ok.mp built
  have increasing := pairwise_lt_of_firstRepeated_eq_none (pairwise_inOrder totals) fresh
  have accounts := congrArg (List.map (·.account)) (map_leaf_of_build built)
  rw [map_account_number, List.map_map] at accounts
  have sorted := List.pairwise_map.mpr increasing
  rw [← accounts] at sorted
  exact List.pairwise_map.mp sorted

end BridgeRewards.WindowTree
