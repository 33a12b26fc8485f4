import BridgeRewards.Proofs.Window.Tree
import Mathlib.Data.List.Perm.Subperm

/-!
# The tree of a window is canonical

What is built from totals does not depend on the order in which they are given.  Totals in order
of distinct addresses have one arrangement only, so all arrangements have one tree; and where there
is no tree, the error names something that the totals determine as a collection: that there are
none, the least address that stands twice, or the first amount in order of the addresses that is
no word (`Unbuildable`).  The addresses have to be distinct for the last cause, since two amounts
at one address keep the order in which they are given; a repeated address is looked for before
the amounts are.

Indices are packed as words too, but distinct addresses are fewer than words, so none of them is
ever the reason for a failure (`length_lt_of_nodup`).
-/

set_option autoImplicit false

namespace BridgeRewards.WindowTree

variable {totals : List Total}

/-! ## Repeated addresses -/

/-- Whether an address stands twice among totals. -/
def Repeated (totals : List Total) (address : Address) : Prop :=
  2 ≤ (totals.map (·.address)).count address

theorem Repeated.perm {other : List Total} {address : Address} (perm : totals.Perm other)
    (twice : Repeated totals address) : Repeated other address := by
  unfold Repeated at *
  rwa [← (perm.map (·.address)).count_eq]

theorem Repeated.mem {address : Address} (twice : Repeated totals address) :
    address ∈ totals.map (·.address) :=
  List.count_pos_iff.mp (Nat.lt_of_lt_of_le Nat.zero_lt_two twice)

theorem Repeated.cons {address : Address} (twice : Repeated totals address) (total : Total) :
    Repeated (total :: totals) address :=
  Nat.le_trans twice (by simp [List.count_cons])

/-- An address that stands twice is that of the first total, which then has another one, or it
stands twice among the others. -/
theorem Repeated.cases {total : Total} {address : Address}
    (twice : Repeated (total :: totals) address) :
    total.address = address ∧ address ∈ totals.map (·.address) ∨ Repeated totals address := by
  by_cases same : total.address = address
  · subst same
    refine .inl ⟨rfl, List.count_pos_iff.mp ?_⟩
    simp only [Repeated, List.map_cons, List.count_cons_self] at twice
    omega
  · simp only [Repeated, List.map_cons, List.count_cons_of_ne same] at twice
    exact .inr twice

theorem nodup_of_increasing (increasing : totals.Pairwise fun a b => a.address < b.address) :
    (totals.map (·.address)).Nodup :=
  List.pairwise_map.mpr (increasing.imp fun less same =>
    Nat.ne_of_lt less (congrArg Address.value same))

theorem not_repeated_of_nodup {address : Address} (distinct : (totals.map (·.address)).Nodup) :
    ¬ Repeated totals address := by
  have once := List.nodup_iff_count_le_one.mp distinct address
  unfold Repeated
  omega

/-- The least address of totals in order that stands twice is the one that is found. -/
theorem least_of_firstRepeated {address : Address}
    (sorted : totals.Pairwise fun a b => a.address ≤ b.address)
    (found : firstRepeated totals = some address) :
    Repeated totals address ∧ ∀ other, Repeated totals other → address ≤ other := by
  fun_induction firstRepeated totals with
  | case1 a b rest same =>
      obtain rfl : a.address = address := Option.some.inj found
      refine ⟨?_, fun other twice => ?_⟩
      · simp [Repeated, ← same]
      · obtain ⟨c, member, rfl⟩ := List.mem_map.mp twice.mem
        rcases List.mem_cons.mp member with rfl | member
        · exact Nat.le_refl _
        · exact (List.pairwise_cons.mp sorted).1 c member
  | case2 a b rest differ ih =>
      obtain ⟨least, sorted⟩ := List.pairwise_cons.mp sorted
      obtain ⟨twice, first⟩ := ih sorted found
      refine ⟨twice.cons a, fun other again => ?_⟩
      rcases again.cases with ⟨rfl, later⟩ | again
      · -- An address that comes back behind a greater one would not be in order.
        obtain ⟨c, member, same⟩ := List.mem_map.mp later
        have above : a.address ≤ b.address := least b List.mem_cons_self
        have below : b.address ≤ c.address := by
          rcases List.mem_cons.mp member with rfl | member
          · exact Nat.le_refl _
          · exact (List.pairwise_cons.mp sorted).1 c member
        rw [same] at below
        exact (differ (Address.ext (Nat.le_antisymm above below))).elim
      · exact first other again
  | case3 totals short => cases found

/-! ## Distinct addresses -/

theorem firstRepeated_inOrder_eq_none_iff :
    firstRepeated (inOrder totals) = none ↔ (totals.map (·.address)).Nodup := by
  have perm := perm_inOrder totals
  have sorted := pairwise_inOrder totals
  constructor
  · intro fresh
    have increasing := pairwise_lt_of_firstRepeated_eq_none sorted fresh
    exact (perm.map (·.address)).nodup_iff.mp (nodup_of_increasing increasing)
  · intro distinct
    cases found : firstRepeated (inOrder totals) with
    | none => rfl
    | some address =>
        have twice := (least_of_firstRepeated sorted found).1.perm perm
        exact (not_repeated_of_nodup distinct twice).elim

theorem inOrder_eq_of_perm {other : List Total} (perm : other.Perm totals)
    (distinct : (totals.map (·.address)).Nodup) : inOrder other = inOrder totals := by
  have same := (perm_inOrder other).trans perm
  refine List.Perm.eq_of_pairwise (fun a b isLeft isRight below above => ?_)
    (pairwise_inOrder other) (pairwise_inOrder totals) (same.trans (perm_inOrder totals).symm)
  exact List.inj_on_of_nodup_map distinct (same.mem_iff.mp isLeft)
    ((perm_inOrder totals).mem_iff.mp isRight) (Address.ext (Nat.le_antisymm below above))

/-- There are fewer addresses than words. -/
theorem length_lt_of_nodup (distinct : (totals.map (·.address)).Nodup) :
    totals.length < twoTo 256 := by
  have values : (totals.map (·.address.value)).Nodup := by
    have := distinct.map (f := Address.value) fun _ _ => Address.ext
    rwa [List.map_map] at this
  have bounded : totals.map (·.address.value) ⊆ List.range (twoTo 160) := by
    intro n member
    obtain ⟨total, -, rfl⟩ := List.mem_map.mp member
    exact List.mem_range.mpr total.address.value_lt
  have fewer := (values.subperm bounded).length_le
  rw [List.length_map, List.length_range] at fewer
  exact Nat.lt_of_le_of_lt fewer (twoTo_lt_twoTo (by decide))

/-! ## What there is a tree of -/

/-- What a leaf says without its index. -/
def entry (leaf : Leaf) : Total := ⟨leaf.account, leaf.amount⟩

theorem map_entry_number (totals : List Total) : (number totals).map entry = totals := by
  have first : ∀ pair : Total × Nat, entry ⟨pair.2, pair.1.address, pair.1.amount⟩ = pair.1 :=
    fun _ => rfl
  simp only [number, List.map_map, Function.comp_def, first, List.zipIdx_map_fst]

/-- A tree depends on the totals in order only. -/
theorem build_congr {other : List Total} (none : totals = [] ↔ other = [])
    (same : inOrder totals = inOrder other) : build totals = build other := by
  unfold build
  simp only [none, same]

/-- Why totals have no tree. -/
inductive Unbuildable (totals : List Total) : RewardError → Prop
  /-- There are no totals. -/
  | empty (none : totals = []) : Unbuildable totals .emptyWindow
  /-- An address stands twice, and no smaller one does. -/
  | repeated {address : Address} (twice : Repeated totals address)
      (least : ∀ other, Repeated totals other → address ≤ other) :
      Unbuildable totals (.duplicateRecipient address)
  /-- An amount is no word, but all amounts at smaller addresses are. -/
  | unfit {total : Total} (distinct : (totals.map (·.address)).Nodup) (member : total ∈ totals)
      (unfit : ¬ total.amount.IsWord)
      (first : ∀ other ∈ totals, other.address < total.address → other.amount.IsWord) :
      Unbuildable totals (.amountOutOfRange total.amount)

/-- What the totals of a tree satisfy. -/
structure Buildable (totals : List Total) : Prop where
  nonempty : totals ≠ []
  distinct : (totals.map (·.address)).Nodup
  words : ∀ total ∈ totals, total.amount.IsWord

/-- The causes are told from the totals as a collection. -/
theorem Unbuildable.perm {other : List Total} {e : RewardError} (perm : totals.Perm other)
    (cause : Unbuildable totals e) : Unbuildable other e := by
  cases cause with
  | empty none =>
      subst none
      exact .empty (List.nil_perm.mp perm)
  | repeated twice least =>
      exact .repeated (twice.perm perm) fun address again => least address (again.perm perm.symm)
  | unfit distinct member unfit first =>
      exact .unfit ((perm.map (·.address)).nodup_iff.mp distinct) (perm.mem_iff.mp member) unfit
        fun total isOther => first total (perm.mem_iff.mpr isOther)

theorem Unbuildable.unique {e e' : RewardError} (cause : Unbuildable totals e)
    (cause' : Unbuildable totals e') : e = e' := by
  cases cause with
  | empty none =>
      subst none
      cases cause' with
      | empty => rfl
      | repeated twice => exact (List.not_mem_nil twice.mem).elim
      | unfit _ member => exact (List.not_mem_nil member).elim
  | @repeated a twice least =>
      cases cause' with
      | empty none =>
          subst none
          exact (List.not_mem_nil twice.mem).elim
      | @repeated b again first =>
          rw [Address.ext (Nat.le_antisymm (least b again) (first a twice))]
      | unfit distinct => exact (not_repeated_of_nodup distinct twice).elim
  | @unfit a distinct member unfit first =>
      cases cause' with
      | empty none =>
          subst none
          exact (List.not_mem_nil member).elim
      | repeated twice => exact (not_repeated_of_nodup distinct twice).elim
      | @unfit b _ isOther unfit' first' =>
          have same : a.address = b.address := by
            refine Address.ext (Nat.le_antisymm ?_ ?_)
            · exact Nat.not_lt.mp fun less => unfit' (first b isOther less)
            · exact Nat.not_lt.mp fun less => unfit (first' a member less)
          rw [List.inj_on_of_nodup_map distinct member isOther same]

theorem Unbuildable.not_buildable {e : RewardError} (cause : Unbuildable totals e) :
    ¬ Buildable totals := by
  intro fine
  cases cause with
  | empty none => exact fine.nonempty none
  | repeated twice => exact not_repeated_of_nodup fine.distinct twice
  | unfit _ member unfit => exact unfit (fine.words _ member)

/-- Where the building of a tree fails. -/
theorem build_eq_error {e : RewardError} (failed : build totals = .error e) :
    totals = [] ∧ e = .emptyWindow ∨
      (∃ address, firstRepeated (inOrder totals) = some address ∧ e = .duplicateRecipient address) ∨
      firstRepeated (inOrder totals) = none ∧
        (number (inOrder totals)).mapM Leaf.hash = .error e := by
  by_cases none : totals = []
  · unfold build at failed
    rw [if_pos none] at failed
    exact .inl ⟨none, (Except.error.inj failed).symm⟩
  refine .inr ?_
  cases found : firstRepeated (inOrder totals) with
  | some address =>
      unfold build at failed
      rw [if_neg none] at failed
      dsimp only at failed
      rw [found] at failed
      exact .inl ⟨address, rfl, (Except.error.inj failed).symm⟩
  | none =>
      refine .inr ⟨rfl, ?_⟩
      cases hashed : (number (inOrder totals)).mapM Leaf.hash with
      | ok hashes =>
          have built := build_eq_ok.mpr ⟨none, found, hashes, Outcome.mapM_eq_ok.mp hashed, rfl⟩
          rw [built] at failed
          cases failed
      | error other =>
          unfold build at failed
          rw [if_neg none] at failed
          dsimp only at failed
          rw [found, hashed] at failed
          exact congrArg Except.error (Except.error.inj failed)

/-- If the leaves of totals in order cannot all be hashed, the amount of the first one that
cannot is no word. -/
theorem exists_first_unfit {e : RewardError}
    (increasing : totals.Pairwise fun a b => a.address < b.address)
    (failed : (number totals).mapM Leaf.hash = .error e) :
    ∃ total ∈ totals, e = .amountOutOfRange total.amount ∧ ¬ total.amount.IsWord ∧
      ∀ other ∈ totals, other.address < total.address → other.amount.IsWord := by
  obtain ⟨before, leaf, after, split, hashed, here⟩ := Outcome.exists_of_mapM_eq_error failed
  have parts : totals = before.map entry ++ entry leaf :: after.map entry := by
    rw [← map_entry_number totals, split, List.map_append, List.map_cons]
  have index : leaf.accountIndex < twoTo 256 := by
    have member : leaf.accountIndex ∈ (number totals).map (·.accountIndex) :=
      List.mem_map.mpr ⟨leaf, by simp [split], rfl⟩
    rw [map_accountIndex_number] at member
    exact Nat.lt_trans (List.mem_range.mp member)
      (length_lt_of_nodup (nodup_of_increasing increasing))
  obtain ⟨unfit, rfl⟩ := Leaf.unfit_of_hash_eq_error index here
  refine ⟨entry leaf, by simp [parts], rfl, unfit, fun other member less => ?_⟩
  -- Whatever is at a smaller address stands before the leaf and has been hashed.
  rw [parts] at increasing member
  obtain ⟨-, behind, -⟩ := List.pairwise_append.mp increasing
  rcases List.mem_append.mp member with earlier | later
  · obtain ⟨previous, isEarlier, rfl⟩ := List.mem_map.mp earlier
    obtain ⟨hash, hasHash⟩ := hashed previous isEarlier
    exact Leaf.isWord_of_hash hasHash
  · rcases List.mem_cons.mp later with rfl | later
    · exact (Nat.lt_irrefl _ less).elim
    · exact (Nat.lt_asymm less ((List.pairwise_cons.mp behind).1 other later)).elim

/-- A failure has a cause. -/
theorem unbuildable_of_build {e : RewardError} (failed : build totals = .error e) :
    Unbuildable totals e := by
  have perm := perm_inOrder totals
  have sorted := pairwise_inOrder totals
  rcases build_eq_error failed with ⟨none, rfl⟩ | ⟨address, found, rfl⟩ | ⟨fresh, failed⟩
  · exact .empty none
  · obtain ⟨twice, least⟩ := least_of_firstRepeated sorted found
    exact .repeated (twice.perm perm) fun other again => least other (again.perm perm.symm)
  · have increasing := pairwise_lt_of_firstRepeated_eq_none sorted fresh
    obtain ⟨total, member, rfl, unfit, first⟩ := exists_first_unfit increasing failed
    exact .unfit (firstRepeated_inOrder_eq_none_iff.mp fresh) (perm.mem_iff.mp member) unfit
      fun other isOther => first other (perm.mem_iff.mpr isOther)

/-- What has a tree can be built. -/
theorem buildable_of_build {tree : WindowTree} (built : build totals = .ok tree) :
    Buildable totals := by
  obtain ⟨nonempty, fresh, hashes, hashed, -⟩ := build_eq_ok.mp built
  refine ⟨nonempty, firstRepeated_inOrder_eq_none_iff.mp fresh, fun total member => ?_⟩
  rw [← (perm_inOrder totals).mem_iff, ← map_entry_number (inOrder totals)] at member
  obtain ⟨leaf, isLeaf, rfl⟩ := List.mem_map.mp member
  obtain ⟨hash, -, hasHash⟩ := Outcome.exists_of_mem_left hashed isLeaf
  exact Leaf.isWord_of_hash hasHash

theorem build_eq_error_iff {e : RewardError} :
    build totals = .error e ↔ Unbuildable totals e := by
  refine ⟨unbuildable_of_build, fun cause => ?_⟩
  cases result : build totals with
  | ok tree => exact (cause.not_buildable (buildable_of_build result)).elim
  | error other => rw [cause.unique (unbuildable_of_build result)]

theorem exists_build_iff : (∃ tree, build totals = .ok tree) ↔ Buildable totals := by
  refine ⟨fun ⟨tree, built⟩ => buildable_of_build built, fun fine => ?_⟩
  cases result : build totals with
  | ok tree => exact ⟨tree, rfl⟩
  | error e => exact ((unbuildable_of_build result).not_buildable fine).elim

theorem build_perm {other : List Total} (perm : other.Perm totals) :
    build other = build totals := by
  cases result : build totals with
  | error e => exact build_eq_error_iff.mpr ((unbuildable_of_build result).perm perm.symm)
  | ok tree =>
      have fine := buildable_of_build result
      rw [← result]
      refine build_congr ⟨fun none => ?_, fun none => (fine.nonempty none).elim⟩
        (inOrder_eq_of_perm perm fine.distinct)
      subst none
      exact List.nil_perm.mp perm

/-- How a tree shows the totals that it is of. -/
structure Shows (tree : WindowTree) (totals : List Total) : Prop where
  /-- The leaves are the totals in some order, -/
  paid : (tree.leaves.map fun proven => entry proven.leaf).Perm totals
  /-- which is that of their addresses; -/
  increasing : tree.leaves.Pairwise fun a b => a.leaf.account < b.leaf.account
  /-- they are numbered from zero, -/
  numbered : ∀ (i : Nat) (proven : ProvenLeaf),
    tree.leaves[i]? = some proven → proven.leaf.accountIndex = i
  /-- and the tree's total is the sum of all totals. -/
  exact : tree.total.value = (totals.map (·.amount.value)).sum

theorem shows_of_build {tree : WindowTree} (built : build totals = .ok tree) :
    tree.Shows totals := by
  have leaves : tree.leaves.map (fun proven => entry proven.leaf) = inOrder totals := by
    rw [← map_entry_number (inOrder totals), ← map_leaf_of_build built, List.map_map]
    rfl
  have paid : (tree.leaves.map fun proven => entry proven.leaf).Perm totals :=
    leaves ▸ perm_inOrder totals
  refine ⟨paid, pairwise_account_of_build built, fun i proven here => ?_, ?_⟩
  · have index := congrArg (·[i]?) (map_accountIndex_of_build built)
    obtain ⟨bound, rfl⟩ := List.getElem?_eq_some_iff.mp here
    simpa [bound] using index
  · have amounts := (paid.map (·.amount.value)).sum_eq
    rw [List.map_map] at amounts
    rw [total, Decimal.value_sum, List.map_map, ← amounts]
    rfl

/-- **The tree of a window is canonical**: all arrangements of totals have the same result.  It is
a tree exactly if there are totals, at distinct addresses and each of them a natural number below
`2 ^ 256`, and then the tree shows them; otherwise it is the error that tells the cause. -/
theorem build_canonical (totals : List Total) :
    (∀ other : List Total, other.Perm totals → build other = build totals) ∧
      (∀ e, build totals = .error e ↔ Unbuildable totals e) ∧
      ((∃ tree, build totals = .ok tree) ↔ Buildable totals) ∧
      ∀ tree, build totals = .ok tree → tree.Shows totals :=
  ⟨fun _ => build_perm, fun _ => build_eq_error_iff, exists_build_iff, fun _ => shows_of_build⟩

/-- A recipient of a trial, with a small address. -/
def trialTotal (address : Fin 8) (amount : Int) : Total :=
  ⟨⟨address, Nat.lt_trans address.isLt (by decide)⟩, Decimal.ofInt amount⟩

/-- Two totals have one tree either way round, and none with a third one at the greater address. -/
theorem build_canonical_trial :
    (∃ tree, build [trialTotal 2 30, trialTotal 1 12] = .ok tree ∧
      build [trialTotal 1 12, trialTotal 2 30] = .ok tree ∧ tree.total.value = 42) ∧
    build [trialTotal 2 30, trialTotal 1 12, trialTotal 2 5] =
      .error (.duplicateRecipient (trialTotal 2 30).address) := by
  constructor
  · obtain ⟨any, -, exact, shown⟩ := build_canonical [trialTotal 2 30, trialTotal 1 12]
    have fine : Buildable [trialTotal 2 30, trialTotal 1 12] := by
      refine ⟨by simp, by decide, fun total member => ?_⟩
      rcases List.mem_cons.mp member with rfl | member
      · exact ⟨30, by decide, by simp [trialTotal]⟩
      · obtain rfl := List.mem_singleton.mp member
        exact ⟨12, by decide, by simp [trialTotal]⟩
    obtain ⟨tree, built⟩ := exact.mpr fine
    refine ⟨tree, built, ?_, ?_⟩
    · rw [any _ (List.Perm.swap _ _ _), built]
    · rw [(shown tree built).exact]
      norm_num [trialTotal]
  · refine ((build_canonical _).2.1 _).mpr (.repeated (Nat.le_refl 2) fun other twice => ?_)
    obtain ⟨total, member, rfl⟩ := List.mem_map.mp twice.mem
    rcases List.mem_cons.mp member with rfl | member
    · exact Nat.le_refl _
    · rcases List.mem_cons.mp member with rfl | member
      · exact (Nat.not_le.mpr Nat.one_lt_two twice).elim
      · obtain rfl := List.mem_singleton.mp member
        exact Nat.le_refl _

end BridgeRewards.WindowTree
