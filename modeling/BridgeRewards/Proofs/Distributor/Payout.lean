import BridgeRewards.Proofs.Distributor.Build
import BridgeRewards.Proofs.Distributor.Rewards

/-!
# What a window pays out

The recipients of a prepared window are published from the leaves of its tree, each with how its
amount came about (`exists_rewards_of_prepare`).  So the deposits that the breakdowns count are
together those that are assigned to the window, and what has to be deposited for the window is the
sum of the amounts.
-/

set_option autoImplicit false

namespace BridgeRewards

theorem WindowTree.map_account_of_build {totals : List Total} {tree : WindowTree}
    (sorted : totals.Pairwise fun a b => a.address < b.address)
    (built : build totals = .ok tree) :
    tree.leaves.map (·.leaf.account) = totals.map (·.address) := by
  have ordered : inOrder totals = totals := inOrder_of_pairwise (sorted.imp Nat.le_of_lt)
  have leaves := congrArg (List.map (·.account)) (map_leaf_of_build built)
  rwa [ordered, map_account_number, List.map_map] at leaves

theorem WindowTree.isInteger_of_mem_leaves {totals : List Total} {tree : WindowTree}
    {proven : ProvenLeaf} (built : build totals = .ok tree) (member : proven ∈ tree.leaves) :
    proven.leaf.amount.isInteger = true := by
  obtain ⟨hash, hashed, -⟩ := climb_of_mem_leaves built member
  obtain ⟨bytes, packed, -⟩ := Leaf.hash_eq_ok.mp hashed
  exact (Leaf.packed_truncate packed).1

namespace Distributor

variable {distributor : Distributor} {ledger : Ledger} {job : Job} {commit : WindowCommit}
  {rewards : List DepositReward} {totals : List RecipientTotal} {tree : WindowTree}

/-- The recipient that is published for a leaf: its payload tells how the rewards of the account
sum up to the amount. -/
def published (job : Job) (rewards : List DepositReward) (proven : ProvenLeaf) : Recipient where
  windowIndex := job.windowIndex
  address := proven.leaf.account
  amount := proven.leaf.amount.plain
  accountIndex := proven.leaf.accountIndex
  proof := proven.proof
  payload := (DepositReward.breakdown job.config.kind
    (DepositReward.earnedBy proven.leaf.account rewards)).toJson

@[simp] theorem address_published (proven : ProvenLeaf) :
    (published job rewards proven).address = proven.leaf.account := rfl

@[simp] theorem amount_published (proven : ProvenLeaf) :
    (published job rewards proven).amount = proven.leaf.amount.plain := rfl

/-- The recipients of the leaves of a tree are those that are published for them. -/
theorem eq_map_published (paid : (Totals.ofRewards rewards).finish = .ok totals)
    {recipients : List Recipient} {leaves : List ProvenLeaf}
    (rows : List.Forall₂ (fun proven recipient =>
      Recipient.ofLeaf job.windowIndex job.config.kind totals proven = .ok recipient)
      leaves recipients) : recipients = leaves.map (published job rewards) := by
  rw [← List.map_id recipients]
  refine (Outcome.map_eq_map rows fun proven recipient row => ?_).symm
  obtain ⟨t, found, rfl⟩ := Recipient.ofLeaf_eq_ok.mp row
  have account : t.address = proven.leaf.account := by simpa using List.find?_some found
  have total := ((Totals.mem_of_finish paid).mp (List.mem_of_find?_eq_some found)).2
  rw [total, RecipientTotal.breakdown_ofEarned, account]
  rfl

/-- What is prepared: the rewards of the due deposits are summed up, those to be paid become a tree,
and its leaves are published. -/
theorem exists_rewards_of_prepare (h : distributor.prepare ledger job = .ok commit) :
    ∃ context rewards totals tree, distributor.context ledger job.config.kind = .ok context ∧
      List.Forall₂ context.Rewards (ledger.due job.config) rewards ∧
      (Totals.ofRewards rewards).finish = .ok totals ∧
      WindowTree.build (totals.map RecipientTotal.total) = .ok tree ∧
      commit = ⟨distributor.window job tree, tree.leaves.map (published job rewards),
        totals.flatMap (·.deposits), job.config.kind⟩ := by
  obtain ⟨totals, tree, recipients, isTotals, built, rows, rfl⟩ := prepare_eq_ok.mp h
  obtain ⟨context, rewards, isContext, rewarded, paid⟩ := exists_rewards_of_totals isTotals
  refine ⟨context, rewards, totals, tree, isContext, rewarded, paid, built, ?_⟩
  rw [eq_map_published paid rows]

theorem map_account_of_finish (paid : (Totals.ofRewards rewards).finish = .ok totals)
    (built : WindowTree.build (totals.map RecipientTotal.total) = .ok tree) :
    tree.leaves.map (·.leaf.account) = totals.map (·.address) := by
  have sorted : (totals.map RecipientTotal.total).Pairwise fun a b => a.address < b.address :=
    List.pairwise_map.mpr (Totals.pairwise_address_of_finish paid)
  exact (WindowTree.map_account_of_build sorted built).trans (List.map_map ..)

/-- The number of deposits that a recipient's payload tells of. -/
def Counts (recipient : Recipient) (count : Nat) : Prop :=
  recipient.payload.member? "depositCount" = some (.nat count)

/-- The payloads of a window count the deposits that are assigned to it. -/
theorem exists_counts_of_prepare (h : distributor.prepare ledger job = .ok commit) :
    ∃ counts, List.Forall₂ Counts commit.recipients counts ∧
      commit.deposits.length = counts.sum := by
  obtain ⟨context, rewards, totals, tree, -, -, paid, built, rfl⟩ :=
    exists_rewards_of_prepare h
  refine ⟨tree.leaves.map fun proven =>
    (DepositReward.earnedBy proven.leaf.account rewards).length, ?_, ?_⟩
  · rw [List.forall₂_map_left_iff, List.forall₂_map_right_iff, List.forall₂_same]
    exact fun proven _ => rfl
  · have lengths : totals.map (·.deposits.length) = (totals.map (·.address)).map fun address =>
        (DepositReward.earnedBy address rewards).length := by
      rw [List.map_map]
      refine List.map_congr_left fun t isPaid => ?_
      rw [((Totals.mem_of_finish paid).mp isPaid).2, RecipientTotal.deposits_ofEarned]
      simp
    rw [List.length_flatMap, lengths, ← map_account_of_finish paid built, List.map_map]
    rfl

/-- The number that a recipient's amount is. -/
def Pays (recipient : Recipient) (amount : Int) : Prop :=
  Decimal.parseInteger "amount" recipient.amount = .ok (.ofInt amount)

/-- What has to be deposited for a window is the sum of its recipients' amounts. -/
theorem exists_amounts_of_prepare (h : distributor.prepare ledger job = .ok commit) :
    ∃ amounts, List.Forall₂ Pays commit.recipients amounts ∧
      Decimal.parseInteger "rewardsToDeposit" commit.window.rewardsToDeposit =
        .ok (.ofInt amounts.sum) := by
  obtain ⟨totals, tree, recipients, -, built, rows, rfl⟩ := prepare_eq_ok.mp h
  have whole : ∀ proven ∈ tree.leaves, proven.leaf.amount.isInteger = true :=
    fun proven => WindowTree.isInteger_of_mem_leaves built
  refine ⟨tree.leaves.map (·.leaf.amount.truncated), ?_, ?_⟩
  · have members := (List.forall₂_and_left tree.leaves recipients).mpr ⟨whole, rows⟩
    refine List.forall₂_map_right_iff.mpr (members.flip.imp fun recipient proven => ?_)
    rintro ⟨isWhole, row⟩
    obtain ⟨t, -, rfl⟩ := Recipient.ofLeaf_eq_ok.mp row
    exact Decimal.parseInteger_plain isWhole "amount"
  · have number : tree.total.value = ((tree.leaves.map (·.leaf.amount.truncated)).sum : ℤ) := by
      unfold WindowTree.total
      rw [Decimal.value_sum_of_isInteger (by simpa using whole), List.map_map]
      rfl
    have isWhole := (Decimal.isInteger_iff_value _).mpr ⟨_, number⟩
    rw [← Decimal.truncated_of_value number]
    exact Decimal.parseInteger_plain isWhole "rewardsToDeposit"

theorem nodup_deposits_of_prepare (keyed : ledger.Keyed)
    (h : distributor.prepare ledger job = .ok commit) : commit.deposits.Nodup := by
  obtain ⟨context, rewards, totals, tree, -, rewarded, paid, -, equal⟩ :=
    exists_rewards_of_prepare h
  have keys := Outcome.map_eq_map rewarded (f := fun d => d.key) (g := fun r => r.deposit)
    fun d reward isReward => isReward.of.1.symm
  have distinct := nodup_key_due keyed job.config
  rw [equal]
  exact Totals.nodup_deposits_of_finish paid (keys ▸ distinct)

theorem exists_commit_of_prepare (keyed : ledger.Keyed)
    (h : distributor.prepare ledger job = .ok commit)
    (free : ledger.windows.find? (distributor.line, job.windowIndex) = none) :
    ∃ after, ledger.commit commit = .ok after := by
  have checked : Ledger.checkRecipients commit.window.line commit.window.windowIndex []
      commit.recipients = .ok () := by
    refine Ledger.checkRecipients_eq_ok.mpr ⟨?_, ?_, fun _ _ seen => List.not_mem_nil seen⟩
    · exact fun recipient member => (verify_of_prepare h member).1
    · refine List.pairwise_map.mpr ((pairwise_address_of_prepare h).imp fun less same => ?_)
      exact Nat.ne_of_lt less (congrArg Address.value same)
  have assignable : ∀ key ∈ commit.deposits, ∃ stamped,
      ledger.assigned commit.kind commit.window.windowIndex key = .ok stamped := by
    intro key member
    obtain ⟨context, rewards, totals, tree, -, rewarded, paid, -, rfl⟩ :=
      exists_rewards_of_prepare h
    obtain ⟨reward, isReward, rfl, -⟩ := (Totals.mem_deposits_of_finish paid).mp member
    obtain ⟨d, isDue, rewardOf⟩ := Outcome.exists_of_mem_right rewarded isReward
    obtain ⟨isValue, isEligible⟩ := List.mem_filter.mp isDue
    have found := Table.find?_of_mem_values keyed isValue
    obtain ⟨candidate, -⟩ := Deposit.isEligible_iff.mp isEligible
    obtain ⟨filled, -, unassigned, -⟩ := Deposit.isCandidate_iff.mp candidate
    rw [rewardOf.of.1]
    exact ⟨_, Ledger.assigned_eq_ok.mpr ⟨d, found, filled, unassigned, rfl⟩⟩
  obtain ⟨stamped, assigned⟩ := Outcome.exists_forall₂ assignable
  rw [← (place_of_prepare h).1] at free
  exact ⟨_, Ledger.commit_eq_ok.mpr ⟨free, checked, stamped, assigned, rfl⟩⟩

/-- A deposit that is assigned to a window is rewarded there: someone receives its reward, and is
a recipient of the window. -/
theorem exists_recipient_of_prepare (keyed : ledger.Keyed)
    (h : distributor.prepare ledger job = .ok commit) {key : DepositKey} {d : Deposit}
    (found : ledger.deposits.find? key = some d) (member : key ∈ commit.deposits) :
    ∃ address, d.rewardRecipient job.config.kind = some address ∧
      address ∈ commit.recipients.map (·.address) := by
  obtain ⟨context, rewards, totals, tree, isContext, rewarded, paid, built, rfl⟩ :=
    exists_rewards_of_prepare h
  obtain ⟨reward, isReward, rfl, positive⟩ := (Totals.mem_deposits_of_finish paid).mp member
  obtain ⟨same, isEligible, rewardOf⟩ := Outcome.exists_of_mem_right rewarded isReward
  obtain ⟨atKey, receives⟩ := rewardOf.of
  obtain rfl : d = same := by
    rw [atKey, Table.find?_of_mem_values keyed (List.mem_of_mem_filter isEligible)] at found
    exact (Option.some.inj found).symm
  rw [kind_of_context isContext] at receives
  refine ⟨reward.recipient, receives, ?_⟩
  rw [List.map_map]
  change reward.recipient ∈ tree.leaves.map (·.leaf.account)
  rw [map_account_of_finish paid built]
  exact Totals.mem_map_address_of_finish paid |>.mpr positive

end Distributor

end BridgeRewards
