import BridgeRewards.Distributor.Build
import BridgeRewards.Proofs.Decimal.Text
import BridgeRewards.Proofs.Ledger.Commit
import BridgeRewards.Proofs.Window.Soundness

/-!
# What a distributor prepares

The window that is prepared for a job has the root of the tree over the totals, and its recipients
are the leaves of that tree with their proofs and with how their amounts came about
(`prepare_eq_ok`).  They come in order of their indices and of their addresses, and every one of
them can be checked against the root as it is published, with its amount as text.
-/

set_option autoImplicit false

namespace BridgeRewards

theorem Decimal.toWord?_truncate {x : Decimal} {n : Nat} (h : x.toWord? = some n) :
    x.truncate.toWord? = some n := by
  have fits := lt_of_toWord? h
  obtain ⟨sign, -, -, rfl⟩ := toWord?_eq_some.mp h
  have whole : x.truncate = ofInt (x.truncated.toNat : Int) := by
    rw [Int.toNat_of_nonneg (truncated_nonneg sign), truncate]
  rw [whole]
  exact toWord?_ofInt fits

theorem Leaf.packed_truncate {leaf : Leaf} {bytes : List UInt8} (h : leaf.packed = .ok bytes) :
    leaf.amount.isInteger = true ∧
      Leaf.packed { leaf with amount := leaf.amount.truncate } = .ok bytes := by
  obtain ⟨fits, n, word, rfl⟩ := packed_eq_ok.mp h
  obtain ⟨-, whole, -⟩ := Decimal.toWord?_eq_some.mp word
  exact ⟨whole, packed_eq_ok.mpr ⟨fits, n, Decimal.toWord?_truncate word, rfl⟩⟩

/-- A leaf of a tree can be checked with its amount as text. -/
theorem WindowTree.verify_of_mem_leaves {totals : List Total} {tree : WindowTree}
    {proven : ProvenLeaf} (built : build totals = .ok tree) (member : proven ∈ tree.leaves)
    (windowIndex : Nat) :
    RecipientArtifact.verify ⟨windowIndex, proven.leaf.account, proven.leaf.accountIndex,
      proven.leaf.amount.plain, proven.proof⟩ tree.root = .ok true := by
  obtain ⟨hash, hashed, climbs⟩ := climb_of_mem_leaves built member
  obtain ⟨bytes, packed, rfl⟩ := Leaf.hash_eq_ok.mp hashed
  obtain ⟨whole, packedAgain⟩ := Leaf.packed_truncate packed
  refine RecipientArtifact.verify_eq_ok_true.mpr ⟨_, ?_, bytes, packedAgain, climbs⟩
  exact RecipientArtifact.leaf?_eq_some.mpr
    ⟨_, Decimal.parseInteger_plain whole "amount", rfl⟩

namespace Recipient

variable {index : Nat} {kind : RewardType} {totals : List RecipientTotal} {proven : ProvenLeaf}
  {recipient : Recipient}

theorem ofLeaf_eq_ok :
    ofLeaf index kind totals proven = .ok recipient ↔
      ∃ t, totals.find? (·.address == proven.leaf.account) = some t ∧
        recipient = ⟨index, proven.leaf.account, proven.leaf.amount.plain,
          proven.leaf.accountIndex, proven.proof, (t.breakdown kind).toJson⟩ := by
  unfold ofLeaf
  cases totals.find? (·.address == proven.leaf.account) with
  | none => simp
  | some t => simp [eq_comm]

end Recipient

namespace Distributor

variable {distributor : Distributor} {ledger : Ledger} {job : Job} {commit : WindowCommit}

/-- The window of a job over a tree. -/
def window (distributor : Distributor) (job : Job) (tree : WindowTree) : Window where
  chainId := distributor.settings.chainId
  contractAddress := distributor.settings.contractAddress
  windowIndex := job.windowIndex
  rewardToken := distributor.settings.rewardToken
  rewardsToDeposit := tree.total.plain
  merkleRoot := tree.root
  ipfsHash := none
  kind := job.config.kind
  jobId := job.jobId

/-- What is prepared for a job: the window over the tree of its totals, a recipient for each
leaf, and the deposits of all totals. -/
theorem prepare_eq_ok :
    distributor.prepare ledger job = .ok commit ↔
      ∃ totals tree recipients, distributor.totals ledger job.config = .ok totals ∧
        WindowTree.build (totals.map RecipientTotal.total) = .ok tree ∧
        List.Forall₂ (fun proven recipient =>
            Recipient.ofLeaf job.windowIndex job.config.kind totals proven = .ok recipient)
          tree.leaves recipients ∧
        commit = ⟨distributor.window job tree, recipients, totals.flatMap (·.deposits),
          job.config.kind⟩ := by
  unfold prepare
  simp only [Outcome.bind_eq_ok, ← exists_and_left]
  refine exists_congr fun totals => exists_congr fun tree => exists_congr fun recipients => ?_
  refine and_congr_right fun _ => and_congr_right fun _ => ?_
  rw [Outcome.mapM_eq_ok]
  refine and_congr_right fun _ => ?_
  exact ⟨fun h => (Except.ok.inj h).symm, fun h => congrArg Except.ok h.symm⟩

theorem totals_congr {other : Ledger} (deposits : other.deposits = ledger.deposits)
    (claims : other.claims = ledger.claims) (config : JobConfig) :
    distributor.totals other config = distributor.totals ledger config := by
  unfold totals context Ledger.claimedWindows Ledger.claimedBy Ledger.claimsBy
  rw [deposits, claims]

/-- A window for a single total can be prepared if its amount fits a word. -/
theorem exists_prepare_of_singleton {t : RecipientTotal} {amount : Nat}
    (totals : distributor.totals ledger job.config = .ok [t])
    (word : t.amount.toWord? = some amount) :
    ∃ commit, distributor.prepare ledger job = .ok commit ∧ commit.deposits = t.deposits := by
  obtain ⟨bytes, packed⟩ : ∃ bytes, Leaf.packed ⟨0, t.address, t.amount⟩ = .ok bytes :=
    ⟨_, Leaf.packed_eq_ok.mpr ⟨twoTo_pos 256, amount, word, rfl⟩⟩
  have built : WindowTree.build ([t].map RecipientTotal.total) = .ok _ :=
    WindowTree.build_singleton (Leaf.hash_eq_ok.mpr ⟨bytes, packed, rfl⟩)
  have row : Recipient.ofLeaf job.windowIndex job.config.kind [t]
      ⟨⟨0, t.address, t.amount⟩, []⟩ = .ok _ :=
    Recipient.ofLeaf_eq_ok.mpr ⟨t, by simp, rfl⟩
  exact ⟨_, prepare_eq_ok.mpr ⟨[t], _, _, totals, built, .cons row .nil, rfl⟩,
    List.flatMap_singleton _ _⟩

theorem place_of_prepare (h : distributor.prepare ledger job = .ok commit) :
    commit.place = (distributor.line, job.windowIndex) ∧ commit.kind = job.config.kind ∧
      commit.window.kind = job.config.kind := by
  obtain ⟨totals, tree, recipients, -, -, -, rfl⟩ := prepare_eq_ok.mp h
  exact ⟨rfl, rfl, rfl⟩

theorem jobId_of_prepare (h : distributor.prepare ledger job = .ok commit) :
    commit.window.jobId = job.jobId := by
  obtain ⟨totals, tree, recipients, -, -, -, rfl⟩ := prepare_eq_ok.mp h
  rfl

theorem map_accountIndex_of_prepare (h : distributor.prepare ledger job = .ok commit) :
    commit.recipients.map (·.accountIndex) = List.range commit.recipients.length := by
  obtain ⟨totals, tree, recipients, -, built, rows, rfl⟩ := prepare_eq_ok.mp h
  have indices := Outcome.map_eq_map rows (f := fun proven => proven.leaf.accountIndex)
    (g := fun recipient => recipient.accountIndex) fun proven recipient row => by
      obtain ⟨t, -, rfl⟩ := Recipient.ofLeaf_eq_ok.mp row
      rfl
  rw [← indices, WindowTree.map_accountIndex_of_build built, rows.length_eq]

/-- The recipients of what is prepared stand in order of their addresses, each once. -/
theorem pairwise_address_of_prepare (h : distributor.prepare ledger job = .ok commit) :
    commit.recipients.Pairwise fun a b => a.address < b.address := by
  obtain ⟨totals, tree, recipients, -, built, rows, rfl⟩ := prepare_eq_ok.mp h
  have accounts := Outcome.map_eq_map rows (f := fun proven => proven.leaf.account)
    (g := fun recipient => recipient.address) fun proven recipient row => by
      obtain ⟨t, -, rfl⟩ := Recipient.ofLeaf_eq_ok.mp row
      rfl
  have increasing := List.pairwise_map.mpr (WindowTree.pairwise_account_of_build built)
  rw [accounts] at increasing
  exact List.pairwise_map.mp increasing

theorem byAccountIndex_of_prepare (h : distributor.prepare ledger job = .ok commit) :
    Ledger.byAccountIndex commit.recipients = commit.recipients := by
  have indices := List.pairwise_lt_range (n := commit.recipients.length)
  rw [← map_accountIndex_of_prepare h] at indices
  refine List.mergeSort_of_pairwise ((List.pairwise_map.mp indices).imp fun less => ?_)
  exact decide_eq_true less.le

theorem find?_windows_of_commit {source after : Ledger}
    (h : distributor.prepare source job = .ok commit)
    (committed : ledger.commit commit = .ok after) :
    after.windows.find? (distributor.line, job.windowIndex) = some commit.window := by
  rw [(Ledger.tables_of_commit committed).1, ← (place_of_prepare h).1]
  exact Table.find?_insert_self _ _ _

theorem recipientsOf_of_commit {source after : Ledger}
    (h : distributor.prepare source job = .ok commit)
    (committed : ledger.commit commit = .ok after) :
    after.recipientsOf distributor.line job.windowIndex = commit.recipients := by
  unfold Ledger.recipientsOf
  rw [(Ledger.tables_of_commit committed).2, ← (place_of_prepare h).1, Table.find?_insert_self,
    Option.getD_some, byAccountIndex_of_prepare h]

/-- Every recipient of what is prepared belongs to the window and can be checked against its
root. -/
theorem verify_of_prepare (h : distributor.prepare ledger job = .ok commit) {recipient : Recipient}
    (member : recipient ∈ commit.recipients) :
    recipient.windowIndex = commit.window.windowIndex ∧
      recipient.artifact.verify commit.window.merkleRoot = .ok true := by
  obtain ⟨totals, tree, recipients, -, built, rows, rfl⟩ := prepare_eq_ok.mp h
  obtain ⟨proven, isLeaf, row⟩ := Outcome.exists_of_mem_right rows member
  obtain ⟨t, -, rfl⟩ := Recipient.ofLeaf_eq_ok.mp row
  exact ⟨rfl, WindowTree.verify_of_mem_leaves built isLeaf job.windowIndex⟩

end Distributor

end BridgeRewards
