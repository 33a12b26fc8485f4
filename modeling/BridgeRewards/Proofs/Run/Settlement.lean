import BridgeRewards.Proofs.Distributor.Earnings
import BridgeRewards.Proofs.Distributor.Payout
import BridgeRewards.Proofs.Run.Consistent

/-!
# A window is what it is defined to be

If the run of a job reports that it is done then it has settled the job: the due deposits have
earned their rewards, whoever has earned a positive sum of units is paid, the window stands over
the tree of what is paid, and exactly the due deposits whose recipient is paid are assigned to it.
Apart from the job nothing else in the ledger has changed.
-/

set_option autoImplicit false

namespace BridgeRewards

/-- Whether a deposit is settled by a job that pays some accounts: it is due, and its recipient is
among the payees. -/
def Deposit.settledBy (config : JobConfig) (payees : List Address) (d : Deposit) : Bool :=
  d.isEligible config.kind config.maxDepositDate &&
    (d.rewardRecipient config.kind).any fun address => payees.contains address

/-- The ledger once a job has settled what is due to some accounts. -/
def Distributor.settle (distributor : Distributor) (ledger : Ledger) (job : Job)
    (rewards : List DepositReward) (payees : List Address) (tree : WindowTree) : Ledger :=
  { ledger with
    deposits := ledger.deposits.mapValues fun d =>
      if d.settledBy job.config payees then d.stamp job.config.kind job.windowIndex else d
    windows := ledger.windows.insert (distributor.line, job.windowIndex)
      (distributor.window job tree)
    recipients := ledger.recipients.insert (distributor.line, job.windowIndex)
      (tree.leaves.map (Distributor.published job rewards)) }

/-- A job is settled with some rewards, to some payees and with some tree. -/
structure Distributor.Settles (distributor : Distributor) (ledger : Ledger) (job : Job)
    (rewards : List DepositReward) (payees : List Address) (tree : WindowTree) (done : Job)
    (after : Ledger) : Prop where
  /-- The due deposits have earned the rewards, one each and in their order. -/
  earned : List.Forall₂ (distributor.Earns ledger job.config.kind) (ledger.due job.config) rewards
  /-- The payees are in order of their addresses. -/
  ordered : payees.Pairwise fun a b => a < b
  /-- Whoever has earned a positive sum of units is paid. -/
  paid : ∀ address, address ∈ payees ↔ 0 < DepositReward.unitsOf address rewards
  /-- No one has earned a negative sum. -/
  notNegative : ∀ address, ¬ DepositReward.unitsOf address rewards < 0
  /-- The tree is that of the payees and their sums. -/
  built : WindowTree.build (payees.map fun address =>
    ⟨address, DepositReward.unitsOf address rewards⟩) = .ok tree
  /-- Its leaves are the payees with their sums, counted from zero. -/
  leaves : tree.leaves.map (·.leaf) = payees.zipIdx.map fun payee =>
    ⟨payee.2, payee.1, DepositReward.unitsOf payee.1 rewards⟩
  /-- The job ends with the root of the tree and the number of the payees. -/
  ended : done = job.begun.finished tree.root payees.length
  /-- The ledger is the one before, once the job has settled what is due. -/
  written : after = (distributor.settle ledger job rewards payees tree).withJob done

namespace Distributor

variable {distributor : Distributor} {ledger : Ledger} {job : Job} {commit : WindowCommit}
  {rewards : List DepositReward} {totals : List RecipientTotal} {tree : WindowTree}

theorem map_total_of_finish (paid : (Totals.ofRewards rewards).finish = .ok totals) :
    totals.map RecipientTotal.total =
      (totals.map (·.address)).map fun address =>
        ⟨address, DepositReward.unitsOf address rewards⟩ := by
  rw [List.map_map]
  refine List.map_congr_left fun t isPaid => ?_
  have amount := congrArg (·.amount) ((Totals.mem_of_finish paid).mp isPaid).2
  rw [RecipientTotal.amount_ofEarned] at amount
  exact congrArg (Total.mk t.address) amount

theorem map_leaf_of_finish (paid : (Totals.ofRewards rewards).finish = .ok totals)
    (built : WindowTree.build (totals.map RecipientTotal.total) = .ok tree) :
    tree.leaves.map (·.leaf) = (totals.map (·.address)).zipIdx.map fun payee =>
      ⟨payee.2, payee.1, DepositReward.unitsOf payee.1 rewards⟩ := by
  have sorted : (totals.map RecipientTotal.total).Pairwise fun a b => a.address ≤ b.address :=
    List.pairwise_map.mpr ((Totals.pairwise_address_of_finish paid).imp Nat.le_of_lt)
  rw [WindowTree.map_leaf_of_build built, WindowTree.inOrder_of_pairwise sorted,
    map_total_of_finish paid, WindowTree.number, List.zipIdx_map, List.map_map]
  rfl

/-- The deposits of what is prepared are those that it settles. -/
theorem mem_deposits_iff_settledBy (keyed : ledger.Keyed) {context : RewardContext}
    (isContext : distributor.context ledger job.config.kind = .ok context)
    (rewarded : List.Forall₂ context.Rewards (ledger.due job.config) rewards)
    (paid : (Totals.ofRewards rewards).finish = .ok totals) {key : DepositKey} {d : Deposit}
    (found : ledger.deposits.find? key = some d) :
    key ∈ totals.flatMap (·.deposits) ↔
      d.settledBy job.config (totals.map (·.address)) = true := by
  have receives : ∀ d reward, context.Rewards d reward →
      d.rewardRecipient job.config.kind = some reward.recipient :=
    fun d reward isReward => kind_of_context isContext ▸ isReward.of.2
  rw [Totals.mem_deposits_of_finish paid, Deposit.settledBy, Bool.and_eq_true_iff]
  constructor
  · rintro ⟨reward, isReward, rfl, positive⟩
    obtain ⟨same, isDue, rewardOf⟩ := Outcome.exists_of_mem_right rewarded isReward
    obtain ⟨isValue, isEligible⟩ := List.mem_filter.mp isDue
    obtain rfl : d = same := by
      rw [rewardOf.of.1, Table.find?_of_mem_values keyed isValue] at found
      exact (Option.some.inj found).symm
    refine ⟨isEligible, ?_⟩
    rw [receives d reward rewardOf, Option.any_some, List.contains_iff_mem]
    exact (Totals.mem_map_address_of_finish paid).mpr positive
  · rintro ⟨isEligible, isPaid⟩
    have isDue : d ∈ ledger.due job.config :=
      List.mem_filter.mpr ⟨Table.mem_values.mpr ⟨key, found⟩, isEligible⟩
    obtain ⟨reward, isReward, rewardOf⟩ := Outcome.exists_of_mem_left rewarded isDue
    rw [receives d reward rewardOf, Option.any_some, List.contains_iff_mem] at isPaid
    refine ⟨reward, isReward, rewardOf.of.1.trans (keyed key d found), ?_⟩
    exact (Totals.mem_map_address_of_finish paid).mp isPaid

/-- A committed window settles its job in the ledger. -/
theorem eq_settle_of_commit (keyed : ledger.Keyed) {written : Ledger} {payees : List Address}
    (prepared : distributor.prepare ledger job = .ok commit)
    (committed : ledger.commit commit = .ok written)
    (window : commit.window = distributor.window job tree)
    (recipients : commit.recipients = tree.leaves.map (published job rewards))
    (settled : ∀ key d, ledger.deposits.find? key = some d →
      (key ∈ commit.deposits ↔ d.settledBy job.config payees = true)) :
    written = distributor.settle ledger job rewards payees tree := by
  obtain ⟨place, isKind, -⟩ := place_of_prepare prepared
  obtain ⟨windows, rows⟩ := Ledger.tables_of_commit committed
  have index : commit.window.windowIndex = job.windowIndex := congrArg (·.2) place
  have deposits : written.deposits = ledger.deposits.mapValues fun d =>
      if d.settledBy job.config payees then d.stamp job.config.kind job.windowIndex else d := by
    refine Table.ext fun key => ?_
    rw [Ledger.find?_deposits_of_commit keyed committed, Table.find?_mapValues, isKind, index]
    cases found : ledger.deposits.find? key with
    | none => rfl
    | some d =>
        rw [Option.map_some, Option.map_some]
        by_cases named : key ∈ commit.deposits
        · rw [if_pos named, if_pos ((settled key d found).mp named)]
        · rw [if_neg named, if_neg fun isSettled => named ((settled key d found).mpr isSettled)]
  rw [place, window] at windows
  rw [place, byAccountIndex_of_prepare prepared, recipients] at rows
  have frame := Ledger.eq_of_commit committed
  rw [deposits, windows, rows] at frame
  exact frame

end Distributor

namespace Ledger

/-- **A window equals its definition.**  After any run, if the run of a job reports that it is
done then the job was initial, and it is settled. -/
theorem settles_of_run (operations : List Operation) (distributor : Distributor) (jobId : String)
    {done : Job} {after : Ledger}
    (ran : distributor.runJob (Ledger.empty.run operations) jobId = .ok (done, after))
    (isDone : done.status = .done) :
    ∃ job rewards payees tree, (Ledger.empty.run operations).getJob jobId = .ok job ∧
      job.status = .initial ∧
      distributor.Settles (Ledger.empty.run operations) job rewards payees tree done after := by
  have consistent := consistent_run operations
  generalize Ledger.empty.run operations = ledger at ran consistent ⊢
  obtain ⟨started, begins, ended⟩ := Distributor.runJob_eq_ok.mp ran
  obtain ⟨job, known, initial, -, -, rfl, -⟩ := Distributor.beginJob_eq_ok.mp begins
  rcases ended with ⟨commit, written, prepared, committed, rfl, rfl⟩ | ⟨e, -, rfl, -⟩
  · obtain ⟨context, rewards, totals, tree, isContext, rewarded, paid, built, isCommit⟩ :=
      Distributor.exists_rewards_of_prepare prepared
    have length : commit.recipients.length = (totals.map (·.address)).length := by
      rw [isCommit, ← Distributor.map_account_of_finish paid built]
      simp
    refine ⟨job, rewards, totals.map (·.address), tree, known, initial, ?_⟩
    constructor
    · exact rewarded.imp fun d reward =>
        Distributor.earns_of_context consistent.sound isContext
    · exact List.pairwise_map.mpr (Totals.pairwise_address_of_finish paid)
    · exact fun address => Totals.mem_map_address_of_finish paid
    · exact Totals.unitsOf_of_finish paid
    · rw [← Distributor.map_total_of_finish paid]
      exact built
    · exact Distributor.map_leaf_of_finish paid built
    · rw [← length, isCommit]
      rfl
    · refine congrArg (Ledger.withJob · _) ?_
      refine Distributor.eq_settle_of_commit consistent.keyed prepared committed
        (isCommit ▸ rfl) (isCommit ▸ rfl) fun key d found => ?_
      rw [isCommit]
      exact Distributor.mem_deposits_iff_settledBy consistent.keyed isContext rewarded paid found
  · cases isDone

theorem settles_of_run_trial :
    ∃ done after, Trial.distributor.runJob (Ledger.empty.run Trial.operations) "job" =
        .ok (done, after) ∧
      done.status = .done ∧
      ∃ job rewards payees tree, (Ledger.empty.run Trial.operations).getJob "job" = .ok job ∧
        job.status = .initial ∧
        Trial.distributor.Settles (Ledger.empty.run Trial.operations) job rewards payees tree done
          after := by
  obtain ⟨done, after, ran, isDone, -⟩ := Trial.exists_runJob
  exact ⟨done, after, ran, isDone,
    settles_of_run Trial.operations Trial.distributor "job" ran isDone⟩

end Ledger

end BridgeRewards
