import BridgeRewards.Proofs.Decimal.Number
import BridgeRewards.Proofs.Distributor.Failure
import BridgeRewards.Proofs.Distributor.Stamps
import BridgeRewards.Proofs.Reward.Units
import BridgeRewards.Proofs.Run.Settlement

/-!
# How a job concludes

A job that fails for lack of recipients leaves everything as a job that pays no one would.  So
whether it is done or has failed for this reason, every account is paid what the due deposits
contribute to its sum, and those of the due deposits whose recipient is paid are assigned to the
window (`concludes_of_runs`).
-/

set_option autoImplicit false

namespace BridgeRewards

/-- A job has paid all that it had to pay: it is done, or it has failed as there is no one to
pay. -/
def Job.Concluded (job : Job) : Prop :=
  job.status = .done ∨
    (job.status = .failed ∧ job.error = some RewardError.emptyWindow.message)

/-- What a window pays to an account: nothing if it is not one of the recipients, or if there is
no such window. -/
def Ledger.paid (ledger : Ledger) (line : Line) (index : Nat) (address : Address) : ℚ :=
  if ledger.hasWindow line index then
    (((ledger.recipientsOf line index).find? (·.address == address)).map
      fun recipient => Decimal.numberOf recipient.amount).getD 0
  else 0

theorem Deposit.free_of_settledBy {config : JobConfig} {payees : List Address} {d : Deposit}
    (settled : d.settledBy config payees = true) : d.windowFor config.kind = none := by
  obtain ⟨eligible, -⟩ := Bool.and_eq_true_iff.mp settled
  obtain ⟨candidate, -⟩ := isEligible_iff.mp eligible
  exact (isCandidate_iff.mp candidate).2.2.1

namespace Distributor

variable {distributor : Distributor} {before after : Ledger} {job : Job} {index : Nat}
  {config : JobConfig} {context : RewardContext} {rewards : List DepositReward}
  {totals : List RecipientTotal} {tree : WindowTree} {jobId : String}

/-- A job with an index and settings is run: one that is known, or one that is created for it. -/
inductive Runs (distributor : Distributor) (before : Ledger) (index : Nat) (config : JobConfig) :
    Job → Ledger → Prop
  | known {jobId : String} {initial job : Job} {after : Ledger}
      (found : before.getJob jobId = .ok initial) (place : initial.windowIndex = index)
      (settings : initial.config = config)
      (ran : distributor.runJob before jobId = .ok (job, after)) :
      Runs distributor before index config job after
  | created {now : Instant} {jobId : String} {job : Job} {after : Ledger}
      (ran : distributor.execute now before jobId index config = (after, .ok job)) :
      Runs distributor before index config job after

/-- A job has concluded: the due deposits have rewards, every account is paid what they contribute
to its sum, and those whose recipient is paid are assigned to the window. -/
structure Concludes (distributor : Distributor) (before : Ledger) (index : Nat)
    (config : JobConfig) (context : RewardContext) (payees : List Address) (after : Ledger) :
    Prop where
  isContext : distributor.context before config.kind = .ok context
  rewarded : ∀ d ∈ before.due config, ∃ reward, context.Rewards d reward
  paysOut : context.PaysOut (before.due config) payees
  stamps : before.Stamps after (Deposit.settledBy config payees) config.kind index
  paid : ∀ address, after.paid distributor.line index address =
    context.unitsOver address (before.due config)
  /-- Other windows of the line pay what they paid before. -/
  others : ∀ other, other ≠ index → ∀ address,
    after.paid distributor.line other address = before.paid distributor.line other address

/-! ## What a window pays -/

theorem amount_of_mem_leaves (paid : (Totals.ofRewards rewards).finish = .ok totals)
    (built : WindowTree.build (totals.map RecipientTotal.total) = .ok tree) {proven : ProvenLeaf}
    (member : proven ∈ tree.leaves) :
    proven.leaf.amount = DepositReward.unitsOf proven.leaf.account rewards := by
  have isLeaf : proven.leaf ∈ tree.leaves.map (·.leaf) := List.mem_map_of_mem member
  rw [map_leaf_of_finish paid built] at isLeaf
  obtain ⟨payee, -, equal⟩ := List.mem_map.mp isLeaf
  rw [← equal]

theorem paid_settle (paid : (Totals.ofRewards rewards).finish = .ok totals)
    (built : WindowTree.build (totals.map RecipientTotal.total) = .ok tree) (address : Address) :
    (distributor.settle before job rewards (totals.map (·.address)) tree).paid distributor.line
      job.windowIndex address = (DepositReward.unitsOf address rewards).value := by
  have written : (distributor.settle before job rewards (totals.map (·.address)) tree).hasWindow
      distributor.line job.windowIndex = true := by
    unfold Ledger.hasWindow Table.contains settle
    rw [Table.find?_insert_self]
    rfl
  have recipients : (distributor.settle before job rewards (totals.map (·.address))
      tree).recipientsOf distributor.line job.windowIndex =
        tree.leaves.map (published job rewards) := by
    unfold Ledger.recipientsOf settle
    rw [Table.find?_insert_self]
    rfl
  unfold Ledger.paid
  rw [if_pos written, recipients, List.find?_map]
  cases found : tree.leaves.find? ((fun r => r.address == address) ∘ published job rewards) with
  | some proven =>
      have member := List.mem_of_find?_eq_some found
      have account : proven.leaf.account = address := by
        have isRecipient := List.find?_some found
        rwa [Function.comp_apply, address_published, beq_iff_eq] at isRecipient
      rw [Option.map_some, Option.map_some, Option.getD_some, amount_published,
        Decimal.numberOf_plain (WindowTree.isInteger_of_mem_leaves built member),
        amount_of_mem_leaves paid built member, account]
  | none =>
      -- No leaf has the account, so its sum is not positive; nor is it negative.
      have unpaid : address ∉ totals.map (·.address) := by
        rw [← map_account_of_finish paid built]
        intro isAccount
        obtain ⟨proven, member, account⟩ := List.mem_map.mp isAccount
        exact List.find?_eq_none.mp found proven member (beq_iff_eq.mpr account)
      have notPositive := mt (Totals.mem_map_address_of_finish paid).mpr unpaid
      have notNegative := Totals.unitsOf_of_finish paid address
      rw [Decimal.lt_iff_value_lt, Decimal.value_zero] at notPositive notNegative
      exact le_antisymm (not_lt.mp notNegative) (not_lt.mp notPositive)

/-! ## How a job concludes -/

/-- The addresses of the totals to be paid are those who are paid for the due deposits. -/
theorem paysOut_of_finish (rewarded : List.Forall₂ context.Rewards (before.due config) rewards)
    (paid : (Totals.ofRewards rewards).finish = .ok totals) :
    context.PaysOut (before.due config) (totals.map (·.address)) := by
  constructor <;> intro address <;>
    rw [← RewardContext.value_unitsOf rewarded address, ← Decimal.value_zero]
  · rw [← Decimal.lt_iff_value_lt]
    exact Totals.mem_map_address_of_finish paid
  · rw [← not_lt, ← Decimal.lt_iff_value_lt]
    exact Totals.unitsOf_of_finish paid address

/-- A job whose window is written has concluded. -/
theorem concludes_of_commit (keyed : before.Keyed) {commit : WindowCommit}
    {written : Ledger} (prepared : distributor.prepare before job = .ok commit)
    (committed : before.commit commit = .ok written) :
    ∃ context payees,
      distributor.Concludes before job.windowIndex job.config context payees written := by
  obtain ⟨totals, tree, recipients, isTotals, built, rows, isCommit⟩ := prepare_eq_ok.mp prepared
  obtain ⟨context, rewards, isContext, rewarded, paid⟩ := exists_rewards_of_totals isTotals
  rw [eq_map_published paid rows] at isCommit
  have settled : written =
      distributor.settle before job rewards (totals.map (·.address)) tree := by
    refine eq_settle_of_commit keyed prepared committed (isCommit ▸ rfl)
      (isCommit ▸ rfl) fun key d found => ?_
    rw [isCommit]
    exact mem_deposits_iff_settledBy keyed isContext rewarded paid found
  refine ⟨context, totals.map (·.address), isContext,
    fun d isDue => (Outcome.exists_of_mem_left rewarded isDue).imp fun _ => And.right,
    paysOut_of_finish rewarded paid, ?_, fun address => ?_, fun other elsewhere address => ?_⟩
  · rw [settled]
    exact ⟨fun _ => Deposit.free_of_settledBy, rfl, rfl⟩
  · rw [settled, paid_settle paid built, RewardContext.value_unitsOf rewarded]
  · have place : (distributor.line, other) ≠ (distributor.line, job.windowIndex) :=
      fun same => elsewhere (congrArg (·.2) same)
    rw [settled]
    unfold Ledger.paid Ledger.hasWindow Ledger.recipientsOf Table.contains settle
    rw [Table.find?_insert, Table.find?_insert, if_neg place, if_neg place]

/-- A job without recipients has concluded with nothing written. -/
theorem concludes_of_emptyWindow
    (free : before.windows.find? (distributor.line, job.windowIndex) = none)
    (failed : distributor.prepare before job = .error .emptyWindow) :
    ∃ context, distributor.Concludes before job.windowIndex job.config context [] before := by
  obtain ⟨context, rewards, isContext, rewarded, paid⟩ :=
    exists_rewards_of_totals (totals_eq_nil_of_prepare failed)
  have paysOut : context.PaysOut (before.due job.config) [] := paysOut_of_finish rewarded paid
  refine ⟨context, isContext,
    fun d isDue => (Outcome.exists_of_mem_left rewarded isDue).imp fun _ => And.right,
    paysOut, ?_, fun address => ?_, fun _ _ _ => rfl⟩
  · refine ⟨fun _ => Deposit.free_of_settledBy, Table.ext fun key => ?_, rfl⟩
    rw [Table.find?_mapValues]
    have none : ∀ d : Deposit, d.settledBy job.config [] = false := fun d => by
      simp [Deposit.settledBy]
    simp [none]
  · have absent : before.hasWindow distributor.line job.windowIndex = false := by
      unfold Ledger.hasWindow Table.contains
      rw [free]
      rfl
    have noOne : ¬ 0 < context.unitsOver address (before.due job.config) :=
      fun positive => List.not_mem_nil ((paysOut.mem_payees address).mpr positive)
    unfold Ledger.paid
    rw [absent, le_antisymm (not_lt.mp noOne) (paysOut.notNegative address)]
    rfl

theorem Concludes.jobs {payees : List Address}
    (concludes : distributor.Concludes before index config context payees after)
    (earlier later : List Job) :
    distributor.Concludes { before with jobs := earlier } index config context payees
      { after with jobs := later } where
  isContext := concludes.isContext
  rewarded := concludes.rewarded
  paysOut := concludes.paysOut
  stamps := ⟨concludes.stamps.free, concludes.stamps.deposits, concludes.stamps.claims⟩
  paid := concludes.paid
  others := concludes.others

theorem concludes_of_runJob (consistent : before.Consistent) {initial : Job}
    (known : before.getJob jobId = .ok initial)
    (ran : distributor.runJob before jobId = .ok (job, after)) (concluded : job.Concluded) :
    ∃ context payees, distributor.Concludes before initial.windowIndex initial.config context
      payees after := by
  obtain ⟨started, begins, ended⟩ := runJob_eq_ok.mp ran
  obtain ⟨same, isSame, -, -, free, rfl, -⟩ := beginJob_eq_ok.mp begins
  obtain rfl : initial = same := Except.ok.inj (known.symm.trans isSame)
  rcases ended with ⟨commit, written, prepared, committed, rfl, rfl⟩ | ⟨e, build, rfl, rfl⟩
  · obtain ⟨context, payees, concludes⟩ := concludes_of_commit consistent.keyed prepared committed
    exact ⟨context, payees, concludes.jobs before.jobs _⟩
  · have message : e.message = RewardError.emptyWindow.message := by
      rcases concluded with isDone | ⟨-, noOne⟩
      · cases isDone
      · exact Option.some.inj noOne
    obtain rfl := RunError.eq_emptyWindow_of_message message
    have failed : distributor.prepare (before.withJob initial.begun) initial.begun =
        .error .emptyWindow := prepare_of_buildWindow build
    obtain ⟨context, concludes⟩ := concludes_of_emptyWindow
      (free_of_checkIndex free) failed
    exact ⟨context, [], concludes.jobs before.jobs _⟩

/-- **How a job concludes.**  A job that is run and has paid all that it had to pay has done so
with some payees. -/
theorem concludes_of_runs (consistent : before.Consistent)
    (runs : distributor.Runs before index config job after) (concluded : job.Concluded) :
    ∃ context payees, distributor.Concludes before index config context payees after := by
  cases runs with
  | known found place settings ran =>
      subst place settings
      exact concludes_of_runJob consistent found ran concluded
  | @created now jobId _ _ ran =>
      obtain ⟨created, isCreated, ran⟩ := execute_eq_ok.mp ran
      obtain ⟨-, -, -, fresh, -, rfl⟩ := createJob_eq_ok.mp isCreated
      obtain ⟨context, payees, concludes⟩ := concludes_of_runJob (consistent.jobs _)
        (Ledger.getJob_append fresh) ran concluded
      exact ⟨context, payees, concludes.jobs before.jobs after.jobs⟩

/-- Where no job is in progress, a job with a single total is done once it is created and run. -/
theorem exists_execute_of_singleton (consistent : before.Consistent) (now : Instant)
    (jobId : String) {t : RecipientTotal} {amount : Nat} (valid : config.validate now = .ok ())
    (free : distributor.checkIndex before index = .ok ()) (idle : before.jobsIn .inProgress = [])
    (fresh : ∀ other ∈ before.jobs, other.jobId ≠ jobId)
    (totals : distributor.totals before config = .ok [t])
    (word : t.amount.toWord? = some amount) :
    ∃ commit written done, commit.place = (distributor.line, index) ∧
      commit.kind = config.kind ∧ commit.deposits = t.deposits ∧
      before.commit commit = .ok written ∧ done.status = .done ∧ done.jobId = jobId ∧
      distributor.execute now before jobId index config =
        ({ written with jobs := before.jobs ++ [done] }, .ok done) := by
  obtain ⟨commit, prepared, deposits⟩ :=
    @exists_prepare_of_singleton distributor before (.new jobId index config) t amount totals word
  obtain ⟨place, isKind, -⟩ := place_of_prepare prepared
  obtain ⟨written, committed⟩ := exists_commit_of_prepare consistent.keyed prepared
    (free_of_checkIndex free)
  obtain ⟨done, isDone, sameId, executed⟩ :=
    execute_of_commit valid free idle fresh prepared committed
  exact ⟨commit, written, done, place, isKind, deposits, committed, isDone, sameId, executed⟩

theorem Runs.consistent (runs : distributor.Runs before index config job after)
    (consistent : before.Consistent) : after.Consistent := by
  have ends : ∀ {ledger : Ledger} {jobId : String}, ledger.Consistent →
      distributor.runJob ledger jobId = .ok (job, after) → after.Consistent := by
    intro ledger jobId start ran
    have kept := start.step (.runJob distributor jobId)
    change (ledger.orUnchanged (distributor.runJob ledger jobId)).Consistent at kept
    rwa [ran] at kept
  cases runs with
  | known _ _ _ ran => exact ends consistent ran
  | created ran =>
      obtain ⟨created, isCreated, ran⟩ := execute_eq_ok.mp ran
      obtain ⟨-, -, -, -, -, rfl⟩ := createJob_eq_ok.mp isCreated
      exact ends (consistent.jobs _) ran

end Distributor

end BridgeRewards
