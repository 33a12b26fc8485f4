import BridgeRewards.Proofs.Distributor.Leftovers
import BridgeRewards.Proofs.Run.Independence
import BridgeRewards.Proofs.Run.Split

/-!
# A window leaves nothing to pay

Once a window is written for some kind and cutoff, another job of the same kind and cutoff finds
only what the first has left, and that sums up to zero for everyone (`Concludes.totals_eq_nil`).  So
when it is run next, at whatever higher index, it fails for lack of recipients and leaves everything
but itself as it is (`nothing_left_to_pay`).  That it can be run at all is part of the statement:
the first job is no longer in progress, and the window that it has written is below.

Of the ledger it is only assumed that deposits stand at their own keys and windows at their own
places.  In particular anyone may have claimed from the index of the first window before there was
one, and volumes of referrers who are paid may then change.
-/

set_option autoImplicit false

namespace BridgeRewards

/-- A job that has failed for lack of recipients. -/
def Job.unpaid (job : Job) : Job :=
  { job with
    status := .failed, error := some RewardError.emptyWindow.message, isTimed := true }

namespace Distributor

variable {distributor : Distributor} {ledger before after between : Ledger} {job done : Job}
  {index earlier later : Nat} {config : JobConfig} {context : RewardContext}
  {payees : List Address} {d : Deposit}

/-! ## What is left -/

section Left

variable (concludes : distributor.Concludes before index config context payees after)

include concludes

theorem Concludes.exists_volumes :
    ∃ volumes, VolumeIndex.build after.deposits.values before.claimedWindows = .ok volumes := by
  obtain ⟨_, built, -⟩ := context_eq_ok.mp concludes.isContext
  obtain ⟨pairs, isCounted, -⟩ := Outcome.bind_eq_ok.mp built
  have each : ∀ d ∈ before.deposits.values, ∀ first,
      VolumeIndex.counted? before.claimedWindows d = .ok first →
        ∃ other, VolumeIndex.counted? before.claimedWindows
          (if d.settledBy config payees then d.stamp config.kind index else d) = .ok other := by
    intro d _ first isFirst
    split
    · next settled =>
        by_cases isReferral : config.kind = .referral
        · have free := concludes.stamps.free d settled
          exact VolumeIndex.exists_counted?_stamp isFirst (isReferral ▸ free) _ _
        · exact ⟨first, (VolumeIndex.counted?_stamp_of_ne isReferral _ d).trans isFirst⟩
    · exact ⟨first, isFirst⟩
  obtain ⟨others, areOthers⟩ := VolumeIndex.exists_counted_map isCounted each
  rw [concludes.stamps.deposits, Table.values_mapValues]
  exact ⟨_, Outcome.bind_eq_ok.mpr ⟨others, areOthers, rfl⟩⟩

/-- What is left has the volumes that it had: if a deposit of its referrer were settled, it would be
settled itself. -/
theorem Concludes.sameFor {volumes : VolumeIndex}
    (built : VolumeIndex.build after.deposits.values before.claimedWindows = .ok volumes)
    (eligible : d.isEligible config.kind config.maxDepositDate = true)
    (left : d.settledBy config payees = false) : context.SameFor volumes d := by
  have isKind := kind_of_context concludes.isContext
  obtain ⟨index, isIndex, isContext⟩ := context_eq_ok.mp concludes.isContext
  rw [concludes.stamps.deposits, Table.values_mapValues] at built
  intro isReferral referral sticky instant
  have receives : d.rewardRecipient context.kind = some referral := by rw [isReferral]; exact sticky
  have unpaid : referral ∉ payees := by
    intro isPaid
    have settled : d.settledBy config payees = true := by
      rw [Deposit.settledBy_eq isKind, eligible, Bool.true_and]
      exact RewardContext.pays_iff.mpr ⟨referral, isPaid, receives⟩
    rw [left] at settled
    cases settled
  rw [isContext]
  refine VolumeIndex.upTo_map isIndex built (fun e => by split <;> rfl) (fun e _ own => ?_) instant
  refine if_neg fun settled => unpaid ?_
  rw [Deposit.settledBy_eq isKind, Bool.and_eq_true] at settled
  obtain ⟨address, isPaid, itsRecipient⟩ := RewardContext.pays_iff.mp settled.2
  rw [isReferral] at itsRecipient
  exact Option.some.inj (own.symm.trans itsRecipient) ▸ isPaid

theorem Concludes.due_after :
    after.due config = (before.due config).filter fun d => !context.pays payees d := by
  refine (concludes.stamps.due_eq config.maxDepositDate).trans ?_
  refine List.filter_congr fun d isDue => ?_
  have eligible : d.isEligible config.kind config.maxDepositDate = true :=
    (List.mem_filter.mp isDue).2
  rw [Deposit.settledBy_eq (kind_of_context concludes.isContext), eligible, Bool.true_and]

/-- Afterwards rewards are computed with other volumes and are otherwise as before. -/
theorem Concludes.context_after {volumes : VolumeIndex}
    (built : VolumeIndex.build after.deposits.values before.claimedWindows = .ok volumes) :
    distributor.context after config.kind = .ok { context with volumes } := by
  have claimed : after.claimedWindows = before.claimedWindows := by
    unfold Ledger.claimedWindows Ledger.claimedBy Ledger.claimsBy
    rw [concludes.stamps.claims]
  obtain ⟨_, -, rfl⟩ := context_eq_ok.mp concludes.isContext
  exact context_eq_ok.mpr ⟨volumes, claimed ▸ built, rfl⟩

/-- A candidate that is left has the reward that it had, or is passed over again. -/
theorem Concludes.exists_rewardsBy {volumes : VolumeIndex}
    (built : VolumeIndex.build after.deposits.values before.claimedWindows = .ok volumes)
    {rewards : List DepositReward}
    (isRewards : context.rewardsBy config.maxDepositDate before.deposits.values = .ok rewards) :
    ∃ others, RewardContext.rewardsBy { context with volumes } config.maxDepositDate
      after.deposits.values = .ok others := by
  have isKind := kind_of_context concludes.isContext
  have each := RewardContext.exists_rewardsBy_iff.mp ⟨rewards, isRewards⟩
  refine RewardContext.exists_rewardsBy_iff.mpr fun d member candidate => ?_
  rw [concludes.stamps.deposits, Table.values_mapValues] at member
  obtain ⟨e, isDeposit, rfl⟩ := List.mem_map.mp member
  by_cases settled : e.settledBy config payees = true
  · rw [if_pos settled] at candidate
    have free := (Deposit.isCandidate_iff.mp candidate).2.2.1
    rw [Deposit.windowFor_stamp, if_pos isKind] at free
    cases free
  · rw [if_neg settled] at candidate ⊢
    obtain ⟨outcome, isOutcome⟩ := each e isDeposit candidate
    refine ⟨outcome, (RewardContext.rewardOf?_eq_of_volumes fun priced => ?_).trans isOutcome⟩
    have eligible := Deposit.isEligible_iff.mpr ⟨candidate, priced⟩
    exact concludes.sameFor built (isKind ▸ eligible) (Bool.not_eq_true _ ▸ settled)

theorem Concludes.unitsOver_after {volumes : VolumeIndex}
    (built : VolumeIndex.build after.deposits.values before.claimedWindows = .ok volumes)
    (address : Address) :
    RewardContext.unitsOver { context with volumes } address (after.due config) = 0 := by
  have left : ∀ d ∈ after.due config, context.SameFor volumes d := by
    intro d member
    rw [concludes.due_after] at member
    obtain ⟨isDue, unpaid⟩ := List.mem_filter.mp member
    have eligible : d.isEligible config.kind config.maxDepositDate = true :=
      (List.mem_filter.mp isDue).2
    refine concludes.sameFor built eligible ?_
    rw [Deposit.settledBy_eq (kind_of_context concludes.isContext), eligible, Bool.true_and]
    simpa using unpaid
  rw [RewardContext.unitsOver_eq_of_volumes left, concludes.due_after]
  exact concludes.paysOut.unitsOver_unpaid address

/-- **What is left sums up to zero.**  After a window there are no totals to pay for its kind and
cutoff. -/
theorem Concludes.totals_eq_nil {paid : List RecipientTotal}
    (isPaid : distributor.totals before config = .ok paid) :
    distributor.totals after config = .ok [] := by
  obtain ⟨volumes, built⟩ := concludes.exists_volumes
  obtain ⟨same, isContext, rest⟩ := Outcome.bind_eq_ok.mp isPaid
  obtain rfl : context = same := Except.ok.inj (concludes.isContext.symm.trans isContext)
  obtain ⟨rewards, isRewards, -⟩ := Outcome.bind_eq_ok.mp rest
  obtain ⟨others, areOthers⟩ := concludes.exists_rewardsBy built isRewards
  have rewarded := RewardContext.forall₂_of_rewardsBy areOthers
  have due : (after.deposits.values.filter fun d =>
      d.isEligible context.kind config.maxDepositDate) = after.due config := by
    rw [kind_of_context isContext]
    rfl
  refine Outcome.bind_eq_ok.mpr ⟨_, concludes.context_after built, ?_⟩
  refine Outcome.bind_eq_ok.mpr ⟨others, areOthers, Totals.finish_eq_nil fun address => ?_⟩
  rw [RewardContext.value_unitsOf rewarded address]
  exact due ▸ concludes.unitsOver_after built address

end Left

/-! ## The next job -/

/-- A job that begins where there are no totals to pay fails for lack of recipients, and nothing
but the job changes. -/
theorem runJob_of_totals_eq_nil {jobId : String}
    (begins : distributor.beginJob ledger jobId = .ok (job.begun, ledger.withJob job.begun))
    (none : distributor.totals ledger job.config = .ok []) :
    distributor.runJob ledger jobId = .ok (job.unpaid, ledger.withJob job.unpaid) := by
  have none' : distributor.totals (ledger.withJob job.begun) job.begun.config = .ok [] :=
    (totals_congr rfl rfl job.config).trans none
  have build : distributor.buildWindow (ledger.withJob job.begun) job.begun =
      .error (.reward .emptyWindow) := by
    unfold buildWindow
    rw [prepare_of_totals_eq_nil none']
    rfl
  exact runJob_of_error begins build

theorem checkIndex_mono (placed : ledger.Placed) (order : earlier ≤ later)
    (usable : distributor.checkIndex ledger earlier = .ok ()) :
    distributor.checkIndex ledger later = .ok () := by
  rw [checkIndex_eq_ok, usedUp_iff placed] at usable ⊢
  rintro ⟨held, has, isHigher⟩
  exact usable ⟨held, has, Nat.le_trans order isHigher⟩

/-- After a job that is done, a job for a higher index can begin, and there is nothing to pay for
the same kind and cutoff. -/
theorem Runs.after_done (runs : distributor.Runs ledger earlier config done between)
    (keyed : ledger.Keyed) (placed : ledger.Placed) (lower : earlier < later)
    (isDone : done.status = .done) :
    between.jobsIn .inProgress = [] ∧ distributor.checkIndex between later = .ok () ∧
      distributor.totals between config = .ok [] := by
  obtain ⟨initial, -, rfl, rfl, -, usable, rfl, isBetween⟩ := runs.tries.exists_initial
  have above : distributor.checkIndex between later = .ok () := by
    have leaves := @leaves_ended distributor ledger keyed initial.begun none
    rw [isBetween]
    exact (leaves.checkIndex_iff placed lower).mpr (checkIndex_mono placed lower.le usable)
  refine ⟨runs.tries.jobs.1, above, ?_⟩
  unfold ended at isDone isBetween
  cases build : distributor.buildWindow ledger initial.begun with
  | error e =>
      rw [build] at isDone
      cases isDone
  | ok built =>
      obtain ⟨commit, written⟩ := built
      rw [build] at isBetween
      obtain ⟨prepared, committed⟩ := buildWindow_eq_ok.mp build
      obtain ⟨totals, _, _, isTotals, -⟩ := prepare_eq_ok.mp prepared
      obtain ⟨context, payees, concludes⟩ := concludes_of_commit keyed prepared committed
      rw [isBetween]
      exact (totals_congr rfl rfl _).trans (concludes.totals_eq_nil isTotals)

/-- **A window leaves nothing to pay.**  After a job that is done, a job of the same kind and cutoff
for a higher index, be it known or created then, runs next to fail for lack of recipients, and
nothing changes but the job. -/
theorem nothing_left_to_pay (keyed : ledger.Keyed) (placed : ledger.Placed)
    (lower : earlier < later) (runs : distributor.Runs ledger earlier config done between)
    (isDone : done.status = .done) :
    (∀ (jobId : String) (second : Job), between.getJob jobId = .ok second →
      second.status = .initial → second.windowIndex = later → second.config = config →
        distributor.runJob between jobId = .ok (second.unpaid, between.withJob second.unpaid)) ∧
    ∀ now jobId, config.validate now = .ok () → (∀ other ∈ between.jobs, other.jobId ≠ jobId) →
      distributor.execute now between jobId later config =
        ({ between with jobs := between.jobs ++ [(Job.new jobId later config).unpaid] },
          .ok (Job.new jobId later config).unpaid) := by
  obtain ⟨idle, usable, none⟩ := runs.after_done keyed placed lower isDone
  constructor
  · rintro jobId second found status rfl rfl
    have begins := beginJob_eq_ok.mpr ⟨second, found, status, idle, usable, rfl, rfl⟩
    exact runJob_of_totals_eq_nil begins none
  · intro now jobId past fresh
    have others : ∀ other ∈ between.jobsIn .inProgress, other.windowIndex ≠ later := by simp [idle]
    have isCreated := createJob_eq_ok.mpr ⟨past, usable, others, fresh, rfl, rfl⟩
    have ran := runJob_of_totals_eq_nil (beginJob_of_createJob isCreated idle)
      ((totals_congr rfl rfl config).trans none)
    refine execute_eq_ok.mpr ⟨_, isCreated, ran.trans ?_⟩
    exact congrArg (fun after => Except.ok (_, after)) (Ledger.withJob_append rfl fresh)

/-- In the trial the only deposit is paid for by the first job, and a second one has no
recipients. -/
theorem nothing_left_to_pay_trial : ∃ done between,
    Trial.distributor.Runs Trial.ledger 0 ⟨.epoch, .lpFee⟩ done between ∧ done.status = .done ∧
      Trial.distributor.execute .epoch between "second" 1 ⟨.epoch, .lpFee⟩ =
        ({ between with jobs := between.jobs ++ [(Job.new "second" 1 ⟨.epoch, .lpFee⟩).unpaid] },
          .ok (Job.new "second" 1 ⟨.epoch, .lpFee⟩).unpaid) := by
  have consistent : Trial.ledger.Consistent := Ledger.consistent_run Trial.operations
  obtain ⟨done, between, ran, isDone, -⟩ := Trial.exists_runJob
  have known : Trial.ledger.getJob "job" = .ok (.new "job" 0 ⟨.epoch, .lpFee⟩) := by
    decide +kernel
  have runs : Trial.distributor.Runs Trial.ledger 0 ⟨.epoch, .lpFee⟩ done between :=
    .known known rfl rfl ran
  have fresh : ∀ other ∈ between.jobs, other.jobId ≠ "second" := by
    obtain ⟨isName, -, others⟩ := jobs_of_runByWrites (runByWrites_of_runJob ran)
    have absent : ∀ job ∈ Trial.ledger.jobs, job.jobId ≠ "second" := by decide +kernel
    intro other member same
    obtain ⟨job, found⟩ := Ledger.exists_getJob_iff.mpr ⟨other, member, same⟩
    rw [others "second" (by rw [isName]; decide)] at found
    exact absent job (Ledger.mem_of_getJob found) (Ledger.jobId_of_getJob found)
  exact ⟨done, between, runs, isDone, (nothing_left_to_pay consistent.keyed consistent.placed
    Nat.zero_lt_one runs isDone).2 .epoch "second" rfl fresh⟩

end Distributor

end BridgeRewards
