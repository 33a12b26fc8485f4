import BridgeRewards.Proofs.Distributor.Earnings
import BridgeRewards.Proofs.Reward.Index
import BridgeRewards.Proofs.Run.Jobs

/-!
# Claimed windows no longer count

A claim is never lost (`hasClaimed_run`).  So once a referrer has claimed from a window, the
deposits of the referrer that are assigned to it as referrals are left out of what any later run
of a job finds the referrer to have brought; all others count, each once
(`exists_counting_of_context`).
-/

set_option autoImplicit false

namespace BridgeRewards

namespace Ledger

variable {ledger : Ledger} {referral : Address} {instant : Instant}

theorem hasClaimed_run (operations : List Operation) {index : Nat}
    (claimed : ledger.hasClaimed referral index = true) :
    (ledger.run operations).hasClaimed referral index = true := by
  obtain ⟨key, claim, found, same, isIndex⟩ := hasClaimed_iff.mp claimed
  have kept : (ledger.run operations).claims.Extends ledger.claims :=
    run_induction (fun _ => True) (·.claims.Extends ledger.claims)
      (fun before operation _ extended => by
        obtain ⟨line, onLine⟩ := operation.exists_onLine
        have steps : JobSteps line before (before.after operation) := steps_of_operation onLine
        exact extended.trans steps.claims)
      (.refl _) (fun _ _ => trivial)
  exact hasClaimed_iff.mpr ⟨key, claim, kept key claim found, same, isIndex⟩

/-- A deposit counts for a referrer up to an instant: it is filled, priced, made no later, and not
assigned to a referral window that the referrer has claimed from. -/
structure Counts (ledger : Ledger) (referral : Address) (instant : Instant) (d : Deposit) :
    Prop where
  known : d ∈ ledger.deposits.values
  referred : d.referredBy referral = true
  filled : d.isFilled = true
  priced : d.isPriced = true
  early : d.madeBy instant = true
  unclaimed : ∀ index, d.windowFor .referral = some index →
    ledger.hasClaimed referral index = false

theorem notPaidOut_claimedBy {d : Deposit} :
    d.notPaidOut (ledger.claimedBy referral) = true ↔
      ∀ index, d.windowFor .referral = some index →
        ledger.hasClaimed referral index = false := by
  unfold Deposit.notPaidOut hasClaimed
  cases d.windowFor .referral <;> simp

theorem mem_counting (sound : ledger.Sound) {d : Deposit} :
    d ∈ VolumeIndex.counting ledger.deposits.values ledger.claimedWindows referral instant ↔
      ledger.Counts referral instant d := by
  unfold VolumeIndex.counting
  rw [List.mem_filter, ledger.of_claimedWindows]
  constructor
  · rintro ⟨member, counts⟩
    rw [Deposit.countsFor_and_charged (sound.of_mem_values member)] at counts
    simp only [Deposit.countsFor, Bool.and_eq_true, notPaidOut_claimedBy] at counts
    obtain ⟨⟨⟨⟨referred, filled⟩, priced⟩, unclaimed⟩, early⟩ := counts
    exact ⟨member, referred, filled, priced, early, unclaimed⟩
  · rintro ⟨member, referred, filled, priced, early, unclaimed⟩
    refine ⟨member, ?_⟩
    rw [Deposit.countsFor_and_charged (sound.of_mem_values member)]
    simp only [Deposit.countsFor, Bool.and_eq_true, notPaidOut_claimedBy]
    exact ⟨⟨⟨⟨referred, filled⟩, priced⟩, unclaimed⟩, early⟩

/-- In a context the deposits that count are counted, each of them once. -/
theorem exists_counting_of_context (consistent : Consistent ledger) {distributor : Distributor}
    {kind : RewardType} {context : RewardContext}
    (isContext : distributor.context ledger kind = .ok context) (referral : Address)
    (instant : Instant) :
    ∃ counting : List Deposit, counting.Nodup ∧
      (∀ d, d ∈ counting ↔ ledger.Counts referral instant d) ∧
      (context.volumes.upTo referral instant).SumsUp counting := by
  obtain ⟨volumes, built, rfl⟩ := Distributor.context_eq_ok.mp isContext
  refine ⟨VolumeIndex.counting ledger.deposits.values ledger.claimedWindows referral instant,
    ?_, fun d => mem_counting consistent.sound, VolumeIndex.answers_of_build built _ _⟩
  exact (List.Nodup.of_map _ consistent.keyed.nodup_key).filter _

/-- **What is paid out and claimed no longer counts.**  Once a referrer has claimed from a window,
this stays so; and whenever a job begins later, the context from which its rewards are computed
counts each deposit of the referrer that is filled, priced and made by the instant in question
once, except for those that are assigned to a referral window that the referrer has claimed from,
so none that is assigned to this window. -/
theorem claimed_of_run (operations more : List Operation) {referral : Address} {index : Nat}
    (claimed : (Ledger.empty.run operations).hasClaimed referral index = true) :
    (Ledger.empty.run (operations ++ more)).hasClaimed referral index = true ∧
      ∀ (distributor : Distributor) (jobId : String) (job : Job) (started : Ledger)
        (context : RewardContext),
        distributor.beginJob (Ledger.empty.run (operations ++ more)) jobId = .ok (job, started) →
        distributor.context started job.config.kind = .ok context →
        ∀ instant, ∃ counting : List Deposit, counting.Nodup ∧
          (∀ d, d ∈ counting ↔
            (Ledger.empty.run (operations ++ more)).Counts referral instant d) ∧
          (∀ d ∈ counting, d.windowFor .referral ≠ some index) ∧
          (context.volumes.upTo referral instant).SumsUp counting := by
  have consistent := consistent_run (operations ++ more)
  have still : (Ledger.empty.run (operations ++ more)).hasClaimed referral index = true := by
    rw [run_append]
    exact hasClaimed_run more claimed
  generalize Ledger.empty.run (operations ++ more) = later at consistent still ⊢
  refine ⟨still, fun distributor jobId job started context begins isContext instant => ?_⟩
  obtain ⟨-, -, rfl⟩ := Distributor.begun_of_beginJob begins
  obtain ⟨counting, distinct, members, sumsUp⟩ := exists_counting_of_context consistent
    (show distributor.context later job.config.kind = .ok context from isContext) referral instant
  refine ⟨counting, distinct, members, fun d isCounted paid => ?_, sumsUp⟩
  have unclaimed := ((members d).mp isCounted).unclaimed index paid
  rw [still] at unclaimed
  cases unclaimed

end Ledger

/-! ## A run with a claim

A referrer claims from a window; later a deposit of the referrer is made, filled and priced, and a
job for referral rewards is created. -/

namespace Trial

/-- The claim. -/
def claim : ClaimEvent where
  eventMeta := writtenAt 2
  windowIndex := 3
  accountIndex := 0
  caller := .zero
  account := .zero
  rewardToken := .zero
  amount := "1"

/-- What is done up to the claim. -/
def claiming : List Operation := [.deliver (.powerOfTen 18) (.claim claim)]

/-- What is done afterwards. -/
def referring : List Operation :=
  [.enterToken ⟨.zero, 1, "T", 0⟩, .enterToken ⟨.zero, 10, "T", 0⟩, .enterPrice ⟨"T", ⟨0⟩, "1"⟩,
    .deliver (.powerOfTen 18) (.deposit { deposit with referralAddress := some .zero }),
    .deliver (.powerOfTen 18) (.fill fill), .pricePending .zero 10,
    .createJob distributor .epoch "job" 0 ⟨.epoch, .referral⟩]

theorem exists_context : ∃ job started context,
    distributor.beginJob (Ledger.empty.run (claiming ++ referring)) "job" = .ok (job, started) ∧
      distributor.context started job.config.kind = .ok context := by
  have check : (match distributor.beginJob (Ledger.empty.run (claiming ++ referring)) "job" with
      | .ok (job, started) => (distributor.context started job.config.kind).toOption.isSome
      | .error _ => false) = true := by decide +kernel
  split at check
  · next job started begins =>
      cases isContext : distributor.context started job.config.kind with
      | ok context => exact ⟨job, started, context, begins, isContext⟩
      | error e =>
          rw [isContext] at check
          cases check
  · cases check

end Trial

namespace Ledger

/-- The claim keeps its window out of the volume, and the later deposit counts. -/
theorem claimed_of_run_trial :
    (Ledger.empty.run Trial.claiming).hasClaimed .zero 3 = true ∧
      ∃ job started context,
        Trial.distributor.beginJob (Ledger.empty.run (Trial.claiming ++ Trial.referring)) "job" =
            .ok (job, started) ∧
          Trial.distributor.context started job.config.kind = .ok context ∧
          ∃ counting : List Deposit, counting.Nodup ∧
            (∀ d, d ∈ counting ↔ (Ledger.empty.run (Trial.claiming ++ Trial.referring)).Counts
              .zero .epoch d) ∧
            (∀ d ∈ counting, d.windowFor .referral ≠ some 3) ∧
            (context.volumes.upTo .zero .epoch).SumsUp counting := by
  have claimed : (Ledger.empty.run Trial.claiming).hasClaimed .zero 3 = true := by decide +kernel
  obtain ⟨job, started, context, begins, isContext⟩ := Trial.exists_context
  exact ⟨claimed, job, started, context, begins, isContext,
    (claimed_of_run Trial.claiming Trial.referring claimed).2 _ _ _ _ _ begins isContext .epoch⟩

end Ledger

end BridgeRewards
