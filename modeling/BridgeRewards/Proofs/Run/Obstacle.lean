import BridgeRewards.Proofs.Deposit.Legible
import BridgeRewards.Proofs.Distributor.Obstacle
import BridgeRewards.Proofs.Run.Lifecycle

/-!
# Why a job can fail

After every run under an integer cap on liquidity fees, whatever deposits keep as texts can be
read again (`readable_run`).  So a job that begins after such a run comes to an end: it is done, or
it has failed because of one of the obstacles that can stand in the way of a window
(`ends_of_run`).
-/

set_option autoImplicit false

namespace BridgeRewards

theorem Settings.isInteger_of_cap {settings : Settings} {lpFeeCap : Decimal}
    (cap : settings.cap = .ok lpFeeCap) : lpFeeCap.isInteger = true := by
  obtain ⟨-, rfl⟩ := (Decimal.parseInteger_iff "lpFeeCap").mp (Outcome.mapError_eq_ok.mp cap)
  exact Decimal.isInteger_integerOf settings.lpFeeCap

theorem Deposit.invariant_legible {lpFeeCap : Decimal} (isCap : lpFeeCap.isInteger = true) :
    Deposit.Invariant lpFeeCap Legible where
  made := legible_completed
  change change legible := change.legible isCap legible
  stamp _ _ _ _ legible := ⟨legible.price, legible.fees⟩

namespace Ledger

variable {distributor : Distributor} {lpFeeCap : Decimal} {operations : List Operation}

theorem readable_run (isCap : lpFeeCap.isInteger = true)
    (capped : ∀ operation ∈ operations, operation.Capped lpFeeCap) :
    (Ledger.empty.run operations).Readable := by
  intro d member filled
  obtain ⟨key, found⟩ := Table.mem_values.mp member
  have lawful := lawful_of_run found
  have invariant : ∀ cap, cap = lpFeeCap → Deposit.Invariant cap Deposit.Legible := by
    rintro cap rfl
    exact Deposit.invariant_legible isCap
  have legible := Deposit.Invariant.of_run invariant
    (fun operation isOperation => ⟨lpFeeCap, rfl, capped operation isOperation⟩) found
  exact ⟨lawful.fees filled, Deposit.isReadable_of_legible lawful legible filled⟩

/-- **The only ways a job can fail.**  A job that begins after a run under the cap of its settings
is done in the end, or it has failed because of one of the obstacles. -/
theorem ends_of_run {jobId : String} {job : Job} {started : Ledger}
    (cap : distributor.settings.cap = .ok lpFeeCap)
    (capped : ∀ operation ∈ operations, operation.Capped lpFeeCap)
    (begins : distributor.beginJob (Ledger.empty.run operations) jobId = .ok (job, started)) :
    ∃ ended after,
      distributor.runJob (Ledger.empty.run operations) jobId = .ok (ended, after) ∧
      (ended.status = .done ∨ ended.status = .failed ∧ ∃ e,
        distributor.buildWindow started job = .error (.reward e) ∧
        ended.error = some e.message ∧
        distributor.rules.Obstacle job.config.kind
          ((Ledger.empty.run operations).due job.config) e) := by
  have consistent := consistent_run operations
  have readable := readable_run (Settings.isInteger_of_cap cap) capped
  obtain ⟨initial, -, -, -, isFree, isJob, rfl⟩ := Distributor.beginJob_eq_ok.mp begins
  have free : (Ledger.empty.run operations).windows.find? (distributor.line, job.windowIndex) =
      none := by
    rw [isJob]
    exact Distributor.free_of_checkIndex isFree
  generalize Ledger.empty.run operations = ledger at begins consistent readable free ⊢
  cases built : distributor.buildWindow (ledger.withJob job) job with
  | ok pair =>
      obtain ⟨commit, written⟩ := pair
      obtain ⟨prepared, written, committed, -⟩ :=
        Distributor.buildWindow_withJob_eq_ok.mp built
      exact ⟨_, _, Distributor.runJob_of_commit begins prepared committed, .inl rfl⟩
  | error e =>
      obtain ⟨cause, rfl, obstacle⟩ := @Distributor.obstacle_buildWindow distributor
        (ledger.withJob job) job consistent.keyed readable free _ built
      exact ⟨_, _, Distributor.runJob_of_error begins built, .inr ⟨rfl, cause, rfl, rfl, obstacle⟩⟩

end Ledger

/-! ## A job that fails

The reward token of the trial is worth nothing on the day of the deposit. -/

namespace Trial

/-- What is done before the job is run, under the cap of the settings. -/
def worthless : List Operation :=
  [.enterToken ⟨.zero, 1, "T", 0⟩, .enterToken ⟨.zero, 10, "T", 0⟩, .enterPrice ⟨"T", ⟨0⟩, "0"⟩,
    .deliver (.ofInt (tenTo 18)) (.deposit deposit), .deliver (.ofInt (tenTo 18)) (.fill fill),
    .pricePending .zero 10, .createJob distributor .epoch "job" 0 ⟨.epoch, .lpFee⟩]

theorem beginJob_worthless : distributor.beginJob (Ledger.empty.run worthless) "job" =
    .ok (job, (Ledger.empty.run worthless).withJob job) := by
  refine Distributor.beginJob_eq_ok.mpr ⟨.new "job" 0 ⟨.epoch, .lpFee⟩, ?_, rfl, ?_, ?_, rfl, rfl⟩
  · decide +kernel
  · decide +kernel
  · decide +kernel

end Trial

namespace Ledger

/-- The job of the trial ends, and if it fails then because of an obstacle. -/
theorem ends_of_run_trial : ∃ ended after,
    Trial.distributor.runJob (Ledger.empty.run Trial.worthless) "job" = .ok (ended, after) ∧
    (ended.status = .done ∨ ended.status = .failed ∧ ∃ e,
      Trial.distributor.buildWindow ((Ledger.empty.run Trial.worthless).withJob Trial.job)
        Trial.job = .error (.reward e) ∧
      ended.error = some e.message ∧
      Trial.distributor.rules.Obstacle .lpFee
        ((Ledger.empty.run Trial.worthless).due ⟨.epoch, .lpFee⟩) e) := by
  have cap : Trial.distributor.settings.cap = .ok (.ofInt (tenTo 18)) := by
    decide +kernel
  refine ends_of_run cap (fun operation member => ?_) Trial.beginJob_worthless
  simp only [Trial.worthless, List.mem_cons, List.not_mem_nil, or_false] at member
  rcases member with rfl | rfl | rfl | rfl | rfl | rfl | rfl
  · trivial
  · trivial
  · trivial
  · rfl
  · rfl
  · trivial
  · trivial

end Ledger

end BridgeRewards
