import BridgeRewards.Proofs.Deposit.Lifecycle
import BridgeRewards.Proofs.Run.Frame
import BridgeRewards.Proofs.Run.Rows

/-!
# Deposits through runs

Once a deposit is there it stays at its key through every run.  It is lawful at any time, and what
it becomes is what it may become (`lifecycle_of_run`): one operation makes it evolve one step, and
steps in a row are one (`Deposit.Evolves.trans`).
-/

set_option autoImplicit false

namespace BridgeRewards

theorem Deposit.invariant_lawful (lpFeeCap : Decimal) : Deposit.Invariant lpFeeCap Lawful where
  made := lawful_completed
  change change lawful := change.lawful lawful
  stamp kind index _ filled lawful := lawful_stamp kind index filled lawful

namespace Ledger

variable {lpFeeCap : Decimal} {key : DepositKey} {d : Deposit}

theorem lawful_of_run {operations : List Operation}
    (found : (Ledger.empty.run operations).deposits.find? key = some d) : d.Lawful := by
  refine Deposit.Invariant.of_run (fun lpFeeCap (_ : True) => Deposit.invariant_lawful lpFeeCap)
    (fun operation _ => ?_) found
  obtain ⟨lpFeeCap, capped⟩ := operation.exists_capped
  exact ⟨lpFeeCap, trivial, capped⟩

theorem RowMove.evolves {next : Option Deposit} (lawful : d.Lawful)
    (move : RowMove lpFeeCap key (some d) next) :
    ∃ after, next = some after ∧ d.Evolves after := by
  cases move with
  | quiet step =>
      cases step with
      | same => exact ⟨d, rfl, .refl d⟩
      | change change => exact ⟨_, rfl, change.evolves lawful⟩
  | stamp index filled free => exact ⟨_, rfl, Deposit.evolves_stamp index free⟩

theorem exists_evolves_of_run (earlier later : List Operation)
    (found : (Ledger.empty.run earlier).deposits.find? key = some d) :
    ∃ after, (Ledger.empty.run (earlier ++ later)).deposits.find? key = some after ∧
      d.Evolves after := by
  induction later using List.reverseRecOn with
  | nil =>
      rw [List.append_nil]
      exact ⟨d, found, .refl d⟩
  | append_singleton more operation ih =>
      obtain ⟨between, isBetween, evolves⟩ := ih
      obtain ⟨lpFeeCap, capped⟩ := operation.exists_capped
      have consistent := consistent_run (earlier ++ more)
      have move := rowMove consistent.keyed capped key
      rw [isBetween] at move
      obtain ⟨after, isAfter, step⟩ := move.evolves (lawful_of_run isBetween)
      refine ⟨after, ?_, evolves.trans step⟩
      rw [← List.append_assoc, run_append]
      exact isAfter

/-- **The life of a deposit.**  A deposit that is there after a run stands at its key, is lawful,
and no fill waits for it; and no matter what follows, it stays there and evolves. -/
theorem lifecycle_of_run (earlier later : List Operation) {key : DepositKey} {d : Deposit}
    (found : (Ledger.empty.run earlier).deposits.find? key = some d) :
    d.key = key ∧ d.Lawful ∧ (Ledger.empty.run earlier).parkedFills.find? key = none ∧
      ∃ after, (Ledger.empty.run (earlier ++ later)).deposits.find? key = some after ∧
        d.Evolves after :=
  ⟨(consistent_run earlier).keyed key d found, lawful_of_run found,
    caughtUp_run earlier key d found, exists_evolves_of_run earlier later found⟩

/-- The deposit of the trial while it is pending, before it is filled, priced and rewarded. -/
theorem lifecycle_of_run_trial :
    (Ledger.empty.run (Trial.operations.take 4)).deposits.find? Trial.deposit.key =
      some Trial.deposit.toDeposit ∧
    Trial.deposit.toDeposit.key = Trial.deposit.key ∧ Trial.deposit.toDeposit.Lawful ∧
    (Ledger.empty.run (Trial.operations.take 4)).parkedFills.find? Trial.deposit.key = none ∧
    ∃ after, (Ledger.empty.run (Trial.operations.take 4 ++
        (Trial.operations.drop 4 ++ [.runJob Trial.distributor "job"]))).deposits.find?
          Trial.deposit.key = some after ∧ Trial.deposit.toDeposit.Evolves after := by
  have found : (Ledger.empty.run (Trial.operations.take 4)).deposits.find? Trial.deposit.key =
      some Trial.deposit.toDeposit := by
    decide +kernel
  exact ⟨found, lifecycle_of_run _ _ found⟩

end Ledger

end BridgeRewards
