import BridgeRewards.Proofs.Run.Consistent

/-!
# What one operation does with one deposit

An operation makes a deposit, changes it, assigns a window to it, or leaves it as it is
(`Ledger.rowMove`).  So what is true of every deposit that is made, and is kept by changes and by
windows, is true of every deposit after every run (`Deposit.Invariant.of_run`).
-/

set_option autoImplicit false

namespace BridgeRewards

/-- What is true of a deposit that is made, and is kept by every change under a cap on liquidity
fees and by every window that is assigned. -/
structure Deposit.Invariant (lpFeeCap : Decimal) (P : Deposit → Prop) : Prop where
  made : ∀ (ledger : Ledger) (event : DepositEvent), P (ledger.completed event)
  change : ∀ {d after : Deposit}, Deposit.Change lpFeeCap d after → P d → P after
  stamp : ∀ (kind : RewardType) (index : Nat) {d : Deposit}, d.isFilled = true → P d →
    P (d.stamp kind index)

namespace Ledger

variable {ledger : Ledger} {lpFeeCap : Decimal} {operation : Operation} {key : DepositKey}
  {row next : Option Deposit}

/-- What becomes of the place of a deposit in an operation. -/
inductive RowMove (lpFeeCap : Decimal) (key : DepositKey) :
    Option Deposit → Option Deposit → Prop
  | quiet {row next : Option Deposit} (step : RowStep lpFeeCap key row next) :
      RowMove lpFeeCap key row next
  | stamp {d : Deposit} {kind : RewardType} (index : Nat) (filled : d.isFilled = true)
      (free : d.windowFor kind = none) :
      RowMove lpFeeCap key (some d) (some (d.stamp kind index))

theorem rowMove_of_commit {commit : WindowCommit} {written : Ledger} (keyed : ledger.Keyed)
    (committed : ledger.commit commit = .ok written) (key : DepositKey) :
    RowMove lpFeeCap key (ledger.deposits.find? key) (written.deposits.find? key) := by
  rw [find?_deposits_of_commit keyed committed]
  cases found : ledger.deposits.find? key with
  | none => exact .quiet .same
  | some d =>
      rw [Option.map_some]
      by_cases named : key ∈ commit.deposits
      · obtain ⟨same, isSame, filled, free⟩ := exists_of_mem_deposits committed named
        obtain rfl : same = d := Option.some.inj (isSame.symm.trans found)
        rw [if_pos named]
        exact .stamp commit.window.windowIndex filled free
      · rw [if_neg named]
        exact .quiet .same

/-- **What one operation does with one deposit.** -/
theorem rowMove (keyed : ledger.Keyed) (capped : operation.Capped lpFeeCap) (key : DepositKey) :
    RowMove lpFeeCap key (ledger.deposits.find? key)
      ((ledger.after operation).deposits.find? key) := by
  obtain ⟨line, onLine⟩ := operation.exists_onLine
  rcases quiet_or_commits keyed onLine capped with quiet | commits
  · exact .quiet (quiet.deposits key)
  · obtain ⟨distributor, job, commit, written, -, -, -, committed, deposits, -, -⟩ := commits
    rw [deposits]
    exact rowMove_of_commit keyed committed key

theorem RowMove.keeps {P : Deposit → Prop} (invariant : Deposit.Invariant lpFeeCap P)
    (move : RowMove lpFeeCap key row next) (start : ∀ d, row = some d → P d) {d : Deposit}
    (found : next = some d) : P d := by
  cases move with
  | quiet step =>
      cases step with
      | same => exact start d found
      | change change =>
          obtain rfl := Option.some.inj found
          exact invariant.change change (start _ rfl)
      | insert atKey settled =>
          obtain rfl := Option.some.inj found
          exact Deposit.fillAll_induction invariant.change settled (invariant.made _ _)
  | stamp index filled free =>
      obtain rfl := Option.some.inj found
      exact invariant.stamp _ index filled (start _ rfl)

end Ledger

/-- **What is true of every deposit.**  A property that deposits have when they are made, and that
changes and windows keep, is one of every deposit after every run. -/
theorem Deposit.Invariant.of_run {P : Deposit → Prop} {allowed : Decimal → Prop}
    (invariant : ∀ lpFeeCap, allowed lpFeeCap → Deposit.Invariant lpFeeCap P)
    {operations : List Operation}
    (capped : ∀ operation ∈ operations, ∃ lpFeeCap, allowed lpFeeCap ∧ operation.Capped lpFeeCap)
    {key : DepositKey} {d : Deposit}
    (found : (Ledger.empty.run operations).deposits.find? key = some d) : P d := by
  have both := Ledger.run_induction
    (fun operation => ∃ lpFeeCap, allowed lpFeeCap ∧ operation.Capped lpFeeCap)
    (fun ledger => ledger.Consistent ∧ ∀ key d, ledger.deposits.find? key = some d → P d)
    (fun ledger operation isCapped start => ?_) ⟨Ledger.consistent_empty, ?_⟩ capped
  · exact both.2 key d found
  · obtain ⟨lpFeeCap, isAllowed, isCapped⟩ := isCapped
    refine ⟨start.1.step operation, fun key d found => ?_⟩
    exact (Ledger.rowMove start.1.keyed isCapped key).keeps (invariant lpFeeCap isAllowed)
      (start.2 key) found
  · intro key d found
    cases found

end BridgeRewards
