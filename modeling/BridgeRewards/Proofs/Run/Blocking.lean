import BridgeRewards.Proofs.Deposit.Fill
import BridgeRewards.Proofs.Run.Frame

/-!
# Records that block a deposit

A fill that arrives before its deposit is noted and waits as it is, even if its numbers are no
integers.  When the deposit comes it has to take the fills that wait; it is blocked if there is one
among them with a number that is no integer and none before it covers the amount.  Then its record
is refused, the fills go on waiting, and so it is refused whenever it is delivered again
(`delivered_deposit_of_run`).
-/

set_option autoImplicit false

namespace BridgeRewards

namespace Ledger

variable {ledger : Ledger} {lpFeeCap : Decimal} {event : DepositEvent}

/-- Whether the fills that wait for the deposit of a record block it. -/
def blocks (ledger : Ledger) (event : DepositEvent) : Bool :=
  Deposit.blockedBy event.inputAmount (ledger.parkedFor event.key)

/-! ## Delivering a deposit -/

/-- A deposit whose amount is an integer takes the fills that wait exactly if they do not block
it. -/
theorem exists_reconcile_iff (isInput : Decimal.isIntegerText event.inputAmount = true) :
    (∃ d, ledger.reconcile lpFeeCap event = .ok d) ↔ ledger.blocks event = false :=
  Deposit.exists_fillAll_iff isInput rfl

theorem deliver_of_found (caughtUp : CaughtUp ledger) {old : Deposit}
    (unknown : ledger.hasEvent (Event.deposit event).key = false)
    (found : ledger.deposits.find? event.key = some old) :
    (ledger.deliver lpFeeCap (.deposit event)).2 = .ok .duplicate := by
  have received : ledger.receive lpFeeCap (.deposit event) = _ :=
    caughtUp.receiveDeposit_of_found found
  rw [deliver_of_receive unknown received]

theorem deliver_of_absent (isInput : Decimal.isIntegerText event.inputAmount = true)
    (unknown : ledger.hasEvent (Event.deposit event).key = false)
    (absent : ledger.deposits.find? event.key = none) :
    if ledger.blocks event
      then ∃ e, (ledger.deliver lpFeeCap (.deposit event)).2 = .error e
      else (ledger.deliver lpFeeCap (.deposit event)).2 = .ok .applied := by
  cases settled : ledger.reconcile lpFeeCap event with
  | error e =>
      have blocked : ledger.blocks event = true := by
        by_contra free
        obtain ⟨d, isOk⟩ := (exists_reconcile_iff isInput).mpr (Bool.eq_false_iff.mpr free)
        rw [settled] at isOk
        cases isOk
      rw [if_pos blocked, deliver_of_refused unknown (receiveDeposit_of_error settled)]
      exact ⟨e, rfl⟩
  | ok d =>
      have free := (exists_reconcile_iff isInput).mp ⟨d, settled⟩
      have received := receiveDeposit_of_ok settled
      rw [absent, if_neg (by simp)] at received
      rw [if_neg (Bool.eq_false_iff.mp free), deliver_of_receive unknown received]

/-! ## Operations -/

theorem stillWaiting_after (keyed : ledger.Keyed) (operation : Operation) {key : DepositKey}
    (absent : (ledger.after operation).deposits.find? key = none) :
    StillWaiting key ledger (ledger.after operation) := by
  rcases delivers_or_follows keyed operation with ⟨lpFeeCap, event, rfl⟩ | ⟨-, follows⟩
  · exact stillWaiting_deliver lpFeeCap event absent
  · obtain ⟨f, tokens, prices, windows, recipients, jobs, after⟩ := follows
    rw [after] at absent ⊢
    rw [Table.find?_mapValues, Option.map_eq_none_iff] at absent
    exact .of_eq absent rfl

/-- As long as there is no deposit at a key, the fills that wait there go on waiting. -/
theorem stillWaiting_run (consistent : Consistent ledger) (operations : List Operation)
    {key : DepositKey} (absent : (ledger.run operations).deposits.find? key = none) :
    StillWaiting key ledger (ledger.run operations) := by
  induction operations generalizing ledger with
  | nil => exact .of_eq absent rfl
  | cons operation rest ih =>
      have later := ih (consistent.step operation) absent
      exact (stillWaiting_after consistent.keyed operation later.absent).trans later

/-- **What becomes of the record of a deposit** with an amount that is an integer, after every run
and if it is not noted: it is a duplicate if there is such a deposit already; otherwise it is
applied, unless fills that wait block it, and then it is refused for good, as long as no other
record makes the deposit. -/
theorem delivered_deposit_of_run (operations : List Operation) (lpFeeCap : Decimal)
    (event : DepositEvent) (isInput : Decimal.isIntegerText event.inputAmount = true)
    (unknown : (Ledger.empty.run operations).hasEvent (Event.deposit event).key = false) :
    let ledger := Ledger.empty.run operations
    (∀ old, ledger.deposits.find? event.key = some old →
      (ledger.deliver lpFeeCap (.deposit event)).2 = .ok .duplicate) ∧
    (ledger.deposits.find? event.key = none → ledger.blocks event = false →
      (ledger.deliver lpFeeCap (.deposit event)).2 = .ok .applied) ∧
    (ledger.deposits.find? event.key = none → ledger.blocks event = true →
      ∀ later cap, (ledger.run later).deposits.find? event.key = none →
        (ledger.run later).hasEvent (Event.deposit event).key = false →
        ∃ e, ((ledger.run later).deliver cap (.deposit event)).2 = .error e) := by
  intro ledger
  have consistent : ledger.Consistent := consistent_run operations
  refine ⟨fun old found => deliver_of_found (caughtUp_run operations) unknown found,
    fun absent free => ?_, fun absent blocked later cap stillAbsent stillUnknown => ?_⟩
  · have delivered := @deliver_of_absent ledger lpFeeCap event isInput unknown absent
    rwa [if_neg (Bool.eq_false_iff.mp free)] at delivered
  · have still : (ledger.run later).blocks event = true :=
      Deposit.blockedBy_of_grown (stillWaiting_run consistent later stillAbsent).grown blocked
    have delivered := @deliver_of_absent (ledger.run later) cap event isInput stillUnknown
      stillAbsent
    rwa [if_pos still] at delivered

end Ledger

/-! ## A deposit that is blocked

The fill of the trial comes before its deposit, once with percentages that are no numbers. -/

namespace Trial

/-- The fill with a percentage that is no number. -/
def garbled : FillEvent := { fill with realizedLpFeePct := "oops" }

end Trial

namespace Ledger

/-- After the garbled fill the deposit is refused for good, and after the other one it is
applied. -/
theorem delivered_deposit_of_run_trial :
    (∀ later cap,
      ((Ledger.empty.run [.deliver (.powerOfTen 18) (.fill Trial.garbled)]).run
        later).deposits.find? ⟨1, 7⟩ = none →
      ((Ledger.empty.run [.deliver (.powerOfTen 18) (.fill Trial.garbled)]).run
        later).hasEvent (Event.deposit Trial.deposit).key = false →
      ∃ e, (((Ledger.empty.run [.deliver (.powerOfTen 18) (.fill Trial.garbled)]).run
        later).deliver cap (.deposit Trial.deposit)).2 = .error e) ∧
    ((Ledger.empty.run [.deliver (.powerOfTen 18) (.fill Trial.fill)]).deliver (.powerOfTen 18)
      (.deposit Trial.deposit)).2 = .ok .applied := by
  have isInput : Decimal.isIntegerText Trial.deposit.inputAmount = true := by decide +kernel
  obtain ⟨-, -, refused⟩ := delivered_deposit_of_run
    [.deliver (.powerOfTen 18) (.fill Trial.garbled)] (.powerOfTen 18) Trial.deposit isInput
    (by decide +kernel)
  obtain ⟨-, applied, -⟩ := delivered_deposit_of_run
    [.deliver (.powerOfTen 18) (.fill Trial.fill)] (.powerOfTen 18) Trial.deposit isInput
    (by decide +kernel)
  exact ⟨refused (by decide +kernel) (by decide +kernel),
    applied (by decide +kernel) (by decide +kernel)⟩

/-- Not every record of a deposit with an amount that is an integer can be delivered: a fill that
came before it can stand in its way. -/
theorem blocked_by_waiting_fill :
    ¬ ∀ (lpFeeCap : Decimal) (events : List Event) (event : DepositEvent),
      Decimal.isIntegerText event.inputAmount = true →
      (Ledger.empty.run (events.map (.deliver lpFeeCap))).hasEvent (Event.deposit event).key =
        false →
      ((Ledger.empty.run (events.map (.deliver lpFeeCap))).deliver lpFeeCap (.deposit event)).2 =
          .ok .applied ∨
        ((Ledger.empty.run (events.map (.deliver lpFeeCap))).deliver lpFeeCap
          (.deposit event)).2 = .ok .duplicate := by
  intro delivered
  have garbled := delivered (.powerOfTen 18) [.fill Trial.garbled] Trial.deposit
    (by decide +kernel) (by decide +kernel)
  revert garbled
  decide +kernel

end Ledger

end BridgeRewards
