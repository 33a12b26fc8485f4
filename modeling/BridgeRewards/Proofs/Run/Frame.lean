import BridgeRewards.Proofs.Ledger.Parking
import BridgeRewards.Proofs.Run.Consistent

/-!
# What deliveries alone can do

Apart from deliveries an operation neither makes nor removes a deposit, and it leaves alone
everything that is told of by records (`follows_after`).  So deposits are made by deliveries
only, and after every run no fill waits for a deposit that is there (`caughtUp_run`).
-/

set_option autoImplicit false

namespace BridgeRewards

/-- Whether an operation delivers a record. -/
def Operation.isDelivery : Operation → Bool
  | deliver _ _ => true
  | _ => false

namespace Ledger

variable {ledger : Ledger}

/-- One ledger follows from another without a delivery. -/
def Follows (ledger after : Ledger) : Prop :=
  ∃ (f : Deposit → Deposit) (tokens : Table (Address × Nat) Token)
    (prices : Table (String × Date) MarketPrice) (windows : Table (Line × Nat) Window)
    (recipients : Table (Line × Nat) (List Recipient)) (jobs : List Job),
    after = { ledger with
      deposits := ledger.deposits.mapValues f, tokens, prices, windows, recipients, jobs }

theorem follows_of_tables (ledger : Ledger) (tokens : Table (Address × Nat) Token)
    (prices : Table (String × Date) MarketPrice) (jobs : List Job) :
    Follows ledger { ledger with tokens, prices, jobs } :=
  ⟨id, tokens, prices, ledger.windows, ledger.recipients, jobs, by rw [Table.mapValues_id]⟩

theorem Follows.refl (ledger : Ledger) : Follows ledger ledger :=
  follows_of_tables ledger ledger.tokens ledger.prices ledger.jobs

theorem Follows.jobs {after : Ledger} (follows : Follows ledger after) (jobs : List Job) :
    Follows ledger { after with jobs } := by
  obtain ⟨f, tokens, prices, windows, recipients, _, rfl⟩ := follows
  exact ⟨f, tokens, prices, windows, recipients, jobs, rfl⟩

theorem follows_of_commit (keyed : ledger.Keyed) {commit : WindowCommit} {written : Ledger}
    (committed : ledger.commit commit = .ok written) : Follows ledger written := by
  have equal := eq_of_commit committed
  rw [deposits_of_commit keyed committed] at equal
  exact ⟨_, ledger.tokens, ledger.prices, written.windows, written.recipients, ledger.jobs, equal⟩

/-- **What operations other than deliveries change**: the deposits, each on its own, and tokens,
prices, windows and jobs; nothing that is told of by records. -/
theorem follows_after (keyed : ledger.Keyed) {operation : Operation}
    (other : operation.isDelivery = false) : Follows ledger (ledger.after operation) := by
  have operates := ledger.operates operation
  generalize ledger.after operation = after at operates ⊢
  cases operates with
  | unchanged => exact .refl ledger
  | token => exact follows_of_tables ledger _ ledger.prices ledger.jobs
  | price => exact follows_of_tables ledger ledger.tokens _ ledger.jobs
  | delivered => cases other
  | priced =>
      exact ⟨_, ledger.tokens, ledger.prices, ledger.windows, ledger.recipients, ledger.jobs, rfl⟩
  | created fresh => exact (Follows.refl ledger).jobs _
  | begun begins => exact (Follows.refl ledger).jobs _
  | unbuilt begins => exact (Follows.refl ledger).jobs _
  | built begins prepared committed => exact (follows_of_commit keyed committed).jobs _
  | finished begins prepared committed => exact (follows_of_commit keyed committed).jobs _
  | abandoned begins reason => exact (Follows.refl ledger).jobs _
  | recovered recovered =>
      obtain ⟨-, -, -, -, rfl⟩ := Distributor.recoverJob_eq_ok.mp recovered
      exact (Follows.refl ledger).jobs _

/-- An operation delivers a record, or it changes nothing that is told of by records. -/
theorem delivers_or_follows (keyed : ledger.Keyed) (operation : Operation) :
    (∃ lpFeeCap event, operation = .deliver lpFeeCap event) ∨
      operation.isDelivery = false ∧ Follows ledger (ledger.after operation) := by
  cases isDelivery : operation.isDelivery with
  | false => exact .inr ⟨rfl, follows_after keyed isDelivery⟩
  | true =>
      cases operation with
      | deliver lpFeeCap event => exact .inl ⟨lpFeeCap, event, rfl⟩
      | _ => cases isDelivery

/-! ## Fills that wait -/

theorem CaughtUp.follows {after : Ledger} (caughtUp : CaughtUp ledger)
    (follows : Follows ledger after) : CaughtUp after := by
  obtain ⟨f, tokens, prices, windows, recipients, jobs, rfl⟩ := follows
  refine caughtUp.of_eq (fun key => ?_) rfl
  rw [Table.find?_mapValues, Option.map_eq_none_iff]

theorem CaughtUp.step (caughtUp : CaughtUp ledger) (keyed : ledger.Keyed) (operation : Operation) :
    CaughtUp (ledger.after operation) := by
  rcases delivers_or_follows keyed operation with ⟨lpFeeCap, event, rfl⟩ | ⟨-, follows⟩
  · exact caughtUp.deliver keyed lpFeeCap event
  · exact caughtUp.follows follows

/-- **After every run no fill waits for a deposit that is there.** -/
theorem caughtUp_run (operations : List Operation) : CaughtUp (Ledger.empty.run operations) := by
  have both := run_induction (fun _ => True) (fun ledger => Consistent ledger ∧ CaughtUp ledger)
    (fun ledger operation _ start =>
      ⟨start.1.step operation, start.2.step start.1.keyed operation⟩)
    ⟨consistent_empty, caughtUp_empty⟩ (fun operation (_ : operation ∈ operations) => trivial)
  exact both.2

end Ledger

end BridgeRewards
