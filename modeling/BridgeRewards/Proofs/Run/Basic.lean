import BridgeRewards.Distributor.Jobs
import BridgeRewards.Ledger.Delivery
import BridgeRewards.Ledger.Pricing

/-!
# Runs

Tokens and prices are entered, records delivered, deposits priced, and jobs created, run and
recovered, in any order.  An operation that fails leaves the ledger as it was, except that the
delivery of a record may leave traces when the record is refused; and a run of a job may be cut
off after it put the job in progress, or after it wrote the window.
-/

set_option autoImplicit false

namespace BridgeRewards

/-- What can be done with a ledger. -/
inductive Operation
  | enterToken (token : Token)
  | enterPrice (price : MarketPrice)
  | deliver (lpFeeCap : Decimal) (event : Event)
  | pricePending (rewardToken : Address) (rewardChainId : Nat)
  | createJob (distributor : Distributor) (now : Instant) (jobId : String) (index : Nat)
      (config : JobConfig)
  | runJob (distributor : Distributor) (jobId : String)
  /-- A run that is cut off once its job is in progress. -/
  | runToStart (distributor : Distributor) (jobId : String)
  /-- A run that is cut off once its window is written. -/
  | runToWindow (distributor : Distributor) (jobId : String)
  | recoverJob (distributor : Distributor) (jobId reason : String)

namespace Operation

/-- Whether an operation, if it is one on jobs, is made by a distributor of a line. -/
def OnLine (line : Line) : Operation → Prop
  | createJob distributor _ _ _ _ => distributor.line = line
  | runJob distributor _ => distributor.line = line
  | runToStart distributor _ => distributor.line = line
  | runToWindow distributor _ => distributor.line = line
  | recoverJob distributor _ _ => distributor.line = line
  | _ => True

instance (line : Line) (operation : Operation) : Decidable (operation.OnLine line) := by
  cases operation <;> unfold OnLine <;> infer_instance

theorem exists_onLine (operation : Operation) : ∃ line, operation.OnLine line := by
  cases operation with
  | createJob distributor _ _ _ _ => exact ⟨distributor.line, rfl⟩
  | runJob distributor _ => exact ⟨distributor.line, rfl⟩
  | runToStart distributor _ => exact ⟨distributor.line, rfl⟩
  | runToWindow distributor _ => exact ⟨distributor.line, rfl⟩
  | recoverJob distributor _ _ => exact ⟨distributor.line, rfl⟩
  | _ => exact ⟨⟨0, .zero⟩, trivial⟩

/-- Whether an operation, if it delivers a record, does so under a cap on liquidity fees. -/
def Capped (lpFeeCap : Decimal) : Operation → Prop
  | deliver cap _ => cap = lpFeeCap
  | _ => True

theorem exists_capped (operation : Operation) : ∃ lpFeeCap, operation.Capped lpFeeCap := by
  cases operation with
  | deliver cap event => exact ⟨cap, rfl⟩
  | _ => exact ⟨0, trivial⟩

end Operation

namespace Ledger

/-- The ledger that an operation leads to, or the one before it if it fails. -/
def orUnchanged {ε α : Type} (ledger : Ledger) (outcome : Except ε (α × Ledger)) : Ledger :=
  match outcome with
  | .ok (_, after) => after
  | .error _ => ledger

/-- An operation that fails keeps what one that succeeds keeps. -/
theorem of_orUnchanged {ε α : Type} {P : Ledger → Prop} {ledger : Ledger}
    {outcome : Except ε (α × Ledger)} (start : P ledger)
    (all : ∀ result after, outcome = .ok (result, after) → P after) :
    P (ledger.orUnchanged outcome) := by
  cases outcome with
  | error e => exact start
  | ok pair => exact all pair.1 pair.2 rfl

/-- The ledger once the window of a job in progress is written, if it can be. -/
def withWindow (distributor : Distributor) (started : Job × Ledger) : Ledger :=
  started.2.orUnchanged (distributor.buildWindow started.2 started.1)

/-- The ledger after an operation. -/
def after (ledger : Ledger) : Operation → Ledger
  | .enterToken token => ledger.putToken token
  | .enterPrice price => (ledger.insertPrice price).getD ledger
  | .deliver lpFeeCap event => (ledger.deliver lpFeeCap event).1
  | .pricePending rewardToken rewardChainId => (ledger.pricePending rewardToken rewardChainId).1
  | .createJob distributor now jobId index config =>
    ledger.orUnchanged (distributor.createJob now ledger jobId index config)
  | .runJob distributor jobId => ledger.orUnchanged (distributor.runJob ledger jobId)
  | .runToStart distributor jobId => ledger.orUnchanged (distributor.beginJob ledger jobId)
  | .runToWindow distributor jobId =>
    match distributor.beginJob ledger jobId with
    | .ok started => withWindow distributor started
    | .error _ => ledger
  | .recoverJob distributor jobId reason =>
    ledger.orUnchanged (distributor.recoverJob ledger jobId reason)

/-- The ledger after some operations in order. -/
def run (ledger : Ledger) (operations : List Operation) : Ledger := operations.foldl after ledger

theorem run_append (ledger : Ledger) (earlier later : List Operation) :
    ledger.run (earlier ++ later) = (ledger.run earlier).run later :=
  List.foldl_append

/-- What holds before a run and is kept by each of its operations holds after it. -/
theorem run_induction (allowed : Operation → Prop) (invariant : Ledger → Prop)
    (step : ∀ ledger operation, allowed operation → invariant ledger →
      invariant (ledger.after operation))
    {ledger : Ledger} (start : invariant ledger) {operations : List Operation}
    (all : ∀ operation ∈ operations, allowed operation) : invariant (ledger.run operations) := by
  induction operations generalizing ledger with
  | nil => exact start
  | cons operation rest ih =>
      refine ih (step ledger operation (all operation List.mem_cons_self) start) ?_
      exact fun later isLater => all later (List.mem_cons_of_mem _ isLater)

end Ledger

end BridgeRewards
