import BridgeRewards.Proofs.Distributor.Jobs
import BridgeRewards.Proofs.Ledger.Delivery
import BridgeRewards.Proofs.Run.Basic

/-!
# What one operation does

What can come of an operation is one of a few things (`Ledger.Operates`).  As far as deposits,
windows and recipients go there are two kinds of operations.  Most leave all windows alone, and
with each deposit they do one of three things: nothing, a change outside windows, or its insertion
(`Ledger.Quiet`).  A run that writes a window commits what its distributor prepared from the
ledger before the run (`Ledger.Commits`).  Every operation is of one of these two kinds
(`Ledger.quiet_or_commits`), so an invariant has to be checked for them only.
-/

set_option autoImplicit false

namespace BridgeRewards.Ledger

variable {ledger : Ledger} {lpFeeCap : Decimal}

/-! ## What operations lead to -/

/-- What can come of an operation. -/
inductive Operates (ledger : Ledger) : Operation → Ledger → Prop
  /-- An operation that fails changes nothing, nor does a price that is known already. -/
  | unchanged {operation : Operation} : Operates ledger operation ledger
  | token {token : Token} : Operates ledger (.enterToken token) (ledger.putToken token)
  | price {price : MarketPrice} :
      Operates ledger (.enterPrice price) { ledger with
        prices := ledger.prices.insert (Text.upperAscii price.symbol, price.date) price }
  | delivered {lpFeeCap : Decimal} {event : Event} :
      Operates ledger (.deliver lpFeeCap event) (ledger.deliver lpFeeCap event).1
  | priced {rewardToken : Address} {rewardChainId : Nat} :
      Operates ledger (.pricePending rewardToken rewardChainId)
        (ledger.pricePending rewardToken rewardChainId).1
  | created {distributor : Distributor} {now : Instant} {jobId : String} {index : Nat}
      {config : JobConfig} (fresh : ∀ other ∈ ledger.jobs, other.jobId ≠ jobId) :
      Operates ledger (.createJob distributor now jobId index config)
        { ledger with jobs := ledger.jobs ++ [.new jobId index config] }
  | begun {distributor : Distributor} {jobId : String} {job : Job}
      (begins : distributor.beginJob ledger jobId = .ok (job, ledger.withJob job)) :
      Operates ledger (.runToStart distributor jobId) (ledger.withJob job)
  /-- A window cannot be built for a job that has begun. -/
  | unbuilt {distributor : Distributor} {jobId : String} {job : Job}
      (begins : distributor.beginJob ledger jobId = .ok (job, ledger.withJob job)) :
      Operates ledger (.runToWindow distributor jobId) (ledger.withJob job)
  | built {distributor : Distributor} {jobId : String} {job : Job} {commit : WindowCommit}
      {written : Ledger}
      (begins : distributor.beginJob ledger jobId = .ok (job, ledger.withJob job))
      (prepared : distributor.prepare ledger job = .ok commit)
      (committed : ledger.commit commit = .ok written) :
      Operates ledger (.runToWindow distributor jobId) (written.withJob job)
  | finished {distributor : Distributor} {jobId : String} {job : Job} {commit : WindowCommit}
      {written : Ledger}
      (begins : distributor.beginJob ledger jobId = .ok (job, ledger.withJob job))
      (prepared : distributor.prepare ledger job = .ok commit)
      (committed : ledger.commit commit = .ok written) :
      Operates ledger (.runJob distributor jobId)
        (written.withJob (job.finished commit.window.merkleRoot commit.recipients.length))
  | abandoned {distributor : Distributor} {jobId : String} {job : Job}
      (begins : distributor.beginJob ledger jobId = .ok (job, ledger.withJob job))
      (reason : String) :
      Operates ledger (.runJob distributor jobId) (ledger.withJob (job.abandoned reason))
  | recovered {distributor : Distributor} {jobId reason : String} {job : Job} {after : Ledger}
      (recovered : distributor.recoverJob ledger jobId reason = .ok (job, after)) :
      Operates ledger (.recoverJob distributor jobId reason) after

theorem operates_runJob (ledger : Ledger) (distributor : Distributor) (jobId : String) :
    Operates ledger (.runJob distributor jobId)
      (ledger.orUnchanged (distributor.runJob ledger jobId)) := by
  refine of_orUnchanged .unchanged fun job after ran => ?_
  obtain ⟨started, begins, ended⟩ := Distributor.runJob_eq_ok.mp ran
  rcases ended with ⟨commit, written, prepared, committed, rfl, rfl⟩ | ⟨e, -, rfl, rfl⟩
  · exact .finished begins prepared committed
  · exact .abandoned begins e.message

/-- A run that is cut off once its window is written has come as far as it could. -/
theorem operates_runToWindow (ledger : Ledger) (distributor : Distributor) (jobId : String) :
    Operates ledger (.runToWindow distributor jobId)
      (ledger.after (.runToWindow distributor jobId)) := by
  unfold after
  dsimp only
  split
  · next started begins =>
      obtain ⟨job, begun⟩ := started
      obtain ⟨-, -, rfl⟩ := Distributor.begun_of_beginJob begins
      refine of_orUnchanged (.unbuilt begins) fun commit built build => ?_
      obtain ⟨prepared, written, committed, rfl⟩ :=
        Distributor.buildWindow_withJob_eq_ok.mp build
      exact .built begins prepared committed
  · exact .unchanged

/-- **What can come of an operation.** -/
theorem operates (ledger : Ledger) (operation : Operation) :
    Operates ledger operation (ledger.after operation) := by
  cases operation with
  | enterToken token => exact .token
  | enterPrice price =>
      unfold after insertPrice
      dsimp only
      split
      · exact .unchanged
      · exact .price
  | deliver lpFeeCap event => exact .delivered
  | pricePending rewardToken rewardChainId => exact .priced
  | createJob distributor now jobId index config =>
      refine of_orUnchanged .unchanged fun job after created => ?_
      obtain ⟨-, -, -, fresh, rfl, rfl⟩ := Distributor.createJob_eq_ok.mp created
      exact .created fresh
  | runJob distributor jobId => exact operates_runJob ledger distributor jobId
  | runToStart distributor jobId =>
      refine of_orUnchanged .unchanged fun job after begins => ?_
      obtain ⟨-, -, rfl⟩ := Distributor.begun_of_beginJob begins
      exact .begun begins
  | runToWindow distributor jobId => exact operates_runToWindow ledger distributor jobId
  | recoverJob distributor jobId reason =>
      exact of_orUnchanged .unchanged fun job after recovered => .recovered recovered

/-! ## Operations that leave windows alone -/

/-- What becomes of the place of a deposit in an operation that leaves windows alone. -/
inductive RowStep (lpFeeCap : Decimal) (key : DepositKey) :
    Option Deposit → Option Deposit → Prop
  | same {row : Option Deposit} : RowStep lpFeeCap key row row
  | change {d after : Deposit} (change : d.Change lpFeeCap after) :
      RowStep lpFeeCap key (some d) (some after)
  /-- The deposit of a record is inserted with the referral address that is known by then, after
  the fills that wait for it. -/
  | insert {touched : Ledger} {event : DepositEvent} {records : List FillRecord} {d : Deposit}
      (atKey : event.key = key)
      (settled : (touched.completed event).fillAll lpFeeCap records = .ok d) :
      RowStep lpFeeCap key none (some d)

/-- Windows and recipients stay, and every deposit steps on its own. -/
structure Quiet (lpFeeCap : Decimal) (before after : Ledger) : Prop where
  windows : after.windows = before.windows
  recipients : after.recipients = before.recipients
  deposits : ∀ key,
    RowStep lpFeeCap key (before.deposits.find? key) (after.deposits.find? key)

theorem Quiet.of_eq {before after : Ledger} (deposits : after.deposits = before.deposits)
    (windows : after.windows = before.windows) (recipients : after.recipients = before.recipients) :
    Quiet lpFeeCap before after :=
  ⟨windows, recipients, fun _ => deposits ▸ .same⟩

theorem Quiet.refl (ledger : Ledger) : Quiet lpFeeCap ledger ledger := .of_eq rfl rfl rfl

theorem quiet_putDeposit (keyed : ledger.Keyed) {key : DepositKey} {d after : Deposit}
    (found : ledger.deposits.find? key = some d) (change : d.Change lpFeeCap after) :
    Quiet lpFeeCap ledger (ledger.putDeposit after) := by
  refine ⟨rfl, rfl, fun other => ?_⟩
  have atKey : after.key = key := change.keeps.key.trans (keyed key d found)
  change RowStep lpFeeCap other _ ((ledger.deposits.insert after.key after).find? other)
  rw [Table.find?_insert, atKey]
  by_cases here : other = key
  · rw [if_pos here, here, found]
    exact .change change
  · rw [if_neg here]
    exact .same

/-! ## Delivering records -/

theorem quiet_insert {event : DepositEvent} {d : Deposit}
    (settled : ledger.reconcile lpFeeCap event = .ok d)
    (absent : ledger.deposits.find? event.key = none) :
    Quiet lpFeeCap ledger (((ledger.touched event).dropParked event.key).putDeposit d) := by
  have key := key_of_reconcile settled
  rw [touched_eq]
  refine ⟨rfl, rfl, fun other => ?_⟩
  change RowStep lpFeeCap other _ ((ledger.deposits.insert d.key d).find? other)
  rw [Table.find?_insert, key]
  by_cases here : other = event.key
  · rw [if_pos here, here, absent]
    exact .insert rfl settled
  · rw [if_neg here]
    exact .same

theorem quiet_receive (keyed : ledger.Keyed) (lpFeeCap : Decimal) (event : Event) :
    Quiet lpFeeCap ledger (ledger.receive lpFeeCap event).1 := by
  have received := ledger.receives lpFeeCap event
  generalize ledger.receive lpFeeCap event = result at received ⊢
  cases received with
  | refused refused =>
      rw [touched_eq]
      exact .of_eq rfl rfl rfl
  | duplicate settled found =>
      rw [touched_eq]
      exact .of_eq rfl rfl rfl
  | inserted settled absent => exact quiet_insert settled absent
  | parked absent => exact .of_eq rfl rfl rfl
  | changed found change => exact quiet_putDeposit keyed found change
  | unchanged stays => exact .refl ledger
  | refund => exact .of_eq rfl rfl rfl
  | claim free => exact .of_eq rfl rfl rfl
  | route => exact .of_eq rfl rfl rfl

/-- The delivery of a record leaves windows alone, whether the record is taken or refused. -/
theorem quiet_deliver (keyed : ledger.Keyed) (lpFeeCap : Decimal) (event : Event) :
    Quiet lpFeeCap ledger (ledger.deliver lpFeeCap event).1 := by
  have received := quiet_receive keyed lpFeeCap event
  rcases ledger.fst_deliver lpFeeCap event with same | left | noted
  · rw [same]
    exact .refl ledger
  · rw [left]
    exact received
  · rw [noted]
    exact ⟨received.windows, received.recipients, received.deposits⟩

/-! ## Prices -/

theorem quiet_pricePending (rewardToken : Address) (rewardChainId : Nat) :
    Quiet lpFeeCap ledger (ledger.pricePending rewardToken rewardChainId).1 := by
  refine ⟨rfl, rfl, fun key => ?_⟩
  change RowStep lpFeeCap key _ ((ledger.deposits.mapValues _).find? key)
  rw [Table.find?_mapValues]
  cases found : ledger.deposits.find? key with
  | none => exact .same
  | some d =>
      rw [Option.map_some]
      unfold priced
      split
      · next due =>
          split
          · next price known => exact .change (.price due known)
          · exact .same
      · exact .same

/-! ## Operations that write a window -/

/-- What a distributor of a line prepared for a free index was committed. -/
def Commits (line : Line) (before after : Ledger) : Prop :=
  ∃ (distributor : Distributor) (job : Job) (commit : WindowCommit) (written : Ledger),
    distributor.line = line ∧ distributor.checkIndex before job.windowIndex = .ok () ∧
      distributor.prepare before job = .ok commit ∧ before.commit commit = .ok written ∧
      after.deposits = written.deposits ∧ after.windows = written.windows ∧
      after.recipients = written.recipients

theorem commits_of_prepare {distributor : Distributor} {jobId : String} {job : Job}
    {commit : WindowCommit} {written : Ledger} (jobs : List Job)
    (begins : distributor.beginJob ledger jobId = .ok (job, ledger.withJob job))
    (prepared : distributor.prepare ledger job = .ok commit)
    (committed : ledger.commit commit = .ok written) :
    Commits distributor.line ledger { written with jobs } := by
  obtain ⟨initial, -, -, -, free, rfl, -⟩ := Distributor.beginJob_eq_ok.mp begins
  exact ⟨distributor, initial.begun, commit, written, rfl, free, prepared, committed,
    rfl, rfl, rfl⟩

/-- **Two kinds of operations.**  An operation leaves all windows alone, or it writes what its
distributor prepared from the ledger before. -/
theorem quiet_or_commits (keyed : ledger.Keyed) {line : Line} {operation : Operation}
    (onLine : operation.OnLine line) (capped : operation.Capped lpFeeCap) :
    Quiet lpFeeCap ledger (ledger.after operation) ∨
      Commits line ledger (ledger.after operation) := by
  have operates := ledger.operates operation
  generalize ledger.after operation = after at operates ⊢
  cases operates with
  | unchanged => exact .inl (.refl ledger)
  | token => exact .inl (.of_eq rfl rfl rfl)
  | price => exact .inl (.of_eq rfl rfl rfl)
  | delivered =>
      obtain rfl := capped
      exact .inl (quiet_deliver keyed _ _)
  | priced => exact .inl (quiet_pricePending _ _)
  | created fresh => exact .inl (.of_eq rfl rfl rfl)
  | begun begins => exact .inl (.of_eq rfl rfl rfl)
  | unbuilt begins => exact .inl (.of_eq rfl rfl rfl)
  | built begins prepared committed =>
      obtain rfl := onLine
      exact .inr (commits_of_prepare _ begins prepared committed)
  | finished begins prepared committed =>
      obtain rfl := onLine
      exact .inr (commits_of_prepare _ begins prepared committed)
  | abandoned begins reason => exact .inl (.of_eq rfl rfl rfl)
  | recovered recovered =>
      obtain ⟨-, -, -, -, rfl⟩ := Distributor.recoverJob_eq_ok.mp recovered
      exact .inl (.of_eq rfl rfl rfl)

end BridgeRewards.Ledger
