import BridgeRewards.Proofs.Distributor.Payout
import BridgeRewards.Proofs.Run.Step

/-!
# Ledgers that runs lead to

In every ledger that a run leads to, a deposit stands at its own key and is sound, and a window
stands at its own place, with the recipients that were prepared together with it
(`Ledger.Consistent`).  An operation that leaves windows alone cannot break this, and one that
writes a window writes it as it was prepared.
-/

set_option autoImplicit false

namespace BridgeRewards.Ledger

variable {ledger : Ledger} {lpFeeCap : Decimal}

/-- A window stands at a place as a distributor prepared it, with its recipients. -/
def Prepared (ledger : Ledger) (place : Line × Nat) (window : Window) : Prop :=
  ∃ (distributor : Distributor) (source : Ledger) (job : Job) (commit : WindowCommit),
    distributor.prepare source job = .ok commit ∧ commit.window = window ∧ commit.place = place ∧
      ledger.recipients.find? place = some commit.recipients

/-- Deposits stand at their own keys and are sound, and windows stand as they were prepared. -/
structure Consistent (ledger : Ledger) : Prop where
  keyed : ledger.Keyed
  sound : ledger.Sound
  prepared : ∀ place window, ledger.windows.find? place = some window →
    ledger.Prepared place window

theorem consistent_empty : Consistent .empty where
  keyed key d found := by cases found
  sound key d found := by cases found
  prepared place window found := by cases found

/-- Windows that stand as they were prepared stand at their places. -/
theorem Consistent.placed (consistent : Consistent ledger) : ledger.Placed := by
  intro place window found
  obtain ⟨-, -, -, commit, -, rfl, rfl, -⟩ := consistent.prepared place window found
  rfl

theorem Consistent.jobs (consistent : Consistent ledger) (jobs : List Job) :
    Consistent { ledger with jobs } where
  keyed := consistent.keyed
  sound := consistent.sound
  prepared := consistent.prepared

theorem RowStep.sound {key : DepositKey} {before after : Option Deposit}
    (step : RowStep lpFeeCap key before after)
    (start : ∀ d, before = some d → d.key = key ∧ d.Sound) {d : Deposit} (found : after = some d) :
    d.key = key ∧ d.Sound := by
  cases step with
  | same => exact start d found
  | change change =>
      obtain rfl := Option.some.inj found
      obtain ⟨atKey, sound⟩ := start _ rfl
      exact ⟨change.keeps.key.trans atKey, change.sound sound⟩
  | insert atKey settled =>
      obtain rfl := Option.some.inj found
      obtain ⟨keeps, sound⟩ := Deposit.fillAll_keeps settled
      refine ⟨keeps.key.trans atKey, sound ⟨fun filled => ?_, fun _ => rfl⟩⟩
      cases filled

theorem Consistent.quiet {after : Ledger} (consistent : Consistent ledger)
    (quiet : Quiet lpFeeCap ledger after) : Consistent after := by
  have rows : ∀ key d, after.deposits.find? key = some d → d.key = key ∧ d.Sound :=
    fun key d found => (quiet.deposits key).sound
      (fun old isOld => ⟨consistent.keyed key old isOld, consistent.sound key old isOld⟩) found
  refine ⟨fun key d found => (rows key d found).1, fun key d found => (rows key d found).2, ?_⟩
  intro place window found
  rw [quiet.windows] at found
  obtain ⟨distributor, source, job, commit, prepared, isWindow, isPlace, recipients⟩ :=
    consistent.prepared place window found
  exact ⟨distributor, source, job, commit, prepared, isWindow, isPlace,
    quiet.recipients ▸ recipients⟩

theorem Consistent.commits {line : Line} {after : Ledger} (consistent : Consistent ledger)
    (commits : Commits line ledger after) : Consistent after := by
  obtain ⟨distributor, job, commit, written, -, -, prepared, committed, deposits, windows,
    recipients⟩ := commits
  have rows := find?_deposits_of_commit consistent.keyed committed
  obtain ⟨newWindows, newRecipients⟩ := tables_of_commit committed
  constructor
  · intro key d found
    exact consistent.keyed.of_commit committed key d (deposits ▸ found)
  · intro key d found
    rw [deposits, rows, Option.map_eq_some_iff] at found
    obtain ⟨old, isOld, rfl⟩ := found
    have sound := consistent.sound key old isOld
    split
    · next named =>
        obtain ⟨same, isSame, filled, -⟩ := exists_of_mem_deposits committed named
        obtain rfl : same = old := Option.some.inj (isSame.symm.trans isOld)
        refine ⟨sound.fees, fun pending => ?_⟩
        exact absurd filled (Bool.eq_false_iff.mp pending)
    · exact sound
  · intro place window found
    rw [windows, newWindows, Table.find?_insert] at found
    unfold Prepared
    rw [recipients, newRecipients, Table.find?_insert]
    by_cases here : place = commit.place
    · rw [if_pos here] at found ⊢
      refine ⟨distributor, ledger, job, commit, prepared, Option.some.inj found, here.symm, ?_⟩
      rw [Distributor.byAccountIndex_of_prepare prepared]
    · rw [if_neg here] at found ⊢
      exact consistent.prepared place window found

/-- Every operation keeps a ledger consistent, whatever its line. -/
theorem Consistent.step (consistent : Consistent ledger) (operation : Operation) :
    Consistent (ledger.after operation) := by
  obtain ⟨line, onLine⟩ := operation.exists_onLine
  obtain ⟨lpFeeCap, capped⟩ := operation.exists_capped
  rcases quiet_or_commits consistent.keyed onLine capped with quiet | commits
  · exact consistent.quiet quiet
  · exact consistent.commits commits

/-- **Every run leads to a consistent ledger.** -/
theorem consistent_run (operations : List Operation) : Consistent (Ledger.empty.run operations) :=
  run_induction (fun _ => True) Consistent
    (fun _ operation _ consistent => consistent.step operation) consistent_empty
    (fun _ _ => trivial)

/-- A job that has begun is done if its window can be prepared, for the place of the window is
free. -/
theorem Consistent.exists_runJob (consistent : Consistent ledger) {distributor : Distributor}
    {jobId : String} {job : Job} {commit : WindowCommit}
    (begins : distributor.beginJob ledger jobId = .ok (job, ledger.withJob job))
    (prepared : distributor.prepare ledger job = .ok commit) :
    ∃ done written, done.status = .done ∧ done.windowIndex = job.windowIndex ∧
      ledger.commit commit = .ok written ∧
      distributor.runJob ledger jobId = .ok (done, written.withJob done) := by
  obtain ⟨initial, -, -, -, usable, rfl, -⟩ := Distributor.beginJob_eq_ok.mp begins
  obtain ⟨written, committed⟩ := Distributor.exists_commit_of_prepare consistent.keyed
    prepared (Distributor.free_of_checkIndex usable)
  exact ⟨initial.begun.finished commit.window.merkleRoot commit.recipients.length, written, rfl,
    rfl, committed, Distributor.runJob_of_commit begins prepared committed⟩

end BridgeRewards.Ledger

/-! ## A run that writes a window

A deposit is made, filled and priced, and a job for its liquidity fee is created and run. -/

namespace BridgeRewards.Trial

/-- A distributor with the settings and rules that apply when none are given. -/
def distributor : Distributor := ⟨{}, .standard⟩

/-- Where and when a record of the run was written. -/
def writtenAt (logIndex : Nat) : EventMeta := ⟨.new 1 "0x" logIndex, 1, .epoch⟩

/-- The deposit. -/
def deposit : DepositEvent where
  eventMeta := writtenAt 0
  originChainId := 1
  destinationChainId := 10
  depositId := 7
  depositor := .zero
  recipient := .zero
  inputToken := .zero
  inputAmount := "1000"
  outputToken := none
  outputAmount := none
  relayerFeePct := "0"
  referralAddress := none

/-- The fill, which charges a tenth. -/
def fill : FillEvent where
  eventMeta := writtenAt 1
  originChainId := 1
  depositId := 7
  relayer := .zero
  realizedLpFeePct := "100000000000000000"
  relayerFeePct := "0"
  totalFilledAmount := "1000"

/-- What is done before the job is run. -/
def operations : List Operation :=
  [.enterToken ⟨.zero, 1, "T", 0⟩, .enterToken ⟨.zero, 10, "T", 0⟩, .enterPrice ⟨"T", ⟨0⟩, "1"⟩,
    .deliver (.powerOfTen 18) (.deposit deposit), .deliver (.powerOfTen 18) (.fill fill),
    .pricePending .zero 10, .createJob distributor .epoch "job" 0 ⟨.epoch, .lpFee⟩]

/-- The ledger before the job is run. -/
def ledger : Ledger := Ledger.empty.run operations

/-- The job once it is in progress. -/
def job : Job := (Job.new "job" 0 ⟨.epoch, .lpFee⟩).begun

theorem beginJob_eq : distributor.beginJob ledger "job" = .ok (job, ledger.withJob job) := by
  refine Distributor.beginJob_eq_ok.mpr ⟨.new "job" 0 ⟨.epoch, .lpFee⟩, ?_, rfl, ?_, ?_, rfl, rfl⟩
  · decide +kernel
  · decide +kernel
  · decide +kernel

/-- A single total is known by its amount as a word and by its deposits. -/
theorem exists_total {ledger : Ledger} {config : JobConfig} {amount : Nat}
    {keys : List DepositKey}
    (view : (distributor.totals ledger config).toOption.map
      (·.map fun t => (t.amount.toWord?, t.deposits)) = some [(some amount, keys)]) :
    ∃ t, distributor.totals ledger config = .ok [t] ∧ t.amount.toWord? = some amount ∧
      t.deposits = keys := by
  cases totals : distributor.totals ledger config with
  | error e =>
      rw [totals] at view
      cases view
  | ok ts =>
      rw [totals] at view
      obtain ⟨t, rfl, isT⟩ := List.map_eq_singleton_iff.mp (Option.some.inj view)
      exact ⟨t, rfl, congrArg (·.1) isT, congrArg (·.2) isT⟩

theorem exists_prepare : ∃ commit, distributor.prepare ledger job = .ok commit := by
  obtain ⟨t, totals, word, -⟩ := @exists_total ledger job.config (300 * tenTo 18) [⟨1, 7⟩]
    (by decide +kernel)
  obtain ⟨commit, prepared, -⟩ := Distributor.exists_prepare_of_singleton totals word
  exact ⟨commit, prepared⟩

theorem exists_commit : ∃ commit written, distributor.prepare ledger job = .ok commit ∧
    ledger.commit commit = .ok written := by
  obtain ⟨commit, prepared⟩ := exists_prepare
  obtain ⟨done, written, -, -, committed, -⟩ :=
    (Ledger.consistent_run operations).exists_runJob beginJob_eq prepared
  exact ⟨commit, written, prepared, committed⟩

theorem exists_runJob : ∃ done after, distributor.runJob ledger "job" = .ok (done, after) ∧
    done.status = .done ∧
    ∃ window, after.windows.find? (distributor.line, 0) = some window := by
  obtain ⟨commit, prepared⟩ := exists_prepare
  obtain ⟨done, written, isDone, -, committed, ran⟩ :=
    (Ledger.consistent_run operations).exists_runJob beginJob_eq prepared
  have stands := Distributor.find?_windows_of_commit prepared committed
  exact ⟨done, _, ran, isDone, commit.window, stands⟩

theorem exists_window : ∃ window,
    (Ledger.empty.run (operations ++ [.runJob distributor "job"])).windows.find?
      (distributor.line, 0) = some window := by
  obtain ⟨done, after, ran, -, window, found⟩ := exists_runJob
  refine ⟨window, ?_⟩
  rw [Ledger.run_append]
  change (Ledger.orUnchanged ledger (distributor.runJob ledger "job")).windows.find? _ = _
  rw [ran]
  exact found

end BridgeRewards.Trial
