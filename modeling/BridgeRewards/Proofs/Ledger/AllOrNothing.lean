import BridgeRewards.Proofs.Ledger.Commit

/-!
# All or nothing

A window, its recipients and the windows of its deposits are written to a ledger row by row.  A
write that was begun could not be taken back, so all that can refuse a commit is read and checked
before the first one.  `commitInPlace` is the commit as it changes a ledger in place; it keeps the
ledger as it stands when something is refused, and so what a refused commit leaves is what had been
written by then.  That is nothing: it leaves the ledger as it was, and otherwise it leaves what
`Ledger.commit` gives (`run_commitInPlace`).

A commit is refused for no other reasons than those of `Admits`.  It may name a deposit several
times, and its recipients may come in any order; they are stored in the order of their indices.
-/

set_option autoImplicit false

namespace BridgeRewards

namespace Outcome

variable {ε σ α β : Type}

/-- The outcome of a computation that leaves the state as it is. -/
def leaving (state : σ) : Except ε α → EStateM.Result ε σ α
  | .ok a => .ok a state
  | .error e => .error e state

/-- A computation that reads the state at hand and leaves it. -/
def reading (read : σ → Except ε α) : EStateM ε σ α := fun state => leaving state (read state)

@[simp] theorem run_reading (read : σ → Except ε α) (state : σ) :
    (reading read).run state = leaving state (read state) := rfl

theorem run_mapM_reading (read : α → σ → Except ε β) (xs : List α) (state : σ) :
    (xs.mapM fun x => reading (read x)).run state = leaving state (xs.mapM (read · state)) := by
  induction xs with
  | nil => rfl
  | cons x rest ih =>
      rw [List.mapM_cons, List.mapM_cons, EStateM.run_bind, run_reading]
      cases read x state with
      | error e => rfl
      | ok y =>
          simp only [leaving, EStateM.run_bind, ih]
          cases rest.mapM (read · state) <;> rfl

theorem run_forM_modify (change : α → σ → σ) (xs : List α) (state : σ) :
    (xs.forM fun x => modify (change x) : EStateM ε σ PUnit).run state =
      .ok ⟨⟩ (xs.foldl (fun state x => change x state) state) := by
  induction xs generalizing state with
  | nil => rfl
  | cons x rest ih => exact ih (change x state)

end Outcome

namespace Ledger

variable {ledger after : Ledger} {commit : WindowCommit}

/-! ## In place -/

/-- The writes of a commit: its deposits, then its recipients, then its window. -/
def writeInPlace (commit : WindowCommit) (deposits : List Deposit) :
    EStateM LedgerError Ledger Unit := do
  deposits.forM fun d => modify (·.putDeposit d)
  modify fun ledger => { ledger with
    recipients := ledger.recipients.insert commit.place (byAccountIndex commit.recipients) }
  modify fun ledger => { ledger with
    windows := ledger.windows.insert commit.place commit.window }

/-- The commit as it changes a ledger in place. -/
def commitInPlace (commit : WindowCommit) : EStateM LedgerError Ledger Unit := do
  let line := commit.window.line
  let index := commit.window.windowIndex
  Outcome.reading fun ledger =>
    if ledger.hasWindow line index then .error (.windowTaken line index) else .ok ()
  Outcome.reading fun _ => checkRecipients line index [] commit.recipients
  let deposits ← commit.deposits.mapM fun key =>
    Outcome.reading (·.assigned commit.kind index key)
  writeInPlace commit deposits

/-- Deposits that are put in their places one by one change nothing but the deposits. -/
theorem foldl_putDeposit (deposits : List Deposit) (ledger : Ledger) :
    deposits.foldl (fun ledger d => ledger.putDeposit d) ledger =
      { ledger with
        deposits := deposits.foldl (fun table d => table.insert d.key d) ledger.deposits } := by
  induction deposits generalizing ledger with
  | nil => rfl
  | cons d rest ih =>
      rw [List.foldl_cons, List.foldl_cons, ih]
      rfl

/-- The writes do not fail and lead to the ledger with everything written. -/
theorem run_writeInPlace (commit : WindowCommit) (deposits : List Deposit) (ledger : Ledger) :
    (writeInPlace commit deposits).run ledger = .ok () (ledger.write commit deposits) := by
  unfold writeInPlace
  rw [EStateM.run_bind, Outcome.run_forM_modify (fun d ledger => Ledger.putDeposit ledger d),
    foldl_putDeposit]
  rfl

/-- **In place a commit leaves what it gives, and the ledger as it was if it is refused.** -/
theorem run_commitInPlace (commit : WindowCommit) (ledger : Ledger) :
    (commitInPlace commit).run ledger =
      match ledger.commit commit with
      | .ok after => .ok () after
      | .error e => .error e ledger := by
  have assigning := Outcome.run_mapM_reading (fun key (ledger : Ledger) =>
    ledger.assigned commit.kind commit.window.windowIndex key) commit.deposits ledger
  unfold commitInPlace Ledger.commit
  rw [EStateM.run_bind, Outcome.run_reading]
  by_cases taken : ledger.hasWindow commit.window.line commit.window.windowIndex = true
  · rw [if_pos taken, if_pos taken]
    rfl
  · rw [if_neg taken, if_neg taken]
    simp only [Outcome.leaving, EStateM.run_bind, Outcome.run_reading]
    cases checkRecipients commit.window.line commit.window.windowIndex [] commit.recipients with
    | error e => rfl
    | ok checked =>
        simp only [assigning]
        cases commit.deposits.mapM (ledger.assigned commit.kind commit.window.windowIndex) with
        | error e => rfl
        | ok deposits => exact run_writeInPlace commit deposits ledger

/-! ## What is admitted -/

/-- What a ledger asks of a commit. -/
structure Admits (ledger : Ledger) (commit : WindowCommit) : Prop where
  free : ledger.windows.find? commit.place = none
  own : ∀ recipient ∈ commit.recipients, recipient.windowIndex = commit.window.windowIndex
  distinct : (commit.recipients.map (·.address)).Nodup
  assignable : ∀ key ∈ commit.deposits, ∃ d, ledger.deposits.find? key = some d ∧
    d.isFilled = true ∧ d.windowFor commit.kind = none

theorem exists_commit_iff : (∃ after, ledger.commit commit = .ok after) ↔ ledger.Admits commit := by
  constructor
  · rintro ⟨after, committed⟩
    obtain ⟨free, checked, -⟩ := commit_eq_ok.mp committed
    obtain ⟨own, distinct, -⟩ := checkRecipients_eq_ok.mp checked
    exact ⟨free, own, distinct, fun key member => exists_of_mem_deposits committed member⟩
  · rintro ⟨free, own, distinct, assignable⟩
    have each : ∀ key ∈ commit.deposits, ∃ stamped,
        ledger.assigned commit.kind commit.window.windowIndex key = .ok stamped := by
      intro key member
      obtain ⟨d, found, filled, unassigned⟩ := assignable key member
      exact ⟨_, assigned_eq_ok.mpr ⟨d, found, filled, unassigned, rfl⟩⟩
    obtain ⟨deposits, assigned⟩ := Outcome.exists_forall₂ each
    exact ⟨_, commit_eq_ok.mpr ⟨free, checkRecipients_eq_ok.mpr ⟨own, distinct, by simp⟩,
      deposits, assigned, rfl⟩⟩

/-! ## What is written -/

/-- Whether recipients are stored in the order of their indices, and among equal indices in the
order in which they came. -/
structure StoredInOrder (recipients stored : List Recipient) : Prop where
  perm : stored.Perm recipients
  increasing : stored.Pairwise fun a b => a.accountIndex ≤ b.accountIndex
  stable : ∀ index, stored.filter (·.accountIndex == index) =
    recipients.filter (·.accountIndex == index)

theorem storedInOrder_byAccountIndex (recipients : List Recipient) :
    StoredInOrder recipients (byAccountIndex recipients) := by
  have perm : (byAccountIndex recipients).Perm recipients := List.mergeSort_perm _ _
  have trans : ∀ a b c : Recipient, decide (a.accountIndex ≤ b.accountIndex) = true →
      decide (b.accountIndex ≤ c.accountIndex) = true →
      decide (a.accountIndex ≤ c.accountIndex) = true := by
    simp only [decide_eq_true_eq]
    omega
  have total : ∀ a b : Recipient, (decide (a.accountIndex ≤ b.accountIndex) ||
      decide (b.accountIndex ≤ a.accountIndex)) = true := by
    simp only [Bool.or_eq_true, decide_eq_true_eq]
    omega
  refine ⟨perm, ?_, fun index => ?_⟩
  · exact (List.pairwise_mergeSort trans total recipients).imp of_decide_eq_true
  · -- those with one index are in order already, so the sort keeps them in a row
    have level : (recipients.filter (·.accountIndex == index)).Pairwise
        fun a b => decide (a.accountIndex ≤ b.accountIndex) = true := by
      refine List.pairwise_of_forall_mem_list fun a isA b isB => ?_
      have first : a.accountIndex = index := by simpa using (List.mem_filter.mp isA).2
      have second : b.accountIndex = index := by simpa using (List.mem_filter.mp isB).2
      simp [first, second]
    have kept := (List.sublist_mergeSort trans total level List.filter_sublist).filter
      (·.accountIndex == index)
    rw [List.filter_filter] at kept
    simp only [Bool.and_self] at kept
    exact (kept.eq_of_length (perm.filter _).length_eq.symm).symm

/-- What a commit changes in a ledger: there is one window more, with its recipients in order, and
its deposits carry it; everything else is as it was. -/
structure Written (ledger : Ledger) (commit : WindowCommit) (after : Ledger) : Prop where
  windows : after.windows = ledger.windows.insert commit.place commit.window
  recipients : ∃ stored, StoredInOrder commit.recipients stored ∧
    after.recipients = ledger.recipients.insert commit.place stored
  deposits : ∀ key, after.deposits.find? key = (ledger.deposits.find? key).map fun d =>
    if key ∈ commit.deposits then d.stamp commit.kind commit.window.windowIndex else d
  rest : after = { ledger with
    deposits := after.deposits, windows := after.windows, recipients := after.recipients }

theorem written_of_commit (keyed : ledger.Keyed) (committed : ledger.commit commit = .ok after) :
    Written ledger commit after where
  windows := (tables_of_commit committed).1
  recipients := ⟨_, storedInOrder_byAccountIndex _, (tables_of_commit committed).2⟩
  deposits := find?_deposits_of_commit keyed committed
  rest := eq_of_commit committed

/-- **A commit is all or nothing.**  It succeeds exactly if it is admitted.  Then, where every
deposit stands at its own key, the window, its recipients and the windows of its deposits have been
written and nothing else, and every deposit stands at its own key again.  Otherwise the ledger is
left as it was. -/
theorem commit_is_all_or_nothing (ledger : Ledger) (commit : WindowCommit) :
    ((∃ after, ledger.commit commit = .ok after) ↔ ledger.Admits commit) ∧
      (∀ after, ledger.commit commit = .ok after →
        (commitInPlace commit).run ledger = .ok () after ∧
          (ledger.Keyed → Written ledger commit after ∧ after.Keyed)) ∧
      ∀ e, ledger.commit commit = .error e →
        (commitInPlace commit).run ledger = .error e ledger := by
  refine ⟨exists_commit_iff, fun after committed => ⟨?_, fun keyed => ?_⟩, fun e refused => ?_⟩
  · rw [run_commitInPlace, committed]
  · exact ⟨written_of_commit keyed committed, keyed.of_commit committed⟩
  · rw [run_commitInPlace, refused]

end Ledger

/-! ## A deposit that is filled and one that is not -/

namespace Trial

/-- A deposit in some state, without a window. -/
def kept (depositId : Nat) (status : DepositStatus) : Deposit where
  originChainId := 1
  destinationChainId := 10
  depositId := depositId
  depositor := .zero
  recipient := .zero
  inputToken := .zero
  inputAmount := "1000"
  outputToken := none
  outputAmount := none
  status := status
  depositDate := .epoch
  depositTx := "0x"
  fillDate := none
  fillTx := none
  filledAmount := "0"
  relayerFeePct := "0"
  fees := none
  price := none
  stickyReferralAddress := none
  rewardWindows := {}

/-- A ledger with the two deposits. -/
def keeping : Ledger := (Ledger.empty.putDeposit (kept 1 .filled)).putDeposit (kept 2 .pending)

/-- A window for some deposits, whose two recipients come in the wrong order. -/
def commitOf (deposits : List DepositKey) : WindowCommit where
  window := ⟨1, .zero, 0, .zero, "3", .zero, none, .lpFee, "job"⟩
  recipients := [⟨0, .zero, "1", 1, [], .null⟩, ⟨0, ⟨3, by decide⟩, "2", 0, [], .null⟩]
  deposits := deposits
  kind := .lpFee

theorem keyed_keeping : keeping.Keyed := by
  intro key d found
  unfold keeping Ledger.putDeposit at found
  rw [Table.find?_insert, Table.find?_insert] at found
  split at found
  · next isSecond => rw [← Option.some.inj found, isSecond]
  · split at found
    · next isFirst => rw [← Option.some.inj found, isFirst]
    · cases found

end Trial

/-- The filled deposit may be named twice.  With the other one beside it nothing is written. -/
theorem Ledger.commit_is_all_or_nothing_trial :
    (∃ after, Trial.keeping.commit (Trial.commitOf [⟨1, 1⟩, ⟨1, 1⟩]) = .ok after ∧
        Ledger.Written Trial.keeping (Trial.commitOf [⟨1, 1⟩, ⟨1, 1⟩]) after) ∧
      ∃ e, (Ledger.commitInPlace (Trial.commitOf [⟨1, 1⟩, ⟨1, 2⟩])).run Trial.keeping =
        .error e Trial.keeping := by
  obtain ⟨admitted, succeeds, -⟩ := Ledger.commit_is_all_or_nothing Trial.keeping
    (Trial.commitOf [⟨1, 1⟩, ⟨1, 1⟩])
  obtain ⟨onlyAdmitted, -, fails⟩ := Ledger.commit_is_all_or_nothing Trial.keeping
    (Trial.commitOf [⟨1, 1⟩, ⟨1, 2⟩])
  constructor
  · obtain ⟨after, committed⟩ := admitted.mpr ⟨by decide +kernel, by decide, by decide, by
      intro key member
      obtain rfl : key = ⟨1, 1⟩ := by simpa [Trial.commitOf] using member
      exact ⟨Trial.kept 1 .filled, by decide +kernel, rfl, rfl⟩⟩
    exact ⟨after, committed, ((succeeds after committed).2 Trial.keyed_keeping).1⟩
  · have refused : ¬ ∃ after,
        Trial.keeping.commit (Trial.commitOf [⟨1, 1⟩, ⟨1, 2⟩]) = .ok after := by
      rw [onlyAdmitted]
      intro admits
      obtain ⟨d, found, filled, -⟩ := admits.assignable ⟨1, 2⟩ (by simp [Trial.commitOf])
      have isSecond : Trial.keeping.deposits.find? ⟨1, 2⟩ = some (Trial.kept 2 .pending) := by
        decide +kernel
      rw [← Option.some.inj (isSecond.symm.trans found)] at filled
      cases filled
    obtain ⟨e, isError⟩ := Outcome.exists_error_iff.mpr refused
    exact ⟨e, fails e isError⟩

end BridgeRewards
