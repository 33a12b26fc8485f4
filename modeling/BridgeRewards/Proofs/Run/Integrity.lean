import BridgeRewards.Proofs.Distributor.Payout
import BridgeRewards.Proofs.Run.Consistent

/-!
# Deposits and windows agree

A deposit that is assigned to a window finds the window on the line, with the kind of reward that
it is assigned for and with whoever receives its reward among the recipients.  As many deposits
are assigned to a window as the payloads of its recipients count, and what has to be deposited for
it is the sum of what they are paid.  An operation that leaves windows alone keeps the assignment
of every deposit (`Quiet.assigned_iff`).  One that writes a window writes it at an index to which
no deposit is assigned, so that its own deposits are all that are assigned to it (`Wrote`).
-/

set_option autoImplicit false

namespace BridgeRewards.Ledger

variable {ledger after : Ledger} {lpFeeCap : Decimal} {line : Line} {kind : RewardType}
  {index : Nat}

/-- The deposits that are assigned to a window. -/
def assignedTo (ledger : Ledger) (kind : RewardType) (index : Nat) : List Deposit :=
  ledger.deposits.values.filter fun d => decide (d.windowFor kind = some index)

/-- A deposit at some key is assigned to a window. -/
def Assigned (ledger : Ledger) (kind : RewardType) (index : Nat) (key : DepositKey) : Prop :=
  ∃ d, ledger.deposits.find? key = some d ∧ d.windowFor kind = some index

/-- Deposits and windows of a line agree. -/
structure Integrity (line : Line) (ledger : Ledger) : Prop where
  /-- A deposit is assigned to a window of the line that pays the kind of reward to whoever
  receives it for the deposit. -/
  assigned : ∀ key d kind index, ledger.deposits.find? key = some d →
    d.windowFor kind = some index →
    ∃ window recipients address, ledger.windows.find? (line, index) = some window ∧
      ledger.recipients.find? (line, index) = some recipients ∧ window.kind = kind ∧
      d.rewardRecipient kind = some address ∧ address ∈ recipients.map (·.address)
  /-- As many deposits are assigned to a window as its recipients' payloads count. -/
  counted : ∀ index window, ledger.windows.find? (line, index) = some window →
    ∃ recipients counts, ledger.recipients.find? (line, index) = some recipients ∧
      List.Forall₂ Distributor.Counts recipients counts ∧
      (ledger.assignedTo window.kind index).length = counts.sum
  /-- What has to be deposited for a window is what its recipients are paid. -/
  deposited : ∀ index window, ledger.windows.find? (line, index) = some window →
    ∃ recipients amounts, ledger.recipients.find? (line, index) = some recipients ∧
      List.Forall₂ Distributor.Pays recipients amounts ∧
      Decimal.parseInteger "rewardsToDeposit" window.rewardsToDeposit =
        .ok (.ofInt amounts.sum)

theorem integrity_empty (line : Line) : Integrity line .empty where
  assigned key d kind index found := by cases found
  counted index window found := by cases found
  deposited index window found := by cases found

/-! ## Counting assigned deposits -/

/-- The keys at which deposits stand that are assigned to a window. -/
def assignedKeys (ledger : Ledger) (kind : RewardType) (index : Nat) : List DepositKey :=
  (ledger.deposits.rows.filter fun row => decide (row.2.windowFor kind = some index)).map (·.1)

theorem mem_assignedKeys {key : DepositKey} :
    key ∈ ledger.assignedKeys kind index ↔ ledger.Assigned kind index key := by
  constructor
  · intro member
    obtain ⟨⟨place, d⟩, isRow, rfl⟩ := List.mem_map.mp member
    obtain ⟨isRow, window⟩ := List.mem_filter.mp isRow
    exact ⟨d, (Table.find?_eq_some_iff _ _ _).mpr isRow, of_decide_eq_true window⟩
  · rintro ⟨d, found, window⟩
    refine List.mem_map.mpr ⟨(key, d), List.mem_filter.mpr ⟨?_, decide_eq_true window⟩, rfl⟩
    exact (Table.find?_eq_some_iff _ _ _).mp found

theorem nodup_assignedKeys : (ledger.assignedKeys kind index).Nodup :=
  ledger.deposits.nodup_keys.sublist (List.filter_sublist.map _)

theorem length_assignedKeys :
    (ledger.assignedKeys kind index).length = (ledger.assignedTo kind index).length := by
  simp only [assignedKeys, assignedTo, Table.values, List.filter_map, List.length_map]
  rfl

/-- The deposits that are assigned to a window are as many as the different keys at which they
stand. -/
theorem length_assignedTo {keys : List DepositKey} (distinct : keys.Nodup)
    (all : ∀ key, key ∈ keys ↔ ledger.Assigned kind index key) :
    (ledger.assignedTo kind index).length = keys.length := by
  have members : ∀ key, key ∈ ledger.assignedKeys kind index ↔ key ∈ keys :=
    fun key => mem_assignedKeys.trans (all key).symm
  rw [← length_assignedKeys]
  exact ((List.perm_ext_iff_of_nodup nodup_assignedKeys distinct).mpr members).length_eq

theorem length_assignedTo_congr
    (same : ∀ key, after.Assigned kind index key ↔ ledger.Assigned kind index key) :
    (after.assignedTo kind index).length = (ledger.assignedTo kind index).length := by
  refine (length_assignedTo nodup_assignedKeys fun key => ?_).trans length_assignedKeys
  exact mem_assignedKeys.trans (same key).symm

/-! ## Operations that leave windows alone -/

/-- A deposit with a window after a quiet operation had it before, with the same recipient. -/
theorem RowStep.before {key : DepositKey} {row next : Option Deposit} {d : Deposit}
    (step : RowStep lpFeeCap key row next) (found : next = some d)
    (window : d.windowFor kind = some index) :
    ∃ old, row = some old ∧ old.windowFor kind = some index ∧
      d.rewardRecipient kind = old.rewardRecipient kind := by
  cases step with
  | same => exact ⟨d, found, window, rfl⟩
  | change change =>
      obtain rfl := Option.some.inj found
      have keeps := change.keeps
      refine ⟨_, rfl, ?_, ?_⟩
      · unfold Deposit.windowFor at window ⊢
        rw [← keeps.rewardWindows]
        exact window
      · cases kind with
        | referral => exact keeps.stickyReferralAddress
        | lpFee => exact congrArg some keeps.depositor
        | bridgeFee => exact congrArg some keeps.depositor
  | insert atKey settled =>
      obtain rfl := Option.some.inj found
      have keeps := (Deposit.fillAll_keeps settled).1
      unfold Deposit.windowFor at window
      rw [keeps.rewardWindows] at window
      cases kind <;> cases window

theorem RowStep.keepsWindow {key : DepositKey} {row next : Option Deposit} {d : Deposit}
    (step : RowStep lpFeeCap key row next) (found : row = some d)
    (window : d.windowFor kind = some index) :
    ∃ later, next = some later ∧ later.windowFor kind = some index := by
  cases step with
  | same => exact ⟨d, found, window⟩
  | change change =>
      obtain rfl := Option.some.inj found
      refine ⟨_, rfl, ?_⟩
      unfold Deposit.windowFor at window ⊢
      rw [change.keeps.rewardWindows]
      exact window
  | insert atKey settled => cases found

theorem Quiet.assigned_iff (quiet : Quiet lpFeeCap ledger after) (key : DepositKey) :
    after.Assigned kind index key ↔ ledger.Assigned kind index key := by
  constructor
  · rintro ⟨d, found, window⟩
    obtain ⟨old, isOld, window, -⟩ := (quiet.deposits key).before found window
    exact ⟨old, isOld, window⟩
  · rintro ⟨d, found, window⟩
    exact (quiet.deposits key).keepsWindow found window

theorem Integrity.quiet (integrity : Integrity line ledger) (quiet : Quiet lpFeeCap ledger after) :
    Integrity line after := by
  constructor
  · intro key d kind index found window
    obtain ⟨old, isOld, window, same⟩ := (quiet.deposits key).before found window
    rw [quiet.windows, quiet.recipients, same]
    exact integrity.assigned key old kind index isOld window
  · intro index window found
    rw [quiet.windows] at found
    rw [quiet.recipients, length_assignedTo_congr quiet.assigned_iff]
    exact integrity.counted index window found
  · intro index window found
    rw [quiet.windows] at found
    rw [quiet.recipients]
    exact integrity.deposited index window found

/-! ## Operations that write a window -/

/-- Besides the assignments that there were, a commit assigns its deposits to its window. -/
theorem assigned_commit {commit : WindowCommit} (keyed : ledger.Keyed)
    (h : ledger.commit commit = .ok after) (key : DepositKey) :
    after.Assigned kind index key ↔ ledger.Assigned kind index key ∨
      (key ∈ commit.deposits ∧ kind = commit.kind ∧ index = commit.window.windowIndex) := by
  unfold Assigned
  rw [find?_deposits_of_commit keyed h key]
  constructor
  · rintro ⟨d, found, window⟩
    obtain ⟨old, isOld, rfl⟩ := Option.map_eq_some_iff.mp found
    by_cases named : key ∈ commit.deposits
    · rw [if_pos named, Deposit.windowFor_stamp] at window
      by_cases same : kind = commit.kind
      · rw [if_pos same] at window
        exact .inr ⟨named, same, (Option.some.inj window).symm⟩
      · rw [if_neg same] at window
        exact .inl ⟨old, isOld, window⟩
    · rw [if_neg named] at window
      exact .inl ⟨old, isOld, window⟩
  · rintro (⟨d, found, window⟩ | ⟨named, rfl, rfl⟩)
    · refine ⟨_, Option.map_eq_some_iff.mpr ⟨d, found, rfl⟩, ?_⟩
      split
      · next named =>
          obtain ⟨same, isSame, -, free⟩ := exists_of_mem_deposits h named
          obtain rfl : same = d := Option.some.inj (isSame.symm.trans found)
          have other : kind ≠ commit.kind := by
            rintro rfl
            rw [free] at window
            cases window
          rw [Deposit.windowFor_stamp, if_neg other]
          exact window
      · exact window
    · obtain ⟨d, found, -, -⟩ := exists_of_mem_deposits h named
      refine ⟨_, Option.map_eq_some_iff.mpr ⟨d, found, rfl⟩, ?_⟩
      rw [if_pos named, Deposit.windowFor_stamp, if_pos rfl]

theorem rewardRecipient_commit {commit : WindowCommit} (keyed : ledger.Keyed)
    (h : ledger.commit commit = .ok after) {key : DepositKey} {old d : Deposit}
    (isOld : ledger.deposits.find? key = some old) (found : after.deposits.find? key = some d) :
    d.rewardRecipient kind = old.rewardRecipient kind := by
  rw [find?_deposits_of_commit keyed h key, isOld, Option.map_some] at found
  obtain rfl := Option.some.inj found
  split <;> cases kind <;> rfl

/-- What a line has after a window was written at an index that was free: the window with its
recipients and deposits, beside everything that was there. -/
structure Wrote (line : Line) (index : Nat) (commit : WindowCommit) (ledger after : Ledger) :
    Prop where
  free : ledger.windows.find? (line, index) = none
  windows : ∀ other, after.windows.find? (line, other) =
    if other = index then some commit.window else ledger.windows.find? (line, other)
  recipients : ∀ other, after.recipients.find? (line, other) =
    if other = index then some commit.recipients else ledger.recipients.find? (line, other)
  assigned : ∀ kind other key, after.Assigned kind other key ↔
    ledger.Assigned kind other key ∨
      (key ∈ commit.deposits ∧ kind = commit.window.kind ∧ other = index)
  kept : ∀ key old d, ledger.deposits.find? key = some old → after.deposits.find? key = some d →
    ∀ kind, d.rewardRecipient kind = old.rewardRecipient kind
  rewarded : ∀ key ∈ commit.deposits, ∃ old address, ledger.deposits.find? key = some old ∧
    old.rewardRecipient commit.window.kind = some address ∧
    address ∈ commit.recipients.map (·.address)
  counted : ∃ counts, List.Forall₂ Distributor.Counts commit.recipients counts ∧
    commit.deposits.Nodup ∧ commit.deposits.length = counts.sum
  deposited : ∃ amounts, List.Forall₂ Distributor.Pays commit.recipients amounts ∧
    Decimal.parseInteger "rewardsToDeposit" commit.window.rewardsToDeposit =
      .ok (.ofInt amounts.sum)

theorem Commits.exists_wrote (consistent : Consistent ledger)
    (commits : Commits line ledger after) :
    ∃ index commit, Wrote line index commit ledger after := by
  obtain ⟨distributor, job, commit, written, rfl, -, prepared, committed, deposits, windows,
    recipients⟩ := commits
  have keyed := consistent.keyed
  obtain ⟨place, isKind, windowKind⟩ := Distributor.place_of_prepare prepared
  obtain ⟨newWindows, newRecipients⟩ := tables_of_commit committed
  have sorted := Distributor.byAccountIndex_of_prepare prepared
  have atPlace : commit.window.windowIndex = job.windowIndex := congrArg (·.2) place
  refine ⟨job.windowIndex, commit, place ▸ (commit_eq_ok.mp committed).1, ?_, ?_, ?_, ?_, ?_, ?_,
    Distributor.exists_amounts_of_prepare prepared⟩
  · intro other
    rw [windows, newWindows, Table.find?_insert, place]
    simp only [Prod.mk.injEq, true_and]
  · intro other
    rw [recipients, newRecipients, Table.find?_insert, place, sorted]
    simp only [Prod.mk.injEq, true_and]
  · intro kind other key
    rw [windowKind, ← atPlace, ← isKind, ← assigned_commit keyed committed]
    unfold Assigned
    rw [deposits]
  · intro key old d isOld found kind
    exact rewardRecipient_commit keyed committed isOld (deposits ▸ found)
  · intro key named
    obtain ⟨old, isOld, -, -⟩ := exists_of_mem_deposits committed named
    obtain ⟨address, receives, isRecipient⟩ :=
      Distributor.exists_recipient_of_prepare keyed prepared isOld named
    exact ⟨old, address, isOld, windowKind ▸ receives, isRecipient⟩
  · obtain ⟨counts, counted, total⟩ := Distributor.exists_counts_of_prepare prepared
    exact ⟨counts, counted, Distributor.nodup_deposits_of_prepare keyed prepared, total⟩

theorem Integrity.not_assigned (integrity : Integrity line ledger)
    (free : ledger.windows.find? (line, index) = none) (kind : RewardType) (key : DepositKey) :
    ¬ ledger.Assigned kind index key := by
  rintro ⟨d, found, window⟩
  obtain ⟨_, _, _, isThere, -⟩ := integrity.assigned key d kind index found window
  rw [free] at isThere
  cases isThere

theorem Wrote.length_assignedTo {commit : WindowCommit}
    (wrote : Wrote line index commit ledger after) (integrity : Integrity line ledger) :
    (after.assignedTo commit.window.kind index).length = commit.deposits.length := by
  obtain ⟨-, -, distinct, -⟩ := wrote.counted
  refine Ledger.length_assignedTo distinct fun key => ?_
  simp [wrote.assigned, integrity.not_assigned wrote.free]

theorem Integrity.wrote {commit : WindowCommit} (integrity : Integrity line ledger)
    (wrote : Wrote line index commit ledger after) : Integrity line after := by
  constructor
  · intro key d kind other found window
    rw [wrote.windows, wrote.recipients]
    rcases (wrote.assigned kind other key).mp ⟨d, found, window⟩ with
      ⟨old, isOld, oldWindow⟩ | ⟨named, rfl, rfl⟩
    · have elsewhere : other ≠ index := by
        rintro rfl
        exact integrity.not_assigned wrote.free kind key ⟨old, isOld, oldWindow⟩
      rw [if_neg elsewhere, if_neg elsewhere, wrote.kept key old d isOld found]
      exact integrity.assigned key old kind other isOld oldWindow
    · obtain ⟨old, address, isOld, receives, isRecipient⟩ := wrote.rewarded key named
      rw [if_pos rfl, if_pos rfl, wrote.kept key old d isOld found]
      exact ⟨commit.window, commit.recipients, address, rfl, rfl, rfl, receives, isRecipient⟩
  · intro other window found
    rw [wrote.windows] at found
    rw [wrote.recipients]
    by_cases here : other = index
    · rw [if_pos here] at found ⊢
      obtain rfl := Option.some.inj found
      obtain ⟨counts, counted, -, total⟩ := wrote.counted
      refine ⟨commit.recipients, counts, rfl, counted, ?_⟩
      rw [here, wrote.length_assignedTo integrity, total]
    · rw [if_neg here] at found ⊢
      have same : (after.assignedTo window.kind other).length =
          (ledger.assignedTo window.kind other).length :=
        length_assignedTo_congr fun key => by simp [wrote.assigned, here]
      rw [same]
      exact integrity.counted other window found
  · intro other window found
    rw [wrote.windows] at found
    rw [wrote.recipients]
    by_cases here : other = index
    · rw [if_pos here] at found ⊢
      obtain rfl := Option.some.inj found
      obtain ⟨amounts, paid, total⟩ := wrote.deposited
      exact ⟨commit.recipients, amounts, rfl, paid, total⟩
    · rw [if_neg here] at found ⊢
      exact integrity.deposited other window found

theorem Integrity.step (integrity : Integrity line ledger) (consistent : Consistent ledger)
    {operation : Operation} (onLine : operation.OnLine line) :
    Integrity line (ledger.after operation) := by
  obtain ⟨lpFeeCap, capped⟩ := operation.exists_capped
  rcases quiet_or_commits consistent.keyed onLine capped with quiet | commits
  · exact integrity.quiet quiet
  · obtain ⟨index, commit, wrote⟩ := commits.exists_wrote consistent
    exact integrity.wrote wrote

theorem Assigned.step {key : DepositKey} (consistent : Consistent ledger)
    (assigned : ledger.Assigned kind index key) (operation : Operation) :
    (ledger.after operation).Assigned kind index key := by
  obtain ⟨line, onLine⟩ := operation.exists_onLine
  obtain ⟨lpFeeCap, capped⟩ := operation.exists_capped
  rcases quiet_or_commits consistent.keyed onLine capped with quiet | commits
  · exact (quiet.assigned_iff key).mpr assigned
  · obtain ⟨_, commit, wrote⟩ := commits.exists_wrote consistent
    exact (wrote.assigned kind index key).mpr (.inl assigned)

/-! ## Runs -/

theorem Assigned.run {key : DepositKey} (consistent : Consistent ledger)
    (assigned : ledger.Assigned kind index key) (operations : List Operation) :
    (ledger.run operations).Assigned kind index key := by
  refine (run_induction (fun _ => True)
    (fun ledger => Consistent ledger ∧ ledger.Assigned kind index key)
    (fun ledger operation _ start => ?_) ⟨consistent, assigned⟩ fun _ _ => trivial).2
  exact ⟨start.1.step operation, start.2.step start.1 operation⟩

/-- **Single payout.**  After any run on one line, deposits and windows agree; and if a deposit is
assigned to a window then, no matter what follows, it stays assigned to this one. -/
theorem integrity_of_run {line : Line} (operations : List Operation)
    (onLine : ∀ operation ∈ operations, operation.OnLine line) :
    Integrity line (Ledger.empty.run operations) ∧
      ∀ key d kind index, (Ledger.empty.run operations).deposits.find? key = some d →
        d.windowFor kind = some index →
        ∀ more : List Operation, ∃ later,
          (Ledger.empty.run (operations ++ more)).deposits.find? key = some later ∧
            later.windowFor kind = some index := by
  have both := run_induction (·.OnLine line)
    (fun ledger => Consistent ledger ∧ Integrity line ledger)
    (fun ledger operation onLine start => ⟨start.1.step operation, start.2.step start.1 onLine⟩)
    ⟨consistent_empty, integrity_empty line⟩ onLine
  refine ⟨both.2, fun key d kind index found window more => ?_⟩
  rw [run_append]
  exact Assigned.run both.1 ⟨d, found, window⟩ more

theorem integrity_of_run_trial :
    (∀ operation ∈ Trial.operations ++ [.runJob Trial.distributor "job"],
      operation.OnLine Trial.distributor.line) ∧
    Integrity Trial.distributor.line
      (Ledger.empty.run (Trial.operations ++ [.runJob Trial.distributor "job"])) ∧
    ∀ key d kind index,
      (Ledger.empty.run (Trial.operations ++ [.runJob Trial.distributor "job"])).deposits.find?
        key = some d →
      d.windowFor kind = some index →
      ∀ more : List Operation, ∃ later,
        (Ledger.empty.run (Trial.operations ++ [.runJob Trial.distributor "job"] ++
          more)).deposits.find? key = some later ∧ later.windowFor kind = some index := by
  have onLine : ∀ operation ∈ Trial.operations ++ [.runJob Trial.distributor "job"],
      operation.OnLine Trial.distributor.line := by
    decide +kernel
  exact ⟨onLine, integrity_of_run _ onLine⟩

end BridgeRewards.Ledger
