import BridgeRewards.Proofs.Decimal.Plain
import BridgeRewards.Proofs.Distributor.Obstacle
import BridgeRewards.Proofs.Run.Consistent
import BridgeRewards.Proofs.Window.Canonical
import Mathlib.Algebra.Order.BigOperators.Group.List

/-!
# What has to be deposited for a window

A window asks for the sum of what its recipients get, and each of them gets a positive number that
fits a word of 256 bits, for otherwise its leaf could not be hashed (`Window.Covers`).  So after
any run, a job that is done asks for a positive integer, and for less than `2 ^ 256` for each of its
recipients (`Ledger.covers_of_run`).

The sum itself is not compared with anything: a window is prepared whenever what each recipient
gets is a word (`Distributor.exists_prepare_iff`).  So two recipients can be enough for a sum
that does not fit a word, and cannot be deposited (`Ledger.deposit_exceeds_word`).
-/

set_option autoImplicit false

namespace BridgeRewards

/-! ## Covering the recipients -/

/-- What has to be deposited for a window is the sum of what its recipients get, each of them a
positive number that fits a word. -/
structure Window.Covers (window : Window) (recipients : List Recipient) (amounts : List ℤ) :
    Prop where
  some : recipients ≠ []
  pays : List.Forall₂ Distributor.Pays recipients amounts
  words : ∀ amount ∈ amounts, 0 < amount ∧ amount < twoTo 256
  deposit : Decimal.parseInteger "rewardsToDeposit" window.rewardsToDeposit =
    .ok (.ofInt amounts.sum)

namespace Window.Covers

variable {window : Window} {recipients : List Recipient} {amounts : List ℤ}

theorem sum_pos (covers : window.Covers recipients amounts) : 0 < amounts.sum := by
  refine List.sum_pos amounts (fun amount member => (covers.words amount member).1) fun none => ?_
  have same := covers.pays.length_eq
  rw [none, List.length_nil] at same
  exact covers.some (List.length_eq_zero_iff.mp same)

/-- Each recipient adds less than `2 ^ 256`. -/
theorem sum_le (covers : window.Covers recipients amounts) :
    amounts.sum ≤ recipients.length * ((twoTo 256 : ℤ) - 1) := by
  rw [covers.pays.length_eq, ← nsmul_eq_mul]
  exact List.sum_le_card_nsmul amounts _ fun amount member =>
    Int.le_sub_one_of_lt (covers.words amount member).2

end Window.Covers

namespace Distributor

variable {distributor : Distributor} {ledger : Ledger} {job : Job} {commit : WindowCommit}
  {totals : List RecipientTotal}

theorem amount_pos_of_totals (isTotals : distributor.totals ledger job.config = .ok totals)
    {t : RecipientTotal} (member : t ∈ totals) : 0 < t.amount.value := by
  obtain ⟨context, rewards, -, -, paid⟩ := exists_rewards_of_totals isTotals
  obtain ⟨positive, earned⟩ := (Totals.mem_of_finish paid).mp member
  rw [earned, RecipientTotal.amount_ofEarned, ← Decimal.value_zero, ← Decimal.lt_iff_value_lt]
  exact positive

theorem word_of_pays (h : distributor.prepare ledger job = .ok commit) {recipient : Recipient}
    (member : recipient ∈ commit.recipients) {amount : ℤ} (pays : Pays recipient amount) :
    0 < amount ∧ amount < twoTo 256 := by
  obtain ⟨totals, tree, recipients, isTotals, built, rows, rfl⟩ := prepare_eq_ok.mp h
  obtain ⟨proven, isLeaf, row⟩ := Outcome.exists_of_mem_right rows member
  obtain ⟨_, -, rfl⟩ := Recipient.ofLeaf_eq_ok.mp row
  obtain ⟨n, number, same⟩ := (Decimal.parseInteger_plain_iff "amount").mp pays
  obtain rfl : amount = n := congrArg Decimal.mantissa same
  have shown := (WindowTree.shows_of_build built).paid.mem_iff.mp
    (List.mem_map_of_mem (f := fun proven => WindowTree.entry proven.leaf) isLeaf)
  obtain ⟨word, fits, isWord⟩ := (WindowTree.buildable_of_build built).words _ shown
  obtain ⟨t, isTotal, isEntry⟩ := List.mem_map.mp shown
  have positive := amount_pos_of_totals isTotals isTotal
  have sameAmount : t.amount = proven.leaf.amount := congrArg Total.amount isEntry
  rw [sameAmount, number] at positive
  have isNat : (amount : ℚ) = ((word : ℤ) : ℚ) := number.symm.trans isWord
  constructor
  · exact_mod_cast positive
  · rw [Int.cast_inj.mp isNat]
    exact_mod_cast fits

theorem recipients_ne_nil_of_prepare (h : distributor.prepare ledger job = .ok commit) :
    commit.recipients ≠ [] := by
  obtain ⟨totals, tree, recipients, -, built, rows, rfl⟩ := prepare_eq_ok.mp h
  rintro (rfl : recipients = [])
  have leaves : tree.leaves = [] := List.forall₂_nil_right_iff.mp rows
  have shown := (WindowTree.shows_of_build built).paid
  rw [leaves, List.map_nil, List.nil_perm] at shown
  exact (WindowTree.buildable_of_build built).nonempty shown

/-- **A window that is prepared covers its recipients.** -/
theorem covers_of_prepare (h : distributor.prepare ledger job = .ok commit) :
    ∃ amounts, commit.window.Covers commit.recipients amounts := by
  obtain ⟨amounts, pays, deposit⟩ := exists_amounts_of_prepare h
  refine ⟨amounts, recipients_ne_nil_of_prepare h, pays, fun amount member => ?_, deposit⟩
  obtain ⟨recipient, isRecipient, paid⟩ := Outcome.exists_of_mem_right pays member
  exact word_of_pays h isRecipient paid

/-- A window can be prepared exactly if there is someone to pay and everyone gets a word, whatever
the sum is. -/
theorem exists_prepare_iff (isTotals : distributor.totals ledger job.config = .ok totals) :
    (∃ commit, distributor.prepare ledger job = .ok commit) ↔
      totals ≠ [] ∧ ∀ t ∈ totals, t.amount.IsWord := by
  constructor
  · rintro ⟨commit, prepared⟩
    obtain ⟨_, tree, recipients, again, built, -⟩ := prepare_eq_ok.mp prepared
    obtain rfl := Except.ok.inj (isTotals.symm.trans again)
    have fine := WindowTree.buildable_of_build built
    exact ⟨fun none => fine.nonempty (none ▸ rfl),
      fun t member => fine.words t.total (List.mem_map_of_mem member)⟩
  · rintro ⟨nonempty, words⟩
    obtain ⟨context, rewards, -, -, paid⟩ := exists_rewards_of_totals isTotals
    have fine : WindowTree.Buildable (totals.map RecipientTotal.total) := by
      refine ⟨fun none => nonempty (List.map_eq_nil_iff.mp none), ?_, ?_⟩
      · exact WindowTree.nodup_of_increasing
          (List.pairwise_map.mpr (Totals.pairwise_address_of_finish paid))
      · exact List.forall_mem_map.mpr words
    obtain ⟨tree, built⟩ := WindowTree.exists_build_iff.mpr fine
    obtain ⟨recipients, rows⟩ := Outcome.exists_forall₂ fun proven member =>
      exists_ofLeaf paid built member job.windowIndex job.config.kind
    exact ⟨_, prepare_eq_ok.mpr ⟨totals, tree, recipients, isTotals, built, rows, rfl⟩⟩

theorem deposit_of_prepare (isTotals : distributor.totals ledger job.config = .ok totals)
    (h : distributor.prepare ledger job = .ok commit) {total : ℤ}
    (isSum : (totals.map (·.amount.value)).sum = total) :
    Decimal.parseInteger "rewardsToDeposit" commit.window.rewardsToDeposit =
      .ok (.ofInt total) := by
  obtain ⟨_, tree, recipients, again, built, -, rfl⟩ := prepare_eq_ok.mp h
  obtain rfl := Except.ok.inj (isTotals.symm.trans again)
  refine (Decimal.parseInteger_plain_iff _).mpr ⟨total, ?_, rfl⟩
  rw [(WindowTree.shows_of_build built).exact, List.map_map, ← isSum]
  rfl

end Distributor

/-! ## A job that is done -/

namespace Ledger

/-- **A job that is done asks for the sum of what its recipients get.**  After any run, if the run
of a job reports that it is done, then its window stands and covers its recipients: each gets a
positive number below `2 ^ 256`, and what has to be deposited is an integer, which is exactly their
sum.  So it is positive and less than `2 ^ 256` for each recipient, and it fits a word if there is
only one of them. -/
theorem covers_of_run (operations : List Operation) (distributor : Distributor) (jobId : String)
    {done : Job} {after : Ledger}
    (ran : distributor.runJob (Ledger.empty.run operations) jobId = .ok (done, after))
    (isDone : done.status = .done) :
    ∃ window recipients amounts,
      after.windows.find? (distributor.line, done.windowIndex) = some window ∧
      after.recipientsOf distributor.line done.windowIndex = recipients ∧
      window.Covers recipients amounts ∧ 0 < amounts.sum ∧
      amounts.sum ≤ recipients.length * ((twoTo 256 : ℤ) - 1) ∧
      (recipients.length = 1 → amounts.sum < twoTo 256) := by
  obtain ⟨started, -, ended⟩ := Distributor.runJob_eq_ok.mp ran
  rcases ended with ⟨commit, written, prepared, committed, rfl, rfl⟩ | ⟨e, -, rfl, -⟩
  · obtain ⟨amounts, covers⟩ := Distributor.covers_of_prepare prepared
    have stands := Distributor.find?_windows_of_commit prepared committed
    have listed := Distributor.recipientsOf_of_commit prepared committed
    have bound := covers.sum_le
    refine ⟨commit.window, commit.recipients, amounts, stands, listed, covers, covers.sum_pos,
      bound, fun single => ?_⟩
    rw [single, Nat.cast_one, one_mul] at bound
    exact Int.lt_of_le_sub_one bound
  · cases isDone

/-- The window of the trial asks for what its one recipient gets. -/
theorem covers_of_run_trial : ∃ done after window amount,
    Trial.distributor.runJob (Ledger.empty.run Trial.operations) "job" = .ok (done, after) ∧
      after.windows.find? (Trial.distributor.line, done.windowIndex) = some window ∧
      Decimal.parseInteger "rewardsToDeposit" window.rewardsToDeposit = .ok (.ofInt amount) ∧
      0 < amount := by
  obtain ⟨done, after, ran, isDone, -⟩ := Trial.exists_runJob
  obtain ⟨window, recipients, amounts, stands, -, covers, positive, -⟩ :=
    covers_of_run Trial.operations Trial.distributor "job" ran isDone
  exact ⟨done, after, window, amounts.sum, ran, stands, covers.deposit, positive⟩

end Ledger

/-! ## Two recipients

Two accounts deposit so much that each of them gets more than half of `2 ^ 256`. -/

namespace Trial

/-- What either account deposits, of which a tenth is charged. -/
def largeAmount : String := (Decimal.ofInt (2 * tenTo 59)).plain

/-- The units that either account gets, three times what it is charged. -/
def largeUnits : Nat := 6 * tenTo 76

/-- The second account. -/
def secondAccount : Address := ⟨4, by decide⟩

/-- What is done before the job is run. -/
def largeOperations : List Operation :=
  [.enterToken ⟨.zero, 1, "T", 0⟩, .enterToken ⟨.zero, 10, "T", 0⟩, .enterPrice ⟨"T", ⟨0⟩, "1"⟩,
    .deliver (.powerOfTen 18) (.deposit { deposit with inputAmount := largeAmount }),
    .deliver (.powerOfTen 18) (.fill { fill with totalFilledAmount := largeAmount }),
    .deliver (.powerOfTen 18) (.deposit
      { deposit with
        eventMeta := writtenAt 2, depositId := 8, depositor := secondAccount
        inputAmount := largeAmount }),
    .deliver (.powerOfTen 18) (.fill
      { fill with eventMeta := writtenAt 3, depositId := 8, totalFilledAmount := largeAmount }),
    .pricePending .zero 10, .createJob distributor .epoch "job" 0 ⟨.epoch, .lpFee⟩]

/-- The ledger before the job is run. -/
def largeLedger : Ledger := Ledger.empty.run largeOperations

theorem beginJob_large :
    distributor.beginJob largeLedger "job" = .ok (job, largeLedger.withJob job) := by
  refine Distributor.beginJob_eq_ok.mpr ⟨.new "job" 0 ⟨.epoch, .lpFee⟩, ?_, rfl, ?_, ?_, rfl, rfl⟩
  · decide +kernel
  · decide +kernel
  · decide +kernel

theorem exists_totals_large : ∃ totals,
    distributor.totals largeLedger job.config = .ok totals ∧ totals ≠ [] ∧
      (∀ t ∈ totals, t.amount.IsWord) ∧
      (totals.map (·.amount.value)).sum = ((2 * largeUnits : Nat) : ℤ) := by
  have view : (distributor.totals largeLedger job.config).toOption.map
      (·.map fun t => t.amount.toWord?) = some [some largeUnits, some largeUnits] := by
    decide +kernel
  cases totals : distributor.totals largeLedger job.config with
  | error e =>
      rw [totals] at view
      cases view
  | ok ts =>
      rw [totals] at view
      obtain ⟨first, rest, rfl, isFirst, isRest⟩ := List.map_eq_cons_iff.mp (Option.some.inj view)
      obtain ⟨second, rfl, isSecond⟩ := List.map_eq_singleton_iff.mp isRest
      refine ⟨_, rfl, nofun, fun t member => ?_, ?_⟩
      · rcases List.mem_pair.mp member with rfl | rfl
        · exact (Decimal.isWord_iff _).mpr ⟨_, isFirst⟩
        · exact (Decimal.isWord_iff _).mpr ⟨_, isSecond⟩
      · rw [List.map_cons, List.map_singleton, List.sum_pair, Decimal.value_of_toWord? isFirst,
          Decimal.value_of_toWord? isSecond, two_mul]
        push_cast
        rfl

/-- The job of the two accounts ends, and its window asks for more than a word can hold. -/
theorem exists_runJob_large : ∃ done after window,
    distributor.runJob largeLedger "job" = .ok (done, after) ∧ done.status = .done ∧
      after.windows.find? (distributor.line, done.windowIndex) = some window ∧
      Decimal.parseInteger "rewardsToDeposit" window.rewardsToDeposit =
        .ok (.ofInt (2 * largeUnits : Nat)) := by
  obtain ⟨totals, isTotals, nonempty, words, isSum⟩ := exists_totals_large
  obtain ⟨commit, prepared⟩ := (Distributor.exists_prepare_iff isTotals).mpr ⟨nonempty, words⟩
  obtain ⟨done, written, isDone, index, committed, ran⟩ :=
    (Ledger.consistent_run largeOperations).exists_runJob beginJob_large prepared
  have stands := Distributor.find?_windows_of_commit prepared committed
  exact ⟨done, _, commit.window, ran, isDone, index ▸ stands,
    Distributor.deposit_of_prepare isTotals prepared isSum⟩

end Trial

namespace Ledger

/-- What a job asks for need not fit a word, although what each of its recipients gets does. -/
theorem deposit_exceeds_word :
    ¬ ∀ (operations : List Operation) (distributor : Distributor) (jobId : String) (done : Job)
        (after : Ledger), distributor.runJob (Ledger.empty.run operations) jobId =
          .ok (done, after) → done.status = .done →
        ∃ window total, after.windows.find? (distributor.line, done.windowIndex) = some window ∧
          Decimal.parseInteger "rewardsToDeposit" window.rewardsToDeposit = .ok (.ofInt total) ∧
          0 < total ∧ total < twoTo 256 := by
  intro claimed
  obtain ⟨done, after, window, ran, isDone, stands, deposit⟩ := Trial.exists_runJob_large
  obtain ⟨same, total, alsoStands, alsoDeposit, -, fits⟩ :=
    claimed Trial.largeOperations Trial.distributor "job" done after ran isDone
  obtain rfl := Option.some.inj (stands.symm.trans alsoStands)
  obtain rfl : ((2 * Trial.largeUnits : Nat) : ℤ) = total :=
    congrArg Decimal.mantissa (Except.ok.inj (deposit.symm.trans alsoDeposit))
  exact absurd fits (by decide)

end Ledger

end BridgeRewards
