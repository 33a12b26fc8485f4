import BridgeRewards.Proofs.Distributor.Failure
import BridgeRewards.Proofs.Distributor.Jobs
import BridgeRewards.Proofs.Distributor.Payout
import BridgeRewards.Proofs.Reward.Index

/-!
# What can stand in the way of a window

If all numbers of the filled deposits can be read, then few causes are left for which a window
cannot be prepared (`RewardRules.Obstacle`): the reward token is worth nothing, no version of the
rules is in force, a sum is negative or no word, or there is no one to pay
(`Distributor.obstacle_prepare`).  In particular no address stands twice among the totals, and
every leaf of the tree belongs to a total.
-/

set_option autoImplicit false

namespace BridgeRewards

open Outcome (FailsWith failsWith_ok failsWith_error failsWith_of_eq_ok)

/-- What can stand in the way of a window of some kind for the deposits that are due. -/
inductive RewardRules.Obstacle (rules : RewardRules) (kind : RewardType) (due : List Deposit) :
    RewardError → Prop
  /-- At the price of the reward token for a due deposit there is nothing to convert to. -/
  | worthless {d : Deposit} {price : PriceSnapshot} (isDue : d ∈ due)
      (hasPrice : d.price = some price)
      (notPositive : Decimal.numberOf price.rewardTokenUsdPrice ≤ 0) :
      Obstacle rules kind due (.missingRewardPrice d.key)
  /-- No version is in force when a due deposit is made. -/
  | silent {d : Deposit} (isDue : d ∈ due) (silent : rules.SilentAt kind d.depositDate) :
      Obstacle rules kind due (.noEffectiveVersion d.depositDate)
  | negative {address : Address} {amount : Decimal} (negative : amount < 0) :
      Obstacle rules kind due (.negativeAggregate address amount)
  | empty : Obstacle rules kind due .emptyWindow
  | unfit {amount : Decimal} (unfit : amount.toWord? = none) :
      Obstacle rules kind due (.amountOutOfRange amount)

/-! ## The rewards of deposits -/

namespace RewardContext

variable {context : RewardContext} {due : List Deposit} {d : Deposit} {values : PricedDeposit}

theorem obstacle_rewardUsd (isDue : d ∈ due) (recipient : Address)
    (date : values.depositDate = d.depositDate) :
    FailsWith (context.rules.Obstacle context.kind due) (context.rewardUsd recipient values) := by
  refine (context.failsWith_silent values recipient).mono fun e cause => ?_
  obtain ⟨rfl, silent⟩ := cause
  rw [date] at silent ⊢
  exact .silent isDue silent

/-- The reward of a due deposit with values fails only at the rules or at the reward price. -/
theorem obstacle_compute (isDue : d ∈ due) (valued : d.Valued values)
    (receives : (d.rewardRecipient context.kind).isSome = true) :
    FailsWith (context.rules.Obstacle context.kind due) (context.compute d values) := by
  obtain ⟨recipient, isRecipient⟩ := Option.isSome_iff_exists.mp receives
  obtain ⟨-, -, key, -, date⟩ := PricedDeposit.of_ofDeposit valued
  obtain ⟨price, fees, hasPrice, -, computed⟩ := PricedDeposit.exists_value_of_valued valued
  unfold compute
  rw [isRecipient]
  refine (obstacle_rewardUsd isDue recipient date).bind fun usd => ?_
  dsimp only
  split
  · exact failsWith_ok _
  · next notPositive =>
      rw [key]
      refine failsWith_error (.worthless isDue hasPrice ?_)
      rw [← PricedDeposit.value_rewardTokenUsdPrice computed, ← not_lt, ← Decimal.value_zero,
        ← Decimal.lt_iff_value_lt]
      exact notPositive

/-- A candidate whose numbers can be read is passed over if it has no prices. -/
theorem obstacle_rewardOf? {cutoff : Instant}
    (candidate : d.isCandidate context.kind cutoff = true) (charged : d.fees.isSome = true)
    (readable : d.isReadable = true) (isDue : d.isPriced = true → d ∈ due) :
    FailsWith (context.rules.Obstacle context.kind due) (context.rewardOf? d) := by
  obtain ⟨filled, -, free, receives⟩ := Deposit.isCandidate_iff.mp candidate
  by_cases priced : d.isPriced = true
  · obtain ⟨values, valued⟩ :=
      (PricedDeposit.exists_valued_iff filled priced charged).mpr readable
    have standing : Standing.ofDeposit d context.kind = .ok (.priced values) := by
      rw [Standing.ofDeposit, if_pos filled, free]
      dsimp only
      rw [valued]
    rw [rewardOf?, standing]
    exact (obstacle_compute (isDue priced) valued receives).map
  · have noValues := PricedDeposit.ofDeposit_of_incomplete fun both : d.isPriced = true ∧ _ =>
      priced both.1
    have standing : Standing.ofDeposit d context.kind = .ok .unpriced := by
      rw [Standing.ofDeposit, if_pos filled, free]
      dsimp only
      rw [noValues]
      simp [Option.isSome_iff_ne_none.mp charged]
    rw [rewardOf?, standing]
    exact failsWith_ok _

end RewardContext

/-! ## The totals -/

/-- The filled deposits of a ledger have fees, and their numbers can be read. -/
def Ledger.Readable (ledger : Ledger) : Prop :=
  ∀ d ∈ ledger.deposits.values, d.isFilled = true → d.fees.isSome = true ∧ d.isReadable = true

namespace Distributor

variable {distributor : Distributor} {ledger : Ledger} {config : JobConfig}

theorem exists_context (readable : ledger.Readable) (kind : RewardType) :
    ∃ context, distributor.context ledger kind = .ok context := by
  have built : ∃ volumes, VolumeIndex.build ledger.deposits.values ledger.claimedWindows =
      .ok volumes := by
    refine VolumeIndex.exists_build_iff.mpr fun d member referral counts _ => ?_
    simp only [Deposit.countsFor, Bool.and_eq_true] at counts
    exact (readable d member counts.1.1.2).2
  obtain ⟨volumes, built⟩ := built
  exact ⟨_, context_eq_ok.mpr ⟨volumes, built, rfl⟩⟩

theorem obstacle_totals (readable : ledger.Readable) :
    FailsWith (distributor.rules.Obstacle config.kind (ledger.due config))
      (distributor.totals ledger config) := by
  obtain ⟨known, isKnown⟩ := @exists_context distributor _ readable config.kind
  refine (failsWith_of_eq_ok isKnown).bind_of_eq_ok fun context isContext => ?_
  obtain ⟨volumes, -, rfl⟩ := context_eq_ok.mp isContext
  have negative : ∀ e, (∃ address amount, e = RewardError.negativeAggregate address amount ∧
      amount < 0) → distributor.rules.Obstacle config.kind (ledger.due config) e := by
    rintro e ⟨address, amount, rfl, negative⟩
    exact .negative negative
  refine FailsWith.bind (FailsWith.bind (FailsWith.mapM_of_mem fun d member => ?_) fun _ =>
    failsWith_ok _) fun rewards => (Totals.failsWith_payable _).mono negative
  obtain ⟨isValue, candidate⟩ := List.mem_filter.mp member
  obtain ⟨charged, isReadable⟩ := readable d isValue (Deposit.isCandidate_iff.mp candidate).1
  refine RewardContext.obstacle_rewardOf? candidate charged isReadable fun priced => ?_
  exact List.mem_filter.mpr ⟨isValue, Deposit.isEligible_iff.mpr ⟨candidate, priced⟩⟩

end Distributor

/-! ## The tree -/

/-- Totals with increasing addresses are refused only for lack of recipients or for a number that
is no word. -/
theorem WindowTree.obstacle_build {rules : RewardRules} {kind : RewardType} {due : List Deposit}
    {totals : List Total} (increasing : totals.Pairwise fun a b => a.address < b.address) :
    FailsWith (rules.Obstacle kind due) (build totals) := by
  refine (failsWith_build totals).mono fun e cause => ?_
  cases cause with
  | empty none => exact .empty
  | repeated twice =>
      rw [inOrder_of_pairwise (increasing.imp Nat.le_of_lt),
        firstRepeated_of_pairwise increasing] at twice
      cases twice
  | unfit unfit => exact .unfit unfit

namespace Distributor

variable {distributor : Distributor} {ledger : Ledger} {job : Job}

theorem exists_ofLeaf {rewards : List DepositReward} {totals : List RecipientTotal}
    {tree : WindowTree} {proven : ProvenLeaf}
    (paid : (Totals.ofRewards rewards).finish = .ok totals)
    (built : WindowTree.build (totals.map RecipientTotal.total) = .ok tree)
    (member : proven ∈ tree.leaves) (index : Nat) (kind : RewardType) :
    ∃ recipient, Recipient.ofLeaf index kind totals proven = .ok recipient := by
  have isAccount : proven.leaf.account ∈ totals.map (·.address) := by
    rw [← map_account_of_finish paid built]
    exact List.mem_map_of_mem (f := fun proven : ProvenLeaf => proven.leaf.account) member
  obtain ⟨t, isTotal, address⟩ := List.mem_map.mp isAccount
  cases found : totals.find? (·.address == proven.leaf.account) with
  | none => exact (List.find?_eq_none.mp found t isTotal (beq_iff_eq.mpr address)).elim
  | some t => exact ⟨_, Recipient.ofLeaf_eq_ok.mpr ⟨t, found, rfl⟩⟩

/-- **What can stand in the way of a window.**  If the numbers of the filled deposits can be read,
a window can be prepared unless there is one of the obstacles. -/
theorem obstacle_prepare (readable : ledger.Readable) :
    FailsWith (distributor.rules.Obstacle job.config.kind (ledger.due job.config))
      (distributor.prepare ledger job) := by
  refine (obstacle_totals readable).bind_of_eq_ok fun totals isTotals => ?_
  obtain ⟨context, rewards, -, -, paid⟩ := exists_rewards_of_totals isTotals
  have increasing : (totals.map RecipientTotal.total).Pairwise fun a b => a.address < b.address :=
    List.pairwise_map.mpr (Totals.pairwise_address_of_finish paid)
  refine (WindowTree.obstacle_build increasing).bind_of_eq_ok fun tree built => ?_
  refine FailsWith.bind (FailsWith.mapM_of_mem fun proven member => ?_) fun _ => failsWith_ok _
  obtain ⟨recipient, row⟩ := exists_ofLeaf paid built member job.windowIndex job.config.kind
  exact failsWith_of_eq_ok row

/-- What is prepared for a free place is committed, so nothing else stands in the way. -/
theorem obstacle_buildWindow (keyed : ledger.Keyed) (readable : ledger.Readable)
    (free : ledger.windows.find? (distributor.line, job.windowIndex) = none) {e : RunError}
    (failed : distributor.buildWindow ledger job = .error e) :
    ∃ cause, e = .reward cause ∧
      distributor.rules.Obstacle job.config.kind (ledger.due job.config) cause := by
  cases prepared : distributor.prepare ledger job with
  | error cause =>
      unfold buildWindow at failed
      rw [prepared] at failed
      exact ⟨cause, (Except.error.inj failed).symm, obstacle_prepare readable cause prepared⟩
  | ok commit =>
      obtain ⟨written, committed⟩ := exists_commit_of_prepare keyed prepared free
      rw [buildWindow_eq_ok.mpr ⟨prepared, committed⟩] at failed
      cases failed

end Distributor

end BridgeRewards
