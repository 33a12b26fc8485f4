import BridgeRewards.Proofs.Distributor.Failure
import BridgeRewards.Proofs.Distributor.Kinds
import BridgeRewards.Proofs.Reward.Units
import BridgeRewards.Proofs.Reward.Volume

/-!
# What a window leaves to the next one

The deposits whose recipient comes out at zero are not assigned, and the next window of their kind
looks at them again.  It may count other volumes for referrers by then, since deposits with a
referral window that the referrer has claimed from do not count any more.  But a volume changes only
if some deposit of the referrer was assigned, and then the referrer was paid and none of the
referrer's deposits are left (`upTo_map`).  So what is left earns what it earned before
(`rewardOf?_eq_of_volumes`), which for each recipient sums up to zero
(`PaysOut.unitsOver_unpaid`), and where all sums are zero there is no total to pay
(`Totals.finish_eq_nil`).
-/

set_option autoImplicit false

namespace BridgeRewards

/-! ## Volumes -/

namespace VolumeIndex

variable {claimed : ClaimedWindows} {deposits : List Deposit} {change : Deposit → Deposit}
  {index later : VolumeIndex} {referral : Address}

/-- What a referrer has brought stays if the deposits of the referrer do, whatever becomes of those
of others. -/
theorem upTo_map (before : build deposits claimed = .ok index)
    (after : build (deposits.map change) claimed = .ok later)
    (referrer : ∀ d, (change d).stickyReferralAddress = d.stickyReferralAddress)
    (stays : ∀ d ∈ deposits, d.stickyReferralAddress = some referral → change d = d)
    (instant : Instant) : later.upTo referral instant = index.upTo referral instant := by
  obtain ⟨values, all, isTotal⟩ := upTo_of_build before referral instant
  obtain ⟨valuesAfter, allAfter, isTotalAfter⟩ := upTo_of_build after referral instant
  have ofReferrer : ∀ d : Deposit, (d.countsFor referral (claimed.of referral) &&
      d.fees.isSome && d.madeBy instant) = true → d.stickyReferralAddress = some referral := by
    intro d counts
    simp only [Deposit.countsFor, Deposit.referredBy, Bool.and_eq_true, beq_iff_eq] at counts
    exact counts.1.1.1.1.1
  have same : (deposits.map change).filter (fun d => d.countsFor referral (claimed.of referral) &&
      d.fees.isSome && d.madeBy instant) =
      deposits.filter fun d => d.countsFor referral (claimed.of referral) && d.fees.isSome &&
        d.madeBy instant := by
    rw [List.filter_map]
    refine (List.map_congr_left fun d member => ?_).trans ((List.map_id' _).trans
      (List.filter_congr fun d member => ?_))
    · obtain ⟨isDeposit, counts⟩ := List.mem_filter.mp member
      exact stays d isDeposit (referrer d ▸ ofReferrer _ counts)
    · by_cases isOwn : d.stickyReferralAddress = some referral
      · rw [Function.comp_apply, stays d member isOwn]
      · rw [Function.comp_apply, Bool.eq_false_iff.mpr fun counts => isOwn (ofReferrer d counts),
          Bool.eq_false_iff.mpr fun counts => isOwn (referrer d ▸ ofReferrer _ counts)]
  have valued : Relator.RightUnique Deposit.Valued := by
    intro d first second isFirst isSecond
    exact Option.some.inj (Except.ok.inj (isFirst.symm.trans isSecond))
  rw [same] at allAfter
  rw [isTotal, isTotalAfter, List.right_unique_forall₂' valued all allAfter]

end VolumeIndex

/-! ## Rewards -/

namespace RewardContext

variable {context : RewardContext} {volumes : VolumeIndex} {d : Deposit} {deposits : List Deposit}
  {payees : List Address}

/-- Volumes give a deposit what those of a context give it: the kind does not ask for volumes, or
the deposit's referrer has brought the same up to every instant. -/
def SameFor (context : RewardContext) (volumes : VolumeIndex) (d : Deposit) : Prop :=
  context.kind = .referral → ∀ referral, d.stickyReferralAddress = some referral → ∀ instant,
    volumes.upTo referral instant = context.volumes.upTo referral instant

theorem compute_eq_of_volumes (same : context.SameFor volumes d) (values : PricedDeposit) :
    compute { context with volumes } d values = context.compute d values := by
  obtain ⟨kind, rules, index, decimals⟩ := context
  cases kind with
  | lpFee => rfl
  | bridgeFee => rfl
  | referral =>
      unfold compute
      dsimp only
      cases receives : d.rewardRecipient .referral with
      | none => rfl
      | some recipient =>
          have volume := same rfl recipient receives
          dsimp only
          unfold rewardUsd
          dsimp only at volume ⊢
          rw [volume]

/-- A deposit has the same reward with other volumes if they agree on it, or if it has no prices. -/
theorem rewardOf?_eq_of_volumes (same : d.isPriced = true → context.SameFor volumes d) :
    rewardOf? { context with volumes } d = context.rewardOf? d := by
  unfold rewardOf?
  cases standing : Standing.ofDeposit d context.kind with
  | error e =>
      show Except.error e = Except.error e
      rfl
  | ok stands =>
      cases stands with
      | priced values =>
          have isPriced := (PricedDeposit.of_ofDeposit (Standing.valued_of_priced standing)).2.1
          change some <$> compute _ d values = some <$> _
          rw [compute_eq_of_volumes (same isPriced)]
      | _ =>
          -- without prices nothing is computed, so the two computations need not be compared
          show Except.ok none = Except.ok none
          rfl

theorem unitsFor_eq_of_volumes (same : context.SameFor volumes d) (address : Address) :
    unitsFor { context with volumes } address d = context.unitsFor address d := by
  unfold unitsFor
  simp only [compute_eq_of_volumes same]

theorem unitsOver_eq_of_volumes (same : ∀ d ∈ deposits, context.SameFor volumes d)
    (address : Address) :
    unitsOver { context with volumes } address deposits = context.unitsOver address deposits := by
  unfold unitsOver
  rw [List.map_congr_left fun d member => unitsFor_eq_of_volumes (same d member) address]

/-- There are rewards of a window exactly if each candidate has its own or is passed over. -/
theorem exists_rewardsBy_iff {cutoff : Instant} :
    (∃ rewards, context.rewardsBy cutoff deposits = .ok rewards) ↔
      ∀ d ∈ deposits, d.isCandidate context.kind cutoff = true →
        ∃ outcome, context.rewardOf? d = .ok outcome := by
  unfold rewardsBy
  constructor
  · rintro ⟨rewards, isRewards⟩ d member candidate
    obtain ⟨outcomes, all, -⟩ := Outcome.bind_eq_ok.mp isRewards
    obtain ⟨outcome, -, isOutcome⟩ := Outcome.exists_of_mem_left (Outcome.mapM_eq_ok.mp all)
      (List.mem_filter.mpr ⟨member, candidate⟩)
    exact ⟨outcome, isOutcome⟩
  · intro each
    have candidates : ∀ d ∈ deposits.filter (·.isCandidate context.kind cutoff),
        ∃ outcome, context.rewardOf? d = .ok outcome := fun d member =>
      each d (List.mem_filter.mp member).1 (List.mem_filter.mp member).2
    obtain ⟨outcomes, all⟩ := Outcome.exists_forall₂ candidates
    exact ⟨_, Outcome.bind_eq_ok.mpr ⟨outcomes, Outcome.mapM_eq_ok.mpr all, rfl⟩⟩

end RewardContext

/-! ## Nothing to pay -/

theorem Totals.finish_eq_nil {rewards : List DepositReward}
    (zero : ∀ address, (DepositReward.unitsOf address rewards).value = 0) :
    (ofRewards rewards).finish = .ok [] := by
  have amounts : ∀ t ∈ (ofRewards rewards).values, t.amount.value = 0 := by
    intro t member
    rw [(mem_values_ofRewards.mp member).2, RecipientTotal.amount_ofEarned]
    exact zero t.address
  refine payable_eq_ok.mpr
    ⟨fun t member => ?_, (List.filter_eq_nil_iff.mpr fun t member => ?_).symm⟩
  · rw [Decimal.lt_iff_value_lt, Decimal.value_zero, amounts t member]
    exact lt_irrefl 0
  · rw [(Decimal.isZero_iff_value_eq _).mpr (amounts t member)]
    exact Bool.false_ne_true

theorem Distributor.prepare_of_totals_eq_nil {distributor : Distributor} {ledger : Ledger}
    {job : Job} (none : distributor.totals ledger job.config = .ok []) :
    distributor.prepare ledger job = .error .emptyWindow := by
  unfold prepare
  rw [none]
  rfl

end BridgeRewards
