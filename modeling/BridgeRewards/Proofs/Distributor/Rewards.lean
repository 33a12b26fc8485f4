import BridgeRewards.Distributor.Build
import BridgeRewards.Proofs.Deposit.Valuation
import BridgeRewards.Proofs.Ledger.Commit
import BridgeRewards.Proofs.Reward.Total

/-!
# The rewards of a window

The rewards that a distributor sums up for a job are those of the eligible deposits of the ledger,
one for each and in key order (`forall₂_of_rewardsBy`).  Each is a product of a fee, the
multiplier of its day and, for referrals, the rate of the referrer's tier, converted at the price
of the reward token (`compute_eq_ok`).
-/

set_option autoImplicit false

namespace BridgeRewards

namespace RewardContext

variable {context : RewardContext} {d : Deposit} {values : PricedDeposit} {reward : DepositReward}

/-- A deposit is rewarded if it has a recipient, its reward in dollars can be computed and the
reward token has a positive price. -/
theorem compute_eq_ok :
    context.compute d values = .ok reward ↔
      ∃ recipient usd versions, d.rewardRecipient context.kind = some recipient ∧
        context.rewardUsd recipient values = .ok (usd, versions) ∧
        0 < values.rewardTokenUsdPrice ∧
        reward = ⟨values.key, recipient, usd,
          toUnits usd values.rewardTokenUsdPrice context.rewardTokenDecimals, versions⟩ := by
  unfold compute
  cases d.rewardRecipient context.kind with
  | none => simp [throw, throwThe, MonadExceptOf.throw]
  | some recipient =>
      simp only [Option.some.injEq, Outcome.bind_eq_ok, Prod.exists, exists_and_left,
        exists_eq_left']
      refine exists_congr fun usd => exists_congr fun versions => and_congr_right fun _ => ?_
      by_cases positive : 0 < values.rewardTokenUsdPrice
      · simp [positive, pure, Except.pure, eq_comm]
      · simp [positive, throw, throwThe, MonadExceptOf.throw]

/-- The reward of a deposit in a context: it has values, and its reward is computed from them. -/
def Rewards (context : RewardContext) (d : Deposit) (reward : DepositReward) : Prop :=
  ∃ values, d.Valued values ∧ context.compute d values = .ok reward

/-- A candidate is rewarded if it has prices and passed over if it has none; without fees it is
neither. -/
theorem of_rewardOf? {cutoff : Instant} {outcome : Option DepositReward}
    (candidate : d.isCandidate context.kind cutoff = true)
    (h : context.rewardOf? d = .ok outcome) :
    (d.isPriced = true ∧ ∃ reward, outcome = some reward ∧ context.Rewards d reward) ∨
      (d.isPriced = false ∧ outcome = none) := by
  obtain ⟨filled, -, free, -⟩ := Deposit.isCandidate_iff.mp candidate
  obtain ⟨standing, isStanding, h⟩ := Outcome.bind_eq_ok.mp h
  unfold Standing.ofDeposit at isStanding
  rw [if_pos filled, free] at isStanding
  cases valued : PricedDeposit.ofDeposit d with
  | error e =>
      rw [valued] at isStanding
      cases isStanding
  | ok outcome =>
      rw [valued] at isStanding
      cases outcome with
      | none =>
          by_cases charged : d.fees.isSome = true
          · have present : d.fees.isNone = false := by simpa using charged
            simp only [present, Bool.false_eq_true, if_false] at isStanding
            cases isStanding
            cases h
            exact .inr ⟨PricedDeposit.isPriced_of_ofDeposit charged filled valued, rfl⟩
          · have absent : d.fees.isNone = true := by simpa using charged
            simp only [absent, if_true] at isStanding
            cases isStanding
      | some values =>
          cases isStanding
          obtain ⟨reward, computed, equal⟩ := Outcome.map_eq_ok.mp h
          cases equal
          exact .inl ⟨(PricedDeposit.of_ofDeposit valued).2.1, reward, rfl, values, valued,
            computed⟩

/-- Of the outcomes for all candidates, the rewards are those of the eligible deposits. -/
theorem forall₂_of_rewardOf? {cutoff : Instant} {deposits : List Deposit}
    {outcomes : List (Option DepositReward)}
    (all : List.Forall₂ (fun d outcome => context.rewardOf? d = .ok outcome)
      (deposits.filter fun d => d.isCandidate context.kind cutoff) outcomes) :
    List.Forall₂ context.Rewards
      (deposits.filter fun d => d.isEligible context.kind cutoff) (outcomes.filterMap id) := by
  induction deposits generalizing outcomes with
  | nil =>
      cases all
      exact .nil
  | cons d rest ih =>
      rw [List.filter_cons] at all ⊢
      by_cases candidate : d.isCandidate context.kind cutoff = true
      · rw [if_pos candidate] at all
        cases all with
        | cons first others =>
            have later := ih others
            rcases of_rewardOf? candidate first with
              ⟨priced, reward, rfl, rewarded⟩ | ⟨unpriced, rfl⟩
            · rw [if_pos (by simp [Deposit.isEligible, candidate, priced])]
              exact .cons rewarded later
            · rw [if_neg (by simp [Deposit.isEligible, unpriced])]
              exact later
      · rw [if_neg candidate] at all
        rw [if_neg (by simp [Deposit.isEligible, candidate])]
        exact ih all

/-- The rewards of a window are those of the eligible deposits, one for each, in their order. -/
theorem forall₂_of_rewardsBy {cutoff : Instant} {deposits : List Deposit}
    {rewards : List DepositReward}
    (h : context.rewardsBy cutoff deposits = .ok rewards) :
    List.Forall₂ context.Rewards
      (deposits.filter fun d => d.isEligible context.kind cutoff) rewards := by
  obtain ⟨outcomes, all, h⟩ := Outcome.bind_eq_ok.mp h
  obtain rfl := Except.ok.inj h
  exact forall₂_of_rewardOf? (Outcome.mapM_eq_ok.mp all)

theorem Rewards.of {context : RewardContext} (rewarded : context.Rewards d reward) :
    reward.deposit = d.key ∧ d.rewardRecipient context.kind = some reward.recipient := by
  obtain ⟨values, valued, computed⟩ := rewarded
  obtain ⟨recipient, usd, versions, isRecipient, -, -, rfl⟩ := compute_eq_ok.mp computed
  exact ⟨(PricedDeposit.of_ofDeposit valued).2.2.1, isRecipient⟩

end RewardContext

/-- The deposits that a job has to reward: those that are filled and priced, made no later than
the cutoff, without a window of the kind and with someone to receive the reward. -/
def Ledger.due (ledger : Ledger) (config : JobConfig) : List Deposit :=
  ledger.deposits.values.filter fun d => d.isEligible config.kind config.maxDepositDate

namespace Distributor

variable {distributor : Distributor} {ledger : Ledger} {config : JobConfig}
  {totals : List RecipientTotal}

theorem context_eq_ok {kind : RewardType} {context : RewardContext} :
    distributor.context ledger kind = .ok context ↔
      ∃ volumes, VolumeIndex.build ledger.deposits.values ledger.claimedWindows = .ok volumes ∧
        context = ⟨kind, distributor.rules, volumes, distributor.settings.rewardTokenDecimals⟩ := by
  unfold Distributor.context
  rw [Outcome.bind_eq_ok]
  refine exists_congr fun volumes => and_congr_right fun _ => ?_
  exact ⟨fun h => (Except.ok.inj h).symm, fun h => congrArg Except.ok h.symm⟩

theorem kind_of_context {kind : RewardType} {context : RewardContext}
    (h : distributor.context ledger kind = .ok context) : context.kind = kind := by
  obtain ⟨volumes, -, rfl⟩ := context_eq_ok.mp h
  rfl

/-- The totals of a job are those to be paid over the rewards of the due deposits. -/
theorem exists_rewards_of_totals
    (h : distributor.totals ledger config = .ok totals) :
    ∃ context rewards, distributor.context ledger config.kind = .ok context ∧
      List.Forall₂ context.Rewards (ledger.due config) rewards ∧
      (Totals.ofRewards rewards).finish = .ok totals := by
  obtain ⟨context, isContext, h⟩ := Outcome.bind_eq_ok.mp h
  obtain ⟨rewards, isRewards, h⟩ := Outcome.bind_eq_ok.mp h
  refine ⟨context, rewards, isContext, ?_, h⟩
  unfold Ledger.due
  rw [← kind_of_context isContext]
  exact RewardContext.forall₂_of_rewardsBy isRewards

theorem nodup_key_due (keyed : ledger.Keyed) (config : JobConfig) :
    ((ledger.due config).map (·.key)).Nodup :=
  keyed.nodup_key.sublist (List.filter_sublist.map _)

end Distributor

end BridgeRewards
