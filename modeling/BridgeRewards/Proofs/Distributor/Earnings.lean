import BridgeRewards.Proofs.Distributor.Rewards
import BridgeRewards.Proofs.Ledger.Claims
import BridgeRewards.Proofs.Reward.Volume

/-!
# What a deposit earns

The reward of a deposit by definition: a fee of the deposit in dollars times the multiplier of its
day, and for referrals also times the rate of the tier that the referrer has reached, where what
the referrer has brought is counted over all deposits of the ledger (`Ledger.Brought`).  In units
it is that many dollars at the price of the reward token, cut off toward zero.  The rewards that a
distributor computes with its index are these (`earns_of_context`).
-/

set_option autoImplicit false

namespace BridgeRewards

/-- What a referrer has brought up to an instant: the different depositors and the volume of all
deposits with this referrer that are filled, priced, made no later and not paid out in a window
that the referrer has claimed. -/
def Ledger.Brought (ledger : Ledger) (referral : Address) (instant : Instant)
    (reached : ReferralVolume) : Prop :=
  ∃ values, List.Forall₂ Deposit.Valued (ledger.deposits.values.filter fun d =>
      d.countsFor referral (ledger.claimedBy referral) && d.madeBy instant) values ∧
    reached = .ofValues values

namespace Distributor

variable {distributor : Distributor} {ledger : Ledger} {kind : RewardType} {d : Deposit}

/-- The reward of a deposit in dollars, with the versions of the rules that it comes from. -/
def UsdFor (distributor : Distributor) (ledger : Ledger) (kind : RewardType) (d : Deposit)
    (values : PricedDeposit) (usd : Decimal) (versions : List String) : Prop :=
  ∃ multiplier multiplierVersion,
    MultiplierSchedule.multiplierAt distributor.rules.multipliers d.depositDate =
      .ok (multiplier, multiplierVersion) ∧
    match kind with
    | .lpFee =>
      usd = values.lpFeeUsd.mulNormalized multiplier.toDecimal ∧ versions = [multiplierVersion]
    | .bridgeFee =>
      usd = values.bridgeFeeUsd.mulNormalized multiplier.toDecimal ∧ versions = [multiplierVersion]
    | .referral =>
      ∃ referral reached rate tierVersion, d.stickyReferralAddress = some referral ∧
        ledger.Brought referral d.depositDate reached ∧
        TierSchedule.rateAt distributor.rules.tiers d.depositDate reached.count reached.volume =
          .ok (rate, tierVersion) ∧
        usd = values.lpFeeUsd * rate.toDecimal * multiplier.toDecimal ∧
        versions = [tierVersion, multiplierVersion]

/-- The reward that a deposit earns. -/
structure Earns (distributor : Distributor) (ledger : Ledger) (kind : RewardType) (d : Deposit)
    (reward : DepositReward) : Prop where
  deposit : reward.deposit = d.key
  recipient : d.rewardRecipient kind = some reward.recipient
  /-- The dollars are converted at a positive price to units, and cut off toward zero. -/
  units : ∃ values, d.Valued values ∧
    distributor.UsdFor ledger kind d values reward.rewardUsd reward.scheduleVersions ∧
    0 < values.rewardTokenUsdPrice ∧
    reward.rewardUnits = (reward.rewardUsd / values.rewardTokenUsdPrice *
      .powerOfTen distributor.settings.rewardTokenDecimals).truncate

/-- The index of a distributor tells what each referrer has brought. -/
theorem brought_upTo (sound : ledger.Sound) {volumes : VolumeIndex}
    (built : VolumeIndex.build ledger.deposits.values ledger.claimedWindows = .ok volumes)
    (referral : Address) (instant : Instant) :
    ledger.Brought referral instant (volumes.upTo referral instant) := by
  have counted := VolumeIndex.upTo_of_build built referral instant
  rw [ledger.of_claimedWindows referral] at counted
  have same : ledger.deposits.values.filter (fun d =>
        d.countsFor referral (ledger.claimedBy referral) && d.fees.isSome && d.madeBy instant) =
      ledger.deposits.values.filter fun d =>
        d.countsFor referral (ledger.claimedBy referral) && d.madeBy instant :=
    List.filter_congr fun d member => by
      rw [Deposit.countsFor_and_charged (sound.of_mem_values member)]
  rwa [same] at counted

theorem usdFor_of_rewardUsd (sound : ledger.Sound)
    {context : RewardContext} (isContext : distributor.context ledger kind = .ok context)
    {values : PricedDeposit} (valued : d.Valued values) {recipient : Address}
    (receives : d.rewardRecipient kind = some recipient) {usd : Decimal} {versions : List String}
    (h : context.rewardUsd recipient values = .ok (usd, versions)) :
    distributor.UsdFor ledger kind d values usd versions := by
  obtain ⟨volumes, built, rfl⟩ := context_eq_ok.mp isContext
  have date := (PricedDeposit.of_ofDeposit valued).2.2.2.2
  obtain ⟨⟨multiplier, multiplierVersion⟩, isMultiplier, h⟩ := Outcome.bind_eq_ok.mp h
  rw [date] at isMultiplier
  refine ⟨multiplier, multiplierVersion, isMultiplier, ?_⟩
  cases kind with
  | lpFee =>
      cases h
      exact ⟨rfl, rfl⟩
  | bridgeFee =>
      cases h
      exact ⟨rfl, rfl⟩
  | referral =>
      obtain ⟨⟨rate, tierVersion⟩, isRate, h⟩ := Outcome.bind_eq_ok.mp h
      cases h
      dsimp only at isRate
      rw [date] at isRate
      exact ⟨recipient, volumes.upTo recipient d.depositDate, rate, tierVersion, receives,
        brought_upTo sound built recipient d.depositDate, isRate, rfl, rfl⟩

/-- **Rewards by definition.**  What a distributor computes for a deposit is what it earns. -/
theorem earns_of_context (sound : ledger.Sound)
    {context : RewardContext} (isContext : distributor.context ledger kind = .ok context)
    {reward : DepositReward} (rewarded : context.Rewards d reward) :
    distributor.Earns ledger kind d reward := by
  obtain ⟨values, valued, computed⟩ := rewarded
  obtain ⟨recipient, usd, versions, receives, isUsd, positive, rfl⟩ :=
    RewardContext.compute_eq_ok.mp computed
  rw [kind_of_context isContext] at receives
  have decimals : context.rewardTokenDecimals = distributor.settings.rewardTokenDecimals := by
    obtain ⟨volumes, -, rfl⟩ := context_eq_ok.mp isContext
    rfl
  refine ⟨(PricedDeposit.of_ofDeposit valued).2.2.1, receives, values, valued, ?_, positive, ?_⟩
  · exact usdFor_of_rewardUsd sound isContext valued receives isUsd
  · rw [← decimals]
    rfl

end Distributor

end BridgeRewards
