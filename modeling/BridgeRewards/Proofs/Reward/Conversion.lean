import BridgeRewards.Proofs.Decimal.Division
import BridgeRewards.Proofs.Distributor.Rewards
import BridgeRewards.Proofs.Run.Consistent

/-!
# From dollars to units

A reward in dollars is divided by the price of the reward token, multiplied by a power of ten and
cut off to whole units.  The quotient is rounded behind one hundred digits before it is cut off, so
the units are the whole part of a rounded number (`units_of_compute`).  They are the largest number
of units that is worth no more than the dollars whenever there are no more than one hundred digits
to begin with, or the fraction is not close below one.  Otherwise the rounding can reach the next
unit, and then a unit too much is paid (`rounded_up_to_next_unit`).
-/

set_option autoImplicit false

namespace BridgeRewards

namespace RewardContext

variable {usd price : Decimal} {decimals : Nat}

/-- The units that dollars come to at a price, before anything is rounded or cut off. -/
def exactUnits (usd price : Decimal) (decimals : Nat) : ℚ :=
  usd.value * 10 ^ decimals / price.value

/-- The numbers of units that are worth no more than some dollars. -/
def Affordable (usd price : Decimal) (decimals : Nat) : Set ℤ :=
  {units | units * price.value ≤ usd.value * 10 ^ decimals}

theorem mem_affordable_iff (positive : 0 < price.value) {units : ℤ} :
    units ∈ Affordable usd price decimals ↔ (units : ℚ) ≤ exactUnits usd price decimals :=
  (le_div_iff₀ positive).symm

/-- The whole part of the exact number of units is the largest number that is affordable. -/
theorem isGreatest_affordable (positive : 0 < price.value) :
    IsGreatest (Affordable usd price decimals) ⌊exactUnits usd price decimals⌋ := by
  refine ⟨(mem_affordable_iff positive).mpr (Int.floor_le _), fun units affordable => ?_⟩
  exact Int.le_floor.mpr ((mem_affordable_iff positive).mp affordable)

theorem exactUnits_nonneg (nonneg : 0 ≤ usd.value) (positive : 0 < price.value) :
    0 ≤ exactUnits usd price decimals := by
  unfold exactUnits
  positivity

/-- **Units are the whole part of a rounded number.** -/
theorem exists_toUnits_eq (nonneg : 0 ≤ usd.value) (positive : 0 < price.value)
    (decimals : Nat) :
    ∃ rounded, RoundsTo (exactUnits usd price decimals) rounded ∧
      toUnits usd price decimals = .ofInt ⌊rounded⌋ := by
  have rounds := (Decimal.divide_rounds nonneg positive).mul_zpow decimals
  have isExact : usd.value / price.value * (10 : ℚ) ^ (decimals : ℤ) =
      exactUnits usd price decimals := by
    rw [exactUnits, zpow_natCast, div_mul_eq_mul_div]
  have isValue : (usd / price).value * (10 : ℚ) ^ (decimals : ℤ) =
      (usd / price * Decimal.powerOfTen decimals).value := by
    rw [Decimal.value_mul, Decimal.value_powerOfTen, zpow_natCast]
  rw [isExact, isValue] at rounds
  have roundedNonneg : 0 ≤ (usd / price * Decimal.powerOfTen decimals).value := by
    have reached : ((0 : ℤ) : ℚ) ≤ exactUnits usd price decimals := by
      rw [Int.cast_zero]
      exact exactUnits_nonneg nonneg positive
    have kept := rounds.le_of_le (by norm_num) reached
    rwa [Int.cast_zero] at kept
  exact ⟨_, rounds, congrArg Decimal.ofInt (Decimal.truncated_eq_floor roundedNonneg)⟩

/-- **What a reward in dollars that is not negative comes to in units.**  The price is positive, and
the units are the whole part of the exact number of units after it was rounded behind one hundred
digits.  So no more than the exact number and the error of rounding is paid, and less than one unit
and that error is lost; and the units are the largest affordable number if the exact number has no
more than one hundred digits, or if its fraction leaves room for the error. -/
theorem units_of_compute {context : RewardContext} {d : Deposit} {values : PricedDeposit}
    {reward : DepositReward} (computed : context.compute d values = .ok reward)
    (nonneg : 0 ≤ reward.rewardUsd.value) :
    let exact := exactUnits reward.rewardUsd values.rewardTokenUsdPrice context.rewardTokenDecimals
    let error := exact * (5 / 10 ^ 100)
    0 < values.rewardTokenUsdPrice.value ∧
    ∃ units : ℤ, reward.rewardUnits = .ofInt units ∧
      (∃ rounded, RoundsTo exact rounded ∧ units = ⌊rounded⌋) ∧
      exact - error - 1 < units ∧ units ≤ exact + error ∧
      (exact ≤ 10 ^ 99 → units = ⌊exact⌋ ∨ units = ⌊exact⌋ + 1) ∧
      (IsShort exact ∨ exact ≤ 10 ^ 99 ∧ exact + error < ⌊exact⌋ + 1 →
        IsGreatest (Affordable reward.rewardUsd values.rewardTokenUsdPrice
          context.rewardTokenDecimals) units) := by
  intro exact error
  obtain ⟨recipient, usd, versions, -, -, positive, isReward⟩ := compute_eq_ok.mp computed
  rw [Decimal.lt_iff_value_lt, Decimal.value_zero] at positive
  have isUnits : reward.rewardUnits = toUnits reward.rewardUsd values.rewardTokenUsdPrice
      context.rewardTokenDecimals := by rw [isReward]
  have exactNonneg : 0 ≤ exact := exactUnits_nonneg nonneg positive
  obtain ⟨rounded, rounds, isFloor⟩ :=
    exists_toUnits_eq nonneg positive context.rewardTokenDecimals
  have off : |rounded - exact| ≤ error := rounds.error_le exactNonneg
  obtain ⟨least, most⟩ := abs_le.mp off
  have below := Int.floor_le rounded
  have above := Int.lt_floor_add_one rounded
  refine ⟨positive, ⌊rounded⌋, isUnits.trans isFloor, ⟨rounded, rounds, rfl⟩, by linarith,
    by linarith, rounds.floor_eq_or exactNonneg, fun fine => ?_⟩
  have floors : ⌊rounded⌋ = ⌊exact⌋ := by
    rcases fine with short | ⟨fits, room⟩
    · rw [rounds.eq_of_isShort short]
    · exact rounds.floor_eq exactNonneg fits room
  rw [floors]
  exact isGreatest_affordable positive

end RewardContext

/-! ## Two prices

The liquidity fee of the deposit of the trial is a thousand dollars, which are tripled.  At a price
of seven dollars the units are the right ones.  At a price that exceeds three dollars in the hundred
and first place, one unit less than a thousand tokens would be right. -/

namespace Trial

/-- The deposit of the trial, filled for a fee of its whole amount, at a price of the reward
token. -/
def pricedAt (rewardPrice : String) : Deposit :=
  { deposit.toDeposit with
    status := .filled
    fees := some ⟨"1000000000000000000", "1000000000000000000", "0", "1000000000000000000"⟩
    price := some ⟨"T", 0, "1", rewardPrice, ⟨0⟩⟩ }

/-- What the deposit is worth. -/
def valuesAt (rewardPrice : Decimal) : PricedDeposit where
  key := deposit.key
  depositor := .zero
  referral := none
  depositDate := .epoch
  usdVolume := .ofInt 1000
  lpFeeUsd := ⟨1, -3⟩
  bridgeFeeUsd := ⟨1, -3⟩
  rewardTokenUsdPrice := rewardPrice

/-- A reward of three thousand dollars. -/
def rewardOf (units : Int) : DepositReward where
  deposit := deposit.key
  recipient := .zero
  rewardUsd := ⟨3, -3⟩
  rewardUnits := .ofInt units
  scheduleVersions := ["multipliers_v1"]

/-- Rewards of liquidity fees under the rules that apply when none are given. -/
def lpContext : RewardContext := ⟨.lpFee, .standard, ⟨.empty⟩, 18⟩

/-- A little more than three dollars. -/
def overThree : String := "3." ++ String.ofList (List.replicate 100 '0') ++ "3"

theorem valued_pricedAt_overThree :
    (pricedAt overThree).Valued (valuesAt ⟨3 * tenTo 101 + 3, 101⟩) := by
  unfold Deposit.Valued
  decide +kernel

end Trial

namespace RewardContext

theorem units_of_compute_trial :
    Trial.lpContext.compute (Trial.pricedAt "7") (Trial.valuesAt (.ofInt 7)) =
      .ok (Trial.rewardOf 428571428571428571428) ∧
    IsGreatest (Affordable ⟨3, -3⟩ (.ofInt 7) 18) 428571428571428571428 := by
  have computed : Trial.lpContext.compute (Trial.pricedAt "7") (Trial.valuesAt (.ofInt 7)) =
      .ok (Trial.rewardOf 428571428571428571428) := by decide +kernel
  have nonneg : 0 ≤ (Trial.rewardOf 428571428571428571428).rewardUsd.value :=
    Decimal.mantissa_nonneg_iff.mp (by decide)
  have isExact : exactUnits ⟨3, -3⟩ (.ofInt 7) 18 =
      ((3000000000000000000000 : Nat) : ℚ) / (7 : Nat) := by
    norm_num [exactUnits, Decimal.value, Decimal.ofInt]
  obtain ⟨-, units, isUnits, -, -, -, -, greatest⟩ := units_of_compute computed nonneg
  obtain rfl : 428571428571428571428 = units := congrArg Decimal.mantissa isUnits
  refine ⟨computed, greatest (.inr ⟨?_, RoundsTo.room_of_fraction isExact (by decide) (by decide)⟩)⟩
  exact isExact.trans_le (by norm_num)

/-- The units are not always the largest affordable number: at a price with many places a thousand
tokens are paid where one unit less would be right. -/
theorem rounded_up_to_next_unit :
    ¬ ∀ (context : RewardContext) (d : Deposit) (values : PricedDeposit) (reward : DepositReward),
      d.Valued values → context.compute d values = .ok reward → 0 ≤ reward.rewardUsd.value →
      ∃ units : ℤ, reward.rewardUnits = .ofInt units ∧
        IsGreatest (Affordable reward.rewardUsd values.rewardTokenUsdPrice
          context.rewardTokenDecimals) units := by
  intro claimed
  have computed : Trial.lpContext.compute (Trial.pricedAt Trial.overThree)
      (Trial.valuesAt ⟨3 * tenTo 101 + 3, 101⟩) =
        .ok (Trial.rewardOf 1000000000000000000000) := by decide +kernel
  obtain ⟨units, isUnits, affordable, -⟩ := claimed _ _ _ _ Trial.valued_pricedAt_overThree computed
    (Decimal.mantissa_nonneg_iff.mp (by decide))
  obtain rfl : 1000000000000000000000 = units := congrArg Decimal.mantissa isUnits
  norm_num [Affordable, Trial.rewardOf, Trial.valuesAt, Trial.lpContext, Decimal.value, tenTo]
    at affordable

end RewardContext

end BridgeRewards
