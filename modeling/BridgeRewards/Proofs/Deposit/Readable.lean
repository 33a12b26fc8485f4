import BridgeRewards.Proofs.Decimal.Number
import BridgeRewards.Proofs.Deposit.Valuation

/-!
# Which values can be computed

A filled deposit with prices and fees has values exactly if the numbers that they are computed
from are written as such (`exists_valued_iff`).  Its volume is then the amount in whole tokens at
the price of the token (`value_usdVolume_of_valued`).
-/

set_option autoImplicit false

namespace BridgeRewards

namespace Deposit

/-- Whether the numbers are well formed that the values of a deposit are computed from. -/
def isReadable (d : Deposit) : Bool :=
  Decimal.isIntegerText d.inputAmount &&
    d.price.all (fun price => Decimal.isDecimalText price.tokenUsdPrice &&
      Decimal.isDecimalText price.rewardTokenUsdPrice) &&
    d.fees.all fun fees => Decimal.isIntegerText fees.realizedLpFeePct &&
      Decimal.isIntegerText fees.bridgeFeePct

/-- The volume of a deposit in dollars: its amount in whole tokens, at the price of the token. -/
def dollars (d : Deposit) : ℚ :=
  match d.price with
  | some price =>
    Decimal.numberOf d.inputAmount / 10 ^ price.decimals * Decimal.numberOf price.tokenUsdPrice
  | none => 0

end Deposit

namespace PricedDeposit

variable {d : Deposit} {values : PricedDeposit} {price : PriceSnapshot} {fees : FeeBreakdown}

/-- Values can be computed at some prices and fees if all five numbers can be read. -/
theorem exists_value_iff :
    (∃ values, value d price fees = .ok values) ↔
      Decimal.isIntegerText d.inputAmount = true ∧
        Decimal.isDecimalText price.tokenUsdPrice = true ∧
        Decimal.isDecimalText price.rewardTokenUsdPrice = true ∧
        Decimal.isIntegerText fees.realizedLpFeePct = true ∧
        Decimal.isIntegerText fees.bridgeFeePct = true := by
  rw [← Decimal.exists_parseInteger_iff "inputAmount",
    ← Decimal.exists_parse_iff "tokenUsdPrice",
    ← Decimal.exists_parse_iff "rewardTokenUsdPrice",
    ← Decimal.exists_parseInteger_iff "realizedLpFeePct",
    ← Decimal.exists_parseInteger_iff "bridgeFeePct"]
  unfold value
  constructor
  · rintro ⟨values, h⟩
    obtain ⟨amount, isAmount, h⟩ := Outcome.bind_eq_ok.mp h
    obtain ⟨tokenPrice, isTokenPrice, h⟩ := Outcome.bind_eq_ok.mp h
    obtain ⟨rewardPrice, isRewardPrice, h⟩ := Outcome.bind_eq_ok.mp h
    obtain ⟨lpPct, isLpPct, h⟩ := Outcome.bind_eq_ok.mp h
    obtain ⟨bridgePct, isBridgePct, -⟩ := Outcome.bind_eq_ok.mp h
    exact ⟨⟨amount, isAmount⟩, ⟨tokenPrice, isTokenPrice⟩, ⟨rewardPrice, isRewardPrice⟩,
      ⟨lpPct, isLpPct⟩, ⟨bridgePct, isBridgePct⟩⟩
  · rintro ⟨⟨amount, isAmount⟩, ⟨tokenPrice, isTokenPrice⟩, ⟨rewardPrice, isRewardPrice⟩,
      ⟨lpPct, isLpPct⟩, ⟨bridgePct, isBridgePct⟩⟩
    rw [isAmount, isTokenPrice, isRewardPrice, isLpPct, isBridgePct]
    exact ⟨_, rfl⟩

theorem value_usdVolume (h : value d price fees = .ok values) :
    values.usdVolume.value =
      Decimal.numberOf d.inputAmount / 10 ^ price.decimals *
        Decimal.numberOf price.tokenUsdPrice := by
  unfold value at h
  obtain ⟨amount, isAmount, h⟩ := Outcome.bind_eq_ok.mp h
  obtain ⟨tokenPrice, isTokenPrice, h⟩ := Outcome.bind_eq_ok.mp h
  obtain ⟨rewardPrice, -, h⟩ := Outcome.bind_eq_ok.mp h
  obtain ⟨lpPct, -, h⟩ := Outcome.bind_eq_ok.mp h
  obtain ⟨bridgePct, -, h⟩ := Outcome.bind_eq_ok.mp h
  cases h
  have unit : (Decimal.inversePowerOfTen price.decimals).value = ((10 : ℚ) ^ price.decimals)⁻¹ := by
    simp [Decimal.value, Decimal.inversePowerOfTen]
  rw [Decimal.value_mul, Decimal.toTokenUnits, Decimal.value_mul, unit,
    Decimal.value_of_parseInteger isAmount, Decimal.value_of_parse isTokenPrice, div_eq_mul_inv]

theorem value_rewardTokenUsdPrice (h : value d price fees = .ok values) :
    values.rewardTokenUsdPrice.value = Decimal.numberOf price.rewardTokenUsdPrice := by
  unfold value at h
  obtain ⟨amount, -, h⟩ := Outcome.bind_eq_ok.mp h
  obtain ⟨tokenPrice, -, h⟩ := Outcome.bind_eq_ok.mp h
  obtain ⟨rewardPrice, isRewardPrice, h⟩ := Outcome.bind_eq_ok.mp h
  obtain ⟨lpPct, -, h⟩ := Outcome.bind_eq_ok.mp h
  obtain ⟨bridgePct, -, h⟩ := Outcome.bind_eq_ok.mp h
  cases h
  exact Decimal.value_of_parse isRewardPrice

/-- A filled deposit with prices and fees has values exactly if its numbers are well formed. -/
theorem exists_valued_iff (filled : d.isFilled = true) (priced : d.isPriced = true)
    (charged : d.fees.isSome = true) :
    (∃ values, d.Valued values) ↔ d.isReadable = true := by
  obtain ⟨price, hasPrice⟩ := Option.isSome_iff_exists.mp priced
  obtain ⟨fees, hasFees⟩ := Option.isSome_iff_exists.mp charged
  have known := @exists_value_iff d price fees
  unfold Deposit.Valued Deposit.isReadable
  rw [ofDeposit_eq filled charged, hasPrice]
  simp only [hasFees, Option.get_some, Option.all_some, Bool.and_eq_true, and_assoc]
  rw [← known]
  exact exists_congr fun values => by simp [Outcome.map_eq_ok]

theorem exists_value_of_valued (valued : d.Valued values) :
    ∃ price fees, d.price = some price ∧ d.fees = some fees ∧ value d price fees = .ok values := by
  unfold Deposit.Valued at valued
  obtain ⟨filled, priced, -⟩ := of_ofDeposit valued
  obtain ⟨price, hasPrice⟩ := Option.isSome_iff_exists.mp priced
  have charged := charged_of_ofDeposit valued
  rw [ofDeposit_eq filled charged, hasPrice] at valued
  obtain ⟨same, computed, equal⟩ := Outcome.map_eq_ok.mp valued
  obtain rfl := Option.some.inj equal
  exact ⟨price, _, hasPrice, (Option.some_get charged).symm, computed⟩

theorem value_usdVolume_of_valued (valued : d.Valued values) :
    values.usdVolume.value = d.dollars := by
  obtain ⟨price, fees, hasPrice, -, computed⟩ := exists_value_of_valued valued
  rw [value_usdVolume computed, Deposit.dollars, hasPrice]

end PricedDeposit

end BridgeRewards
