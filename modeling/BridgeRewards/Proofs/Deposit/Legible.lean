import BridgeRewards.Proofs.Deposit.Lifecycle
import BridgeRewards.Proofs.Deposit.Readable
import BridgeRewards.Proofs.Ledger.Quotes

/-!
# What is written can be read again

A deposit keeps its fees and its prices as texts.  If liquidity fees are capped by an integer, then
at any time the texts of its fees denote integers and those of its prices denote decimals
(`Deposit.Legible`): fees are written by fills that could be read, and prices that cannot be read
are not attached.  So a filled deposit with prices has values (`Deposit.isReadable_of_legible`).
-/

set_option autoImplicit false

namespace BridgeRewards

theorem Decimal.isInteger_clamp {raw cap : Decimal} (isRaw : raw.isInteger = true)
    (isCap : cap.isInteger = true) : (raw.clamp cap).isInteger = true := by
  unfold clamp
  split
  · rfl
  · split
    · exact isCap
    · exact isRaw

theorem Decimal.isInteger_add {x y : Decimal} (isLeft : x.isInteger = true)
    (isRight : y.isInteger = true) : (x + y).isInteger = true := by
  obtain ⟨m, left⟩ := (isInteger_iff_value x).mp isLeft
  obtain ⟨n, right⟩ := (isInteger_iff_value y).mp isRight
  refine (isInteger_iff_value _).mpr ⟨m + n, ?_⟩
  rw [value_add, left, right, Int.cast_add]

namespace Deposit

variable {lpFeeCap : Decimal} {d after : Deposit}

/-- The texts of the prices and of the fees that a deposit has can be read. -/
structure Legible (d : Deposit) : Prop where
  price : ∀ price, d.price = some price → Decimal.isDecimalText price.tokenUsdPrice = true ∧
    Decimal.isDecimalText price.rewardTokenUsdPrice = true
  fees : ∀ fees, d.fees = some fees → Decimal.isIntegerText fees.realizedLpFeePct = true ∧
    Decimal.isIntegerText fees.bridgeFeePct = true

theorem legible_completed (ledger : Ledger) (event : DepositEvent) :
    Legible (ledger.completed event) where
  price price has := by cases has
  fees fees has := by cases has

theorem isIntegerText_fees (isCap : lpFeeCap.isInteger = true) (record : FillRecord) :
    Decimal.isIntegerText (record.fees lpFeeCap).realizedLpFeePct = true ∧
      Decimal.isIntegerText (record.fees lpFeeCap).bridgeFeePct = true := by
  have capped := Decimal.isInteger_clamp
    (Decimal.isInteger_integerOf record.realizedLpFeePct) isCap
  have sum := Decimal.isInteger_add capped (Decimal.isInteger_integerOf record.relayerFeePct)
  exact ⟨Decimal.isIntegerText_plain capped, Decimal.isIntegerText_plain sum⟩

theorem legible_afterFill (isCap : lpFeeCap.isInteger = true) (record : FillRecord)
    (legible : Legible d) : Legible (d.afterFill lpFeeCap record) := by
  have charged : Legible (d.chargedBy lpFeeCap record) := by
    refine ⟨legible.price, fun fees has => ?_⟩
    obtain rfl : record.fees lpFeeCap = fees := Option.some.inj has
    exact isIntegerText_fees isCap record
  cases filled : d.isFilled with
  | true =>
      rw [afterFill_of_filled filled]
      exact legible
  | false =>
      rw [afterFill_of_pending filled]
      split
      · exact ⟨charged.price, charged.fees⟩
      · exact charged

theorem isDecimalText_of_pricesFor {ledger : Ledger} {rewardToken : Address} {rewardChainId : Nat}
    {price : PriceSnapshot} (known : ledger.pricesFor rewardToken rewardChainId d = .ok price) :
    Decimal.isDecimalText price.tokenUsdPrice = true ∧
      Decimal.isDecimalText price.rewardTokenUsdPrice = true := by
  cases Ledger.pricesFor_eq_ok.mp known with
  | known _ _ _ _ readable readableReward => exact ⟨readable, readableReward⟩

theorem Change.legible (isCap : lpFeeCap.isInteger = true) (change : Change lpFeeCap d after)
    (legible : Legible d) : Legible after := by
  cases change with
  | fill filled =>
      obtain ⟨-, -, rfl⟩ := fill_iff.mp filled
      exact legible_afterFill isCap _ legible
  | speedUp faster =>
      obtain ⟨-, rfl⟩ := speedUp_eq_some faster
      exact ⟨legible.price, legible.fees⟩
  | price due known =>
      refine ⟨fun price has => ?_, legible.fees⟩
      obtain rfl := Option.some.inj has
      exact isDecimalText_of_pricesFor known

/-- All numbers of a filled deposit can be read. -/
theorem isReadable_of_legible (lawful : Lawful d) (legible : Legible d)
    (filled : d.isFilled = true) : d.isReadable = true := by
  rw [isReadable, Bool.and_eq_true, Bool.and_eq_true, Option.all_eq_true, Option.all_eq_true]
  refine ⟨⟨(lawful.covered filled).1, fun price has => ?_⟩, fun fees has => ?_⟩
  · exact Bool.and_eq_true_iff.mpr (legible.price price has)
  · exact Bool.and_eq_true_iff.mpr (legible.fees fees has)

end Deposit

end BridgeRewards
