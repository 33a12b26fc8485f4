import BridgeRewards.Deposit.Standing
import BridgeRewards.Proofs.Deposit.Change

/-!
# Which deposits have values

The values of a deposit can be computed only if the deposit is filled and priced, and they carry
its key, its depositor and its date.  A filled deposit with fees either has values, or they cannot
be computed, or it has no prices.
-/

set_option autoImplicit false

namespace BridgeRewards

namespace Deposit

variable {d : Deposit} {kind : RewardType} {cutoff : Instant}

/-- A candidate is filled, made in time, without a window of the kind, and rewards someone. -/
theorem isCandidate_iff :
    d.isCandidate kind cutoff = true ↔ d.isFilled = true ∧ d.madeBy cutoff = true ∧
      d.windowFor kind = none ∧ (d.rewardRecipient kind).isSome = true := by
  rw [isCandidate, Bool.and_eq_true, Bool.and_eq_true, Bool.and_eq_true,
    Option.isNone_iff_eq_none, and_assoc, and_assoc]

theorem isEligible_iff :
    d.isEligible kind cutoff = true ↔ d.isCandidate kind cutoff = true ∧ d.isPriced = true :=
  Bool.and_eq_true_iff

end Deposit

/-- The values of a deposit are known. -/
def Deposit.Valued (d : Deposit) (values : PricedDeposit) : Prop :=
  PricedDeposit.ofDeposit d = .ok (some values)

namespace PricedDeposit

variable {d : Deposit} {values : PricedDeposit}

theorem of_value {price : PriceSnapshot} {fees : FeeBreakdown}
    (h : value d price fees = .ok values) :
    values.key = d.key ∧ values.depositor = d.depositor ∧ values.depositDate = d.depositDate := by
  unfold value at h
  obtain ⟨amount, -, h⟩ := Outcome.bind_eq_ok.mp h
  obtain ⟨tokenPrice, -, h⟩ := Outcome.bind_eq_ok.mp h
  obtain ⟨rewardPrice, -, h⟩ := Outcome.bind_eq_ok.mp h
  obtain ⟨lpPct, -, h⟩ := Outcome.bind_eq_ok.mp h
  obtain ⟨bridgePct, -, h⟩ := Outcome.bind_eq_ok.mp h
  cases h
  exact ⟨rfl, rfl, rfl⟩

theorem ofDeposit_eq (filled : d.isFilled = true) (charged : d.fees.isSome = true) :
    ofDeposit d = match d.price with
      | some price => (value d price (d.fees.get charged)).map some
      | none => .ok none := by
  obtain ⟨fees, hasFees⟩ := Option.isSome_iff_exists.mp charged
  unfold ofDeposit
  simp only [hasFees, filled, Option.get_some, if_true]
  cases d.price with
  | none => rfl
  | some price => rfl

/-- A deposit that has values is filled and priced, and they carry its key, its depositor and its
date. -/
theorem of_ofDeposit (h : ofDeposit d = .ok (some values)) :
    d.isFilled = true ∧ d.isPriced = true ∧
      values.key = d.key ∧ values.depositor = d.depositor ∧
      values.depositDate = d.depositDate := by
  unfold ofDeposit at h
  split at h
  · next price fees hasPrice hasFees =>
      split at h
      · next filled =>
          obtain ⟨same, valued, equal⟩ := Outcome.map_eq_ok.mp h
          cases equal
          exact ⟨filled, by simp [Deposit.isPriced, hasPrice], of_value valued⟩
      · cases h
  · cases h

theorem charged_of_ofDeposit (h : ofDeposit d = .ok (some values)) : d.fees.isSome = true := by
  unfold ofDeposit at h
  split at h
  · next price fees hasPrice hasFees => rw [hasFees]; rfl
  · cases h

theorem incomplete_of_ofDeposit (filled : d.isFilled = true) (h : ofDeposit d = .ok none) :
    (d.isPriced && d.fees.isSome) = false := by
  by_cases charged : d.fees.isSome = true
  · rw [ofDeposit_eq filled charged] at h
    unfold Deposit.isPriced
    cases hasPrice : d.price with
    | none => rfl
    | some price =>
        rw [hasPrice] at h
        obtain ⟨values, -, equal⟩ := Outcome.map_eq_ok.mp h
        cases equal
  · simp [charged]

theorem ofDeposit_of_incomplete (h : ¬ (d.isPriced = true ∧ d.fees.isSome = true)) :
    ofDeposit d = .ok none := by
  unfold ofDeposit
  split
  · next price fees hasPrice hasFees =>
      exact (h ⟨by simp [Deposit.isPriced, hasPrice], by simp [hasFees]⟩).elim
  · rfl

theorem isPriced_of_ofDeposit (charged : d.fees.isSome = true) (filled : d.isFilled = true)
    (h : ofDeposit d = .ok none) : d.isPriced = false := by
  simpa [charged] using incomplete_of_ofDeposit filled h

end PricedDeposit

theorem Standing.valued_of_priced {d : Deposit} {kind : RewardType} {values : PricedDeposit}
    (stands : Standing.ofDeposit d kind = .ok (.priced values)) : d.Valued values := by
  unfold Standing.ofDeposit at stands
  split at stands
  · split at stands
    · cases stands
    · split at stands
      · cases stands
      · next valued =>
          cases stands
          exact valued
      · split at stands <;> cases stands
  · cases stands

end BridgeRewards
