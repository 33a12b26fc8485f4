import BridgeRewards.Proofs.Deposit.Fill

/-!
# The life of a deposit

What a deposit was made with stays (`Deposit.terms`).  It has neither prices nor windows until it
is filled; then it has fees, a date and a transaction, and has been filled with its amount at
least (`Deposit.Lawful`).  From then on what was charged stays, and a price or a window that it
gets is not taken away or replaced (`Deposit.Evolves`).  Both are so for every change and for
every window that is assigned.
-/

set_option autoImplicit false

namespace BridgeRewards.Deposit

variable {lpFeeCap : Decimal} {d after : Deposit}

/-- What is so for a deposit at any time. -/
structure Lawful (d : Deposit) : Prop extends Sound d where
  unpriced : d.isFilled = false → d.price = none
  dated : d.isFilled = true → d.fillDate.isSome = true ∧ d.fillTx.isSome = true
  covered : d.isFilled = true → Decimal.isIntegerText d.inputAmount = true ∧
    Decimal.isIntegerText d.filledAmount = true ∧
    Decimal.numberOf d.inputAmount ≤ Decimal.numberOf d.filledAmount

/-- A deposit without what happened to it since it was made: the parties, chains, tokens, amounts,
date, transaction and referral address that it was made with. -/
def terms (d : Deposit) : Deposit :=
  { d with
    status := .pending
    fillDate := none
    fillTx := none
    filledAmount := "0"
    relayerFeePct := "0"
    fees := none
    price := none
    rewardWindows := {} }

/-- What becomes of a deposit: its terms stay, and so does what was charged once it is filled; its
prices and its windows stay once it has them. -/
structure Evolves (d after : Deposit) : Prop where
  terms : after.terms = d.terms
  isFilled : d.isFilled = true → after.isFilled = true
  charged : d.isFilled = true → after.fees = d.fees ∧ after.filledAmount = d.filledAmount ∧
    after.fillDate = d.fillDate ∧ after.fillTx = d.fillTx ∧ after.relayerFeePct = d.relayerFeePct
  price : ∀ price, d.price = some price → after.price = some price
  windowFor : ∀ kind index, d.windowFor kind = some index → after.windowFor kind = some index

theorem Evolves.refl (d : Deposit) : Evolves d d where
  terms := rfl
  isFilled filled := filled
  charged _ := ⟨rfl, rfl, rfl, rfl, rfl⟩
  price _ has := has
  windowFor _ _ has := has

theorem Evolves.trans {first second third : Deposit} (earlier : Evolves first second)
    (later : Evolves second third) : Evolves first third where
  terms := later.terms.trans earlier.terms
  isFilled filled := later.isFilled (earlier.isFilled filled)
  charged filled := by
    obtain ⟨fees, amount, date, tx, relayer⟩ := earlier.charged filled
    obtain ⟨fees', amount', date', tx', relayer'⟩ := later.charged (earlier.isFilled filled)
    exact ⟨fees'.trans fees, amount'.trans amount, date'.trans date, tx'.trans tx,
      relayer'.trans relayer⟩
  price price has := later.price price (earlier.price price has)
  windowFor kind index has := later.windowFor kind index (earlier.windowFor kind index has)

/-! ## Changes -/

/-- A deposit that is not filled has nothing that could be lost but its terms. -/
theorem evolves_of_pending (lawful : Lawful d) (pending : d.isFilled = false)
    (terms : after.terms = d.terms) : Evolves d after where
  terms := terms
  isFilled filled := by simp [pending] at filled
  charged filled := by simp [pending] at filled
  price price has := by simp [lawful.unpriced pending] at has
  windowFor kind index has := by
    rw [windowFor, lawful.noWindow pending] at has
    cases kind <;> cases has

theorem Change.evolves (lawful : Lawful d) (change : Change lpFeeCap d after) :
    Evolves d after := by
  cases change with
  | fill filled =>
      obtain ⟨-, -, rfl⟩ := fill_iff.mp filled
      cases pending : d.isFilled with
      | true =>
          rw [afterFill_of_filled pending]
          exact .refl d
      | false =>
          rw [afterFill_of_pending pending]
          refine evolves_of_pending lawful pending ?_
          split
          · rfl
          · rfl
  | speedUp faster =>
      obtain ⟨pending, rfl⟩ := speedUp_eq_some faster
      exact evolves_of_pending lawful pending rfl
  | price due known =>
      have unpriced := (awaitsPrice_iff.mp due).2
      refine ⟨rfl, id, fun _ => ⟨rfl, rfl, rfl, rfl, rfl⟩, fun price has => ?_, fun _ _ has => has⟩
      rw [unpriced] at has
      cases has

theorem lawful_of_pending (pending : d.isFilled = false) (unpriced : d.price = none)
    (noWindow : d.rewardWindows = {}) : Lawful d where
  fees filled := by simp [pending] at filled
  noWindow _ := noWindow
  unpriced _ := unpriced
  dated filled := by simp [pending] at filled
  covered filled := by simp [pending] at filled

/-- A fill that covers a deposit is one of its amount at least. -/
theorem lawful_covered {record : FillRecord} (isInput : Decimal.isIntegerText d.inputAmount = true)
    (whole : record.isWhole = true) (enough : record.covers d.inputAmount = true) :
    Lawful ((d.chargedBy lpFeeCap record).covered record) where
  fees _ := rfl
  noWindow pending := by cases pending
  unpriced pending := by cases pending
  dated _ := ⟨rfl, rfl⟩
  covered _ := by
    obtain ⟨isTotal, -, -⟩ := FillRecord.isWhole_iff.mp whole
    have isInteger := Decimal.isInteger_integerOf record.totalFilledAmount
    refine ⟨isInput, Decimal.isIntegerText_plain isInteger, ?_⟩
    change _ ≤ Decimal.numberOf (Decimal.integerOf record.totalFilledAmount).plain
    rw [Decimal.numberOf_plain isInteger, Decimal.value_integerOf isTotal]
    exact of_decide_eq_true enough

theorem Change.lawful (change : Change lpFeeCap d after) (lawful : Lawful d) : Lawful after := by
  cases change with
  | fill filled =>
      obtain ⟨accepted, -, rfl⟩ := fill_iff.mp filled
      cases pending : d.isFilled with
      | true =>
          rw [afterFill_of_filled pending]
          exact lawful
      | false =>
          obtain ⟨isInput, whole⟩ := accepted pending
          rw [afterFill_of_pending pending]
          split
          · next enough => exact lawful_covered isInput whole enough
          · exact lawful_of_pending pending (lawful.unpriced pending) (lawful.noWindow pending)
  | speedUp faster =>
      obtain ⟨pending, rfl⟩ := speedUp_eq_some faster
      exact lawful_of_pending pending (lawful.unpriced pending) (lawful.noWindow pending)
  | price due known =>
      obtain ⟨filled, -⟩ := Bool.and_eq_true_iff.mp due
      refine ⟨⟨lawful.fees, lawful.noWindow⟩, fun pending => ?_, lawful.dated, lawful.covered⟩
      change d.isFilled = false at pending
      simp [pending] at filled

/-! ## Windows -/

theorem lawful_stamp (kind : RewardType) (index : Nat) (filled : d.isFilled = true)
    (lawful : Lawful d) : Lawful (d.stamp kind index) where
  fees := lawful.fees
  noWindow pending := by
    change d.isFilled = false at pending
    simp [pending] at filled
  unpriced := lawful.unpriced
  dated := lawful.dated
  covered := lawful.covered

theorem evolves_stamp {kind : RewardType} (index : Nat) (free : d.windowFor kind = none) :
    Evolves d (d.stamp kind index) where
  terms := rfl
  isFilled filled := filled
  charged _ := ⟨rfl, rfl, rfl, rfl, rfl⟩
  price _ has := has
  windowFor other index has := by
    have differ : other ≠ kind := by
      rintro rfl
      rw [free] at has
      cases has
    rw [windowFor_stamp, if_neg differ]
    exact has

/-! ## New deposits -/

theorem lawful_completed (ledger : Ledger) (event : DepositEvent) :
    Lawful (ledger.completed event) :=
  lawful_of_pending rfl rfl rfl

end BridgeRewards.Deposit
