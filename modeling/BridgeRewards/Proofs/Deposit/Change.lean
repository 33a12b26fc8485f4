import BridgeRewards.Ledger.Delivery
import BridgeRewards.Ledger.Pricing
import BridgeRewards.Proofs.Outcome

/-!
# How a deposit changes

Outside windows a deposit changes in three ways: a fill charges it, a faster fee replaces its
own, and the prices that a ledger knows are attached (`Deposit.Change`).  None of them touches
what identifies the deposit, who is rewarded for it or its windows, and a deposit that is filled
stays filled (`Deposit.Keeps`).  A deposit is sound when it has fees once it is filled and no
window before; every change keeps it sound, and so does the assignment to a window.
-/

set_option autoImplicit false

namespace BridgeRewards.Deposit

variable {lpFeeCap : Decimal} {d after : Deposit}

/-! ## Filling -/

/-- The deposit as a fill of some amounts charges it. -/
def charged (d : Deposit) (totalFilled lpRaw lpCapped relayer : Decimal) : Deposit :=
  { d with
    fees := some
      { realizedLpFeePctRaw := lpRaw.plain
        realizedLpFeePct := lpCapped.plain
        relayerFeePct := relayer.plain
        bridgeFeePct := (lpCapped + relayer).plain }
    filledAmount := totalFilled.plain }

/-- The deposit as a covering fill leaves it. -/
def covered (d : Deposit) (record : FillRecord) : Deposit :=
  { d with
    status := .filled
    fillDate := some record.fillDate
    fillTx := some record.fillTx }

/-- A fill passes over a filled deposit; otherwise it charges the deposit, and covers it if it
reaches its amount. -/
theorem fill_eq_ok {record : FillRecord} {outcome : FillOutcome} :
    d.fill record lpFeeCap = .ok (outcome, after) ↔
      (d.isFilled = true ∧ outcome = .alreadyFilled ∧ after = d) ∨
        (d.isFilled = false ∧ ∃ input total lpRaw relayer,
          Decimal.parseInteger "inputAmount" d.inputAmount = .ok input ∧
          Decimal.parseInteger "totalFilledAmount" record.totalFilledAmount = .ok total ∧
          Decimal.parseInteger "realizedLpFeePct" record.realizedLpFeePct = .ok lpRaw ∧
          Decimal.parseInteger "relayerFeePct" record.relayerFeePct = .ok relayer ∧
          (if input ≤ total then
            outcome = .filled ∧
              after = (d.charged total lpRaw (lpRaw.clamp lpFeeCap) relayer).covered record
          else outcome = .partially ∧
            after = d.charged total lpRaw (lpRaw.clamp lpFeeCap) relayer)) := by
  unfold fill
  cases filled : d.isFilled with
  | true => simp [pure, Except.pure, eq_comm]
  | false =>
      simp only [Bool.false_eq_true, if_false, false_and, false_or, true_and,
        Outcome.bind_eq_ok, ← exists_and_left]
      refine exists_congr fun input => exists_congr fun total => exists_congr fun lpRaw =>
        exists_congr fun relayer => and_congr_right fun _ => and_congr_right fun _ =>
        and_congr_right fun _ => and_congr_right fun _ => ?_
      split <;> simp [charged, covered, pure, Except.pure, eq_comm]

/-! ## Changes -/

theorem awaitsPrice_iff : d.awaitsPrice = true ↔ d.isFilled = true ∧ d.price = none := by
  rw [awaitsPrice, Bool.and_eq_true, Bool.not_eq_true', isPriced, Option.isSome_eq_false_iff,
    Option.isNone_iff_eq_none]

/-- A deposit changes into another where liquidity fees have some cap. -/
inductive Change (lpFeeCap : Decimal) : Deposit → Deposit → Prop
  | fill {d after : Deposit} {record : FillRecord} {outcome : FillOutcome}
      (filled : d.fill record lpFeeCap = .ok (outcome, after)) : Change lpFeeCap d after
  | speedUp {d after : Deposit} {newRelayerFeePct : String}
      (faster : d.speedUp newRelayerFeePct = .ok (some after)) : Change lpFeeCap d after
  | price {ledger : Ledger} {rewardToken : Address} {rewardChainId : Nat} {d : Deposit}
      {price : PriceSnapshot} (due : d.awaitsPrice = true)
      (known : ledger.pricesFor rewardToken rewardChainId d = .ok price) :
      Change lpFeeCap d (d.setPrice price)

/-- What no change touches: what identifies a deposit, who is rewarded for it and its windows. -/
structure Keeps (d after : Deposit) : Prop where
  key : after.key = d.key
  depositor : after.depositor = d.depositor
  depositDate : after.depositDate = d.depositDate
  stickyReferralAddress : after.stickyReferralAddress = d.stickyReferralAddress
  rewardWindows : after.rewardWindows = d.rewardWindows
  isFilled : d.isFilled = true → after.isFilled = true

theorem Keeps.refl (d : Deposit) : Keeps d d := ⟨rfl, rfl, rfl, rfl, rfl, id⟩

theorem Keeps.trans {a b c : Deposit} (first : Keeps a b) (second : Keeps b c) : Keeps a c where
  key := second.key.trans first.key
  depositor := second.depositor.trans first.depositor
  depositDate := second.depositDate.trans first.depositDate
  stickyReferralAddress := second.stickyReferralAddress.trans first.stickyReferralAddress
  rewardWindows := second.rewardWindows.trans first.rewardWindows
  isFilled filled := second.isFilled (first.isFilled filled)

/-- A filled deposit has fees, and one that is not filled has no window. -/
structure Sound (d : Deposit) : Prop where
  fees : d.isFilled = true → d.fees.isSome = true
  noWindow : d.isFilled = false → d.rewardWindows = {}

theorem speedUp_eq_some {newRelayerFeePct : String}
    (h : d.speedUp newRelayerFeePct = .ok (some after)) :
    d.isFilled = false ∧ after = { d with relayerFeePct := newRelayerFeePct } := by
  unfold speedUp at h
  obtain ⟨-, -, h⟩ := Outcome.bind_eq_ok.mp h
  cases filled : d.isFilled with
  | true => simp [filled, pure, Except.pure] at h
  | false => simpa [filled, pure, Except.pure, eq_comm] using h

theorem Change.keeps (change : Change lpFeeCap d after) : Keeps d after := by
  cases change with
  | fill filled =>
      rcases fill_eq_ok.mp filled with ⟨-, -, rfl⟩ | ⟨-, _, _, _, _, -, -, -, -, h⟩
      · exact Keeps.refl _
      · split at h
        · obtain ⟨-, rfl⟩ := h
          exact ⟨rfl, rfl, rfl, rfl, rfl, fun _ => rfl⟩
        · obtain ⟨-, rfl⟩ := h
          exact ⟨rfl, rfl, rfl, rfl, rfl, id⟩
  | speedUp faster =>
      obtain ⟨-, rfl⟩ := speedUp_eq_some faster
      exact ⟨rfl, rfl, rfl, rfl, rfl, id⟩
  | price due known => exact ⟨rfl, rfl, rfl, rfl, rfl, id⟩

theorem Change.sound (change : Change lpFeeCap d after) (sound : Sound d) : Sound after := by
  cases change with
  | fill filled =>
      rcases fill_eq_ok.mp filled with ⟨-, -, rfl⟩ | ⟨pending, _, _, _, _, -, -, -, -, h⟩
      · exact sound
      · split at h
        · obtain ⟨-, rfl⟩ := h
          exact ⟨fun _ => rfl, fun pending => by cases pending⟩
        · obtain ⟨-, rfl⟩ := h
          exact ⟨fun _ => rfl, fun _ => sound.noWindow pending⟩
  | speedUp faster =>
      obtain ⟨pending, rfl⟩ := speedUp_eq_some faster
      exact ⟨sound.fees, sound.noWindow⟩
  | price due known => exact ⟨sound.fees, sound.noWindow⟩

theorem fillAll_induction {P : Deposit → Prop}
    (step : ∀ {d after : Deposit}, Change lpFeeCap d after → P d → P after)
    {records : List FillRecord} (h : d.fillAll lpFeeCap records = .ok after) (start : P d) :
    P after := by
  induction records generalizing d with
  | nil =>
      obtain rfl : d = after := Except.ok.inj h
      exact start
  | cons record rest ih =>
      obtain ⟨⟨outcome, between⟩, filled, h⟩ := Outcome.bind_eq_ok.mp h
      exact ih h (step (.fill filled) start)

/-- Any number of fills keeps what one change keeps, and soundness. -/
theorem fillAll_keeps {records : List FillRecord} (h : d.fillAll lpFeeCap records = .ok after) :
    Keeps d after ∧ (Sound d → Sound after) := by
  have step : ∀ {between next : Deposit}, Change lpFeeCap between next →
      Keeps d between ∧ (Sound d → Sound between) → Keeps d next ∧ (Sound d → Sound next) :=
    fun change kept =>
      ⟨kept.1.trans change.keeps, fun start => change.sound (kept.2 start)⟩
  exact fillAll_induction step h ⟨Keeps.refl d, id⟩

/-! ## Assigning windows -/

/-- The deposit with a window of some kind. -/
def stamp (kind : RewardType) (index : Nat) (d : Deposit) : Deposit :=
  { d with rewardWindows := d.rewardWindows.set kind index }

@[simp] theorem windowFor_stamp (kind other : RewardType) (index : Nat) (d : Deposit) :
    (d.stamp kind index).windowFor other =
      if other = kind then some index else d.windowFor other :=
  PerRewardType.get?_set d.rewardWindows kind other index

theorem assignWindow_eq_ok {kind : RewardType} {index : Nat} :
    d.assignWindow kind index = .ok after ↔
      d.isFilled = true ∧ d.windowFor kind = none ∧
        after = d.stamp kind index := by
  unfold assignWindow stamp
  cases filled : d.isFilled with
  | false => simp
  | true =>
      cases window : d.windowFor kind with
      | none => simp [eq_comm]
      | some existing => simp

end BridgeRewards.Deposit
