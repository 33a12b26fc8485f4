import BridgeRewards.Proofs.Deposit.Fill
import BridgeRewards.Proofs.Run.Rows
import BridgeRewards.Settings

/-!
# The percentages that deposits are charged

A fill charges a deposit a percentage for liquidity, kept between zero and the cap of the settings,
and one for the relayer.  After every run under settings that are valid, the four texts of each
breakdown denote integers, the liquidity fee is the one that the fill named where this lies between
zero and the cap, and the two fees add up (`percentages_of_run`).  Valid settings can have a cap
below zero, however, and then fees are cut down to less than nothing (`negative_cap_is_charged`).
-/

set_option autoImplicit false

namespace BridgeRewards

namespace Decimal

/-- A percentage between zero and a cap, for integers: a negative percentage becomes zero, whatever
the cap is. -/
def clampInt (raw cap : Int) : Int := if raw < 0 then 0 else min raw cap

theorem clampInt_mem {raw cap : Int} (nonneg : 0 ≤ cap) :
    0 ≤ clampInt raw cap ∧ clampInt raw cap ≤ cap := by
  unfold clampInt
  split <;> omega

variable {x cap : Decimal} {raw bound : Int}

theorem value_clamp (isRaw : x.value = raw) (isBound : cap.value = bound) :
    (x.clamp cap).value = clampInt raw bound := by
  unfold clamp clampInt
  simp only [lt_iff_value_lt, value_zero, isRaw, isBound, Int.cast_lt_zero, Int.cast_lt]
  split
  · rw [value_zero, Int.cast_zero]
  · split
    · next above => rw [isBound, min_eq_right above.le]
    · next below => rw [isRaw, min_eq_left (not_lt.mp below)]

theorem clamp_of_between (isRaw : x.value = raw) (isBound : cap.value = bound)
    (nonneg : 0 ≤ raw) (le : raw ≤ bound) : x.clamp cap = x := by
  -- Neither bound is passed, so the decimal stays with its scale, and hence its text as well.
  unfold clamp
  rw [if_neg, if_neg]
  · rw [lt_iff_value_lt, isRaw, isBound, Int.cast_lt]
    exact not_lt.mpr le
  · rw [lt_iff_value_lt, isRaw, value_zero, Int.cast_lt_zero]
    exact not_lt.mpr nonneg

/-- A text is read as an integer, whatever field it stands in. -/
def IsReadAs (text : String) (n : Int) : Prop := ∀ field, parseInteger field text = .ok (.ofInt n)

theorem isReadAs_plain {n : Int} (isInt : x.value = n) : IsReadAs x.plain n := by
  intro field
  rw [parseInteger_plain ((isInteger_iff_value x).mpr ⟨n, isInt⟩), truncate,
    truncated_of_value isInt]

end Decimal

namespace FeeBreakdown

/-- The integers as which the texts of a breakdown are read; the last one is the sum of a liquidity
fee and a relayer's fee. -/
structure Reads (fees : FeeBreakdown) (raw lp relayer : Int) : Prop where
  realizedLpFeePctRaw : Decimal.IsReadAs fees.realizedLpFeePctRaw raw
  realizedLpFeePct : Decimal.IsReadAs fees.realizedLpFeePct lp
  relayerFeePct : Decimal.IsReadAs fees.relayerFeePct relayer
  bridgeFeePct : Decimal.IsReadAs fees.bridgeFeePct (lp + relayer)

/-- The percentages of a breakdown are integers, and the liquidity fee is kept under a cap. -/
def CappedBy (cap : Int) (fees : FeeBreakdown) : Prop :=
  ∃ raw relayer, fees.Reads raw (Decimal.clampInt raw cap) relayer ∧
    (0 ≤ raw → raw ≤ cap → fees.realizedLpFeePct = fees.realizedLpFeePctRaw)

end FeeBreakdown

theorem FillRecord.cappedBy_fees (cap : Int) (record : FillRecord) :
    (record.fees (.ofInt cap)).CappedBy cap := by
  obtain ⟨raw, isRaw⟩ :=
    (Decimal.isInteger_iff_value _).mp (Decimal.isInteger_integerOf record.realizedLpFeePct)
  obtain ⟨relayer, isRelayer⟩ :=
    (Decimal.isInteger_iff_value _).mp (Decimal.isInteger_integerOf record.relayerFeePct)
  have isCap := Decimal.value_ofInt cap
  have capped := Decimal.value_clamp isRaw isCap
  refine ⟨raw, relayer, ⟨Decimal.isReadAs_plain isRaw, Decimal.isReadAs_plain capped,
    Decimal.isReadAs_plain isRelayer, Decimal.isReadAs_plain ?_⟩, fun nonneg le => ?_⟩
  · rw [Decimal.value_add, capped, isRelayer, Int.cast_add]
  · exact congrArg Decimal.plain (Decimal.clamp_of_between isRaw isCap nonneg le)

/-- What is true of all that fills charge is true of all that deposits are charged, as nothing else
charges them. -/
theorem Deposit.invariant_fees {lpFeeCap : Decimal} {P : FeeBreakdown → Prop}
    (charges : ∀ record : FillRecord, P (record.fees lpFeeCap)) :
    Deposit.Invariant lpFeeCap fun d => ∀ fees, d.fees = some fees → P fees where
  made _ _ fees has := by cases has
  change change start fees has := by
    cases change with
    | fill filled =>
        obtain ⟨-, -, rfl⟩ := fill_iff.mp filled
        rw [fees_afterFill] at has
        split at has
        · exact start fees has
        · obtain rfl := Option.some.inj has
          exact charges _
    | speedUp faster =>
        obtain ⟨-, rfl⟩ := speedUp_eq_some faster
        exact start fees has
    | price due known => exact start fees has
  stamp _ _ _ _ start := start

theorem Settings.exists_cap_of_validate {settings : Settings}
    (valid : settings.validate = .ok ()) : ∃ cap : Int, settings.cap = .ok (.ofInt cap) := by
  obtain ⟨cap, isCap, -⟩ := Outcome.bind_eq_ok.mp valid
  obtain ⟨x, -, -, rfl⟩ := Decimal.parseInteger_eq_ok.mp (Outcome.mapError_eq_ok.mp isCap)
  exact ⟨x.truncated, isCap⟩

namespace Ledger

/-- **The percentages of deposits.**  Valid settings have a cap that is an integer.  After every run
under this cap, the texts of what a deposit is charged are read as integers; the liquidity fee is
that of the fill, cut down to the cap, or zero if that of the fill is negative, so that it lies
between zero and the cap if the cap is not negative, and is the text of the fill's if this lies
there; and the liquidity fee and the relayer's fee add up to the last text. -/
theorem percentages_of_run {settings : Settings} (valid : settings.validate = .ok ()) :
    ∃ cap : Int, settings.cap = .ok (.ofInt cap) ∧
      ∀ (operations : List Operation) (key : DepositKey) (d : Deposit) (fees : FeeBreakdown),
        (∀ operation ∈ operations, operation.Capped (.ofInt cap)) →
        (Ledger.empty.run operations).deposits.find? key = some d → d.fees = some fees →
        ∃ raw lp relayer, fees.Reads raw lp relayer ∧
          lp = Decimal.clampInt raw cap ∧ (0 ≤ cap → 0 ≤ lp ∧ lp ≤ cap) ∧
          (0 ≤ raw → raw ≤ cap → fees.realizedLpFeePct = fees.realizedLpFeePctRaw) := by
  obtain ⟨cap, isCap⟩ := Settings.exists_cap_of_validate valid
  refine ⟨cap, isCap, fun operations key d fees capped found has => ?_⟩
  have invariant : ∀ lpFeeCap, lpFeeCap = .ofInt cap → Deposit.Invariant lpFeeCap
      fun d => ∀ fees, d.fees = some fees → fees.CappedBy cap := by
    rintro lpFeeCap rfl
    exact Deposit.invariant_fees (FillRecord.cappedBy_fees cap)
  have charged := Deposit.Invariant.of_run invariant
    (fun operation isOperation => ⟨_, rfl, capped operation isOperation⟩) found
  obtain ⟨raw, relayer, reads, same⟩ := charged fees has
  exact ⟨raw, _, relayer, reads, rfl, Decimal.clampInt_mem, same⟩

end Ledger

/-! ## Caps above and below zero -/

namespace Trial

/-- A fill that charges ten times as much as the cap of the trial allows. -/
def greedyFill : FillEvent := { fill with realizedLpFeePct := "10000000000000000000" }

/-- The deposit is made and filled under some cap. -/
def charging (lpFeeCap : Decimal) : List Operation :=
  [.deliver lpFeeCap (.deposit deposit), .deliver lpFeeCap (.fill greedyFill)]

theorem capped_charging (lpFeeCap : Decimal) :
    ∀ operation ∈ charging lpFeeCap, operation.Capped lpFeeCap := by
  simp [charging, Operation.Capped]

end Trial

namespace Ledger

/-- The fill of the trial is cut down to the cap of the settings that apply when none are given. -/
theorem percentages_of_run_trial :
    ({} : Settings).validate = .ok () ∧
      ∃ d fees, (Ledger.empty.run (Trial.charging (.ofInt (tenTo 18)))).deposits.find?
          Trial.deposit.key = some d ∧ d.fees = some fees ∧
        ∃ raw lp relayer, fees.Reads raw lp relayer ∧
          lp = Decimal.clampInt raw (tenTo 18) ∧ 0 ≤ lp ∧ lp ≤ tenTo 18 := by
  have valid : ({} : Settings).validate = .ok () := by decide +kernel
  have isDefault : ({} : Settings).cap = .ok (.ofInt (tenTo 18)) := by decide +kernel
  obtain ⟨cap, isCap, charged⟩ := percentages_of_run valid
  obtain rfl : cap = tenTo 18 :=
    congrArg Decimal.mantissa (Except.ok.inj (isCap.symm.trans isDefault))
  have some : ((Ledger.empty.run (Trial.charging (.ofInt (tenTo 18)))).deposits.find?
      Trial.deposit.key).bind (·.fees) =
        some ⟨"10000000000000000000", "1000000000000000000", "0", "1000000000000000000"⟩ := by
    decide +kernel
  obtain ⟨d, found, has⟩ := Option.bind_eq_some_iff.mp some
  obtain ⟨raw, lp, relayer, reads, isClamped, between, -⟩ :=
    charged _ _ d _ (Trial.capped_charging _) found has
  exact ⟨valid, d, _, found, has, raw, lp, relayer, reads, isClamped, between (by decide +kernel)⟩

/-- A liquidity fee is not always zero at least: a cap of minus one is valid and is charged. -/
theorem negative_cap_is_charged :
    ¬ ∀ (settings : Settings) (lpFeeCap : Decimal), settings.validate = .ok () →
      settings.cap = .ok lpFeeCap →
      ∀ (events : List Event) (key : DepositKey) (d : Deposit) (fees : FeeBreakdown),
        (Ledger.empty.run (events.map (.deliver lpFeeCap))).deposits.find? key = some d →
        d.fees = some fees →
        ∃ lp, Decimal.IsReadAs fees.realizedLpFeePct lp ∧ 0 ≤ lp := by
  intro nonneg
  have charged : ((Ledger.empty.run (Trial.charging (.ofInt (-1)))).deposits.find?
      Trial.deposit.key).bind (·.fees) =
        some ⟨"10000000000000000000", "-1", "0", "-1"⟩ := by
    decide +kernel
  obtain ⟨d, found, has⟩ := Option.bind_eq_some_iff.mp charged
  obtain ⟨lp, isRead, isNonneg⟩ := nonneg { lpFeeCap := "-1" } (.ofInt (-1)) (by decide +kernel)
    (by decide +kernel) [.deposit Trial.deposit, .fill Trial.greedyFill] _ d _ found has
  have negative : Decimal.parseInteger "realizedLpFeePct" "-1" = .ok (.ofInt (-1)) := by
    decide +kernel
  have same : Decimal.ofInt lp = .ofInt (-1) :=
    Except.ok.inj ((isRead "realizedLpFeePct").symm.trans negative)
  have isNegative : lp = -1 := congrArg Decimal.mantissa same
  omega

end Ledger

end BridgeRewards
