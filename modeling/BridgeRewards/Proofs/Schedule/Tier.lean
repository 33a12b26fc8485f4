import BridgeRewards.Proofs.Decimal.Value
import BridgeRewards.Proofs.Schedule.Registration
import Mathlib.Data.List.Chain
import Mathlib.Order.Bounds.Basic

/-!
# The rate of a referrer

A tier is reached by the number of depositors or by their volume, and a referrer gets the rate of
the first tier that is reached.  The check of a table compares the rates of neighbours only, but
this is enough: no tier has a higher rate than one above it, and none is below the default rate
(`Graded`).  So the first tier that is reached has the greatest of all rates on offer
(`Graded.isGreatest_rateFor`), and as more is on offer to a referrer with more depositors or more
volume, rates grow with both (`Graded.rateFor_mono`).  The order of the thresholds plays no part in
this.
-/

set_option autoImplicit false

namespace BridgeRewards

/-! ## The order of rates -/

theorem Decimal.le_trans {x y z : Decimal} (lower : x ≤ y) (upper : y ≤ z) : x ≤ z := by
  rw [Decimal.le_iff_value_le] at *
  exact lower.trans upper

theorem Rate.le_refl (a : Rate) : a ≤ a :=
  (Decimal.le_iff_value_le a.toDecimal a.toDecimal).mpr le_rfl

theorem Rate.le_trans {a b c : Rate} (lower : a ≤ b) (upper : b ≤ c) : a ≤ c :=
  Decimal.le_trans lower upper

theorem Rate.le_of_not_lt {a b : Rate} (notLess : ¬ a < b) : b ≤ a :=
  (Decimal.le_iff_not_lt b.toDecimal a.toDecimal).mpr notLess

namespace TierTable

variable {table : TierTable} {tiers : List Tier} {tier : Tier} {count count' : Nat}
  {volume volume' : Decimal} {rate : Rate}

/-! ## Valid tables -/

/-- Rates do not grow on the way down, and the default rate is neither above one of them nor
negative. -/
structure Graded (table : TierTable) : Prop where
  falling : table.tiers.Pairwise fun upper lower => lower.rate ≤ upper.rate
  default_le : ∀ tier ∈ table.tiers, table.defaultRate ≤ tier.rate
  nonneg : Rate.zero ≤ table.defaultRate

theorem rate_le_of_stepFault? {upper lower : Tier} (sound : stepFault? upper lower = none) :
    lower.rate ≤ upper.rate := by
  unfold stepFault? at sound
  split at sound
  next => cases sound
  next =>
    split at sound
    next => cases sound
    next notLess => exact Rate.le_of_not_lt notLess

theorem isChain_of_stepsFault? (sound : stepsFault? tiers = none) :
    tiers.IsChain fun upper lower => lower.rate ≤ upper.rate := by
  induction tiers with
  | nil => exact .nil
  | cons upper rest ih =>
      cases rest with
      | nil => exact .singleton upper
      | cons lower rest =>
          obtain ⟨step, tail⟩ := Option.or_eq_none_iff.mp sound
          exact .cons_cons (rate_le_of_stepFault? step) (ih tail)

/-- Without a fault between neighbours no tier has a higher rate than one above it. -/
theorem pairwise_of_stepsFault? (sound : stepsFault? tiers = none) :
    tiers.Pairwise fun upper lower => lower.rate ≤ upper.rate := by
  let fallsTo : Tier → Tier → Prop := fun upper lower => lower.rate ≤ upper.rate
  have : Trans fallsTo fallsTo fallsTo := ⟨fun upper lower => Rate.le_trans lower upper⟩
  exact (isChain_of_stepsFault? sound).pairwise

theorem nonneg_of_defaultFault? (sound : table.defaultFault? = none) :
    Rate.zero ≤ table.defaultRate := by
  unfold defaultFault? at sound
  split at sound
  next =>
    split at sound
    next => cases sound
    next =>
      split at sound
      next => cases sound
      next notLess => exact Rate.le_of_not_lt notLess
  next =>
    split at sound
    next => cases sound
    next notLess => exact Rate.le_of_not_lt notLess

theorem default_le_of_defaultFault? (sound : table.defaultFault? = none) {lowest : Tier}
    (isLast : table.tiers.getLast? = some lowest) : table.defaultRate ≤ lowest.rate := by
  unfold defaultFault? at sound
  rw [isLast] at sound
  dsimp only at sound
  split at sound
  next => cases sound
  next notLess => exact Rate.le_of_not_lt notLess

/-- **A valid table is graded.** -/
theorem graded_of_validate (valid : table.validate = .ok ()) : table.Graded := by
  have sound : (stepsFault? table.tiers).or table.defaultFault? = none := by
    unfold validate at valid
    split at valid
    next => cases valid
    next sound => exact sound
  obtain ⟨steps, default⟩ := Option.or_eq_none_iff.mp sound
  have falling := pairwise_of_stepsFault? steps
  refine ⟨falling, fun tier member => ?_, nonneg_of_defaultFault? default⟩
  cases isLast : table.tiers.getLast? with
  | none =>
      rw [List.getLast?_eq_none_iff.mp isLast] at member
      cases member
  | some lowest =>
      have defaultLe := default_le_of_defaultFault? default isLast
      obtain ⟨others, split⟩ := List.getLast?_eq_some_iff.mp isLast
      rw [split] at member falling
      rcases List.mem_append.mp member with above | last
      · have lowestLe := (List.pairwise_append.mp falling).2.2 tier above lowest List.mem_cons_self
        exact Rate.le_trans defaultLe lowestLe
      · rw [List.mem_singleton.mp last]
        exact defaultLe

/-! ## What is on offer -/

/-- The rates on offer to a referrer: the default rate and those of all tiers that are reached, by
count or by volume. -/
inductive Offers (table : TierTable) (count : Nat) (volume : Decimal) : Rate → Prop
  | default : Offers table count volume table.defaultRate
  | tier {tier : Tier} (mem : tier ∈ table.tiers)
      (reached : tier.minCount ≤ count ∨ tier.minVolume.toDecimal ≤ volume) :
      Offers table count volume tier.rate

theorem reached_iff :
    tier.reached count volume = true ↔
      tier.minCount ≤ count ∨ tier.minVolume.toDecimal ≤ volume := by
  simp [Tier.reached]

theorem Offers.mono (offers : table.Offers count volume rate) (moreCount : count ≤ count')
    (moreVolume : volume ≤ volume') : table.Offers count' volume' rate := by
  cases offers with
  | default => exact .default
  | tier member reached =>
      exact .tier member (reached.imp (·.trans moreCount) (Decimal.le_trans · moreVolume))

/-- **The most generous rate.**  The rate of a referrer is the greatest on offer. -/
theorem Graded.isGreatest_rateFor (graded : table.Graded) (count : Nat) (volume : Decimal) :
    IsGreatest {rate | table.Offers count volume rate} (table.rateFor count volume) := by
  unfold rateFor
  cases found : table.tiers.find? (·.reached count volume) with
  | none =>
      refine ⟨.default, fun rate offers => ?_⟩
      cases offers with
      | default => exact Rate.le_refl _
      | tier member reached =>
          exact absurd (reached_iff.mpr reached) (List.find?_eq_none.mp found _ member)
  | some first =>
      obtain ⟨firstReached, above, below, split, notReached⟩ :=
        List.find?_eq_some_iff_append.mp found
      have isTier : first ∈ table.tiers := List.mem_of_find?_eq_some found
      refine ⟨.tier isTier (reached_iff.mp firstReached), fun rate offers => ?_⟩
      cases offers with
      | default => exact graded.default_le first isTier
      | @tier other member reached =>
          have falling := graded.falling
          rw [split] at member falling
          rcases List.mem_append.mp member with isAbove | notAbove
          · have missed := notReached other isAbove
            simp [reached_iff.mpr reached] at missed
          · rcases List.mem_cons.mp notAbove with rfl | isBelow
            · exact Rate.le_refl _
            · exact List.rel_of_pairwise_cons (List.pairwise_append.mp falling).2.1 isBelow

theorem Graded.rateFor_mono (graded : table.Graded) (moreCount : count ≤ count')
    (moreVolume : volume ≤ volume') :
    table.rateFor count volume ≤ table.rateFor count' volume' := by
  have onOffer := (graded.isGreatest_rateFor count volume).1
  exact (graded.isGreatest_rateFor count' volume').2 (onOffer.mono moreCount moreVolume)

theorem Graded.nonneg_rateFor (graded : table.Graded) (count : Nat) (volume : Decimal) :
    Rate.zero ≤ table.rateFor count volume :=
  Rate.le_trans graded.nonneg ((graded.isGreatest_rateFor count volume).2 .default)

end TierTable

/-! ## Rates over time -/

namespace TierSchedule

open Schedule

theorem rateAt_eq_ok_iff {schedule : TierSchedule} (orderly : Schedule.Orderly schedule)
    {instant : Instant} {count : Nat} {volume : Decimal} {rate : Rate} {name : String} :
    TierSchedule.rateAt schedule instant count volume = .ok (rate, name) ↔
      ∃ version, Schedule.InForce schedule instant version ∧
        version.versionId = name ∧ version.content.rateFor count volume = rate := by
  unfold rateAt
  rw [Outcome.bind_eq_ok]
  refine exists_congr fun version => ?_
  rw [orderly.versionAt_eq_ok_iff]
  refine and_congr_right fun _ => ?_
  constructor
  · intro found
    obtain ⟨isRate, isName⟩ := Prod.mk.inj (Except.ok.inj found)
    exact ⟨isName, isRate⟩
  · rintro ⟨rfl, rfl⟩
    rfl

/-- **Tier rates are monotone and most generous.**  In a valid table the rate of a referrer is the
greatest on offer, it is not negative, and it does not fall when the referrer brings more.  The
same is so at any one instant in a schedule that is made by registering tables: a rate is found
exactly if a version is in force, and then it is the greatest that its table offers. -/
theorem rates_are_generous (table : TierTable) (valid : table.validate = .ok ())
    (registrations : List (Registration TierTable)) (now : Instant) {count count' : Nat}
    {volume volume' : Decimal} (moreCount : count ≤ count') (moreVolume : volume ≤ volume') :
    table.rateFor count volume ≤ table.rateFor count' volume' ∧
    IsGreatest {rate | table.Offers count volume rate} (table.rateFor count volume) ∧
    Rate.zero ≤ table.rateFor count volume ∧
    (∀ version, (registered register registrations).InForce now version →
      ∃ rate rate',
        TierSchedule.rateAt (registered register registrations) now count volume =
          .ok (rate, version.versionId) ∧
        TierSchedule.rateAt (registered register registrations) now count' volume' =
          .ok (rate', version.versionId) ∧
        rate ≤ rate' ∧ IsGreatest {rate | version.content.Offers count volume rate} rate ∧
        Rate.zero ≤ rate) ∧
    (∀ result,
      TierSchedule.rateAt (registered register registrations) now count volume = .ok result →
      ∃ version, (registered register registrations).InForce now version ∧
        version.versionId = result.2) := by
  have graded := TierTable.graded_of_validate valid
  have orderly := orderly_registered checks registrations
  refine ⟨graded.rateFor_mono moreCount moreVolume, graded.isGreatest_rateFor count volume,
    graded.nonneg_rateFor count volume, fun version inForce => ?_, fun result found => ?_⟩
  · have graded := TierTable.graded_of_validate (valid_of_registered checks inForce.mem)
    exact ⟨version.content.rateFor count volume, version.content.rateFor count' volume',
      (rateAt_eq_ok_iff orderly).mpr ⟨version, inForce, rfl, rfl⟩,
      (rateAt_eq_ok_iff orderly).mpr ⟨version, inForce, rfl, rfl⟩,
      graded.rateFor_mono moreCount moreVolume, graded.isGreatest_rateFor count volume,
      graded.nonneg_rateFor count volume⟩
  · obtain ⟨version, inForce, isName, -⟩ := (rateAt_eq_ok_iff orderly).mp found
    exact ⟨version, inForce, isName⟩

/-- The volume of the second tier counts for a single depositor. -/
theorem rates_are_generous_trial :
    IsGreatest {rate | TierTable.first.Offers 1 (.ofInt 250000) rate} (.ofSmall 7 1) ∧
    TierTable.first.rateFor 1 (.ofInt 250000) ≤ TierTable.first.rateFor 20 (.ofInt 250000) ∧
    ∃ rate rate',
      TierSchedule.rateAt standard .epoch 1 (.ofInt 250000) = .ok (rate, "tiers_v1") ∧
      TierSchedule.rateAt standard .epoch 20 (.ofInt 250000) = .ok (rate', "tiers_v1") ∧
      rate ≤ rate' := by
  obtain ⟨grows, greatest, -, overTime, -⟩ := rates_are_generous .first (by decide)
    [⟨"tiers_v1", .epoch, .first⟩] .epoch (show 1 ≤ 20 by decide)
    (show Decimal.ofInt 250000 ≤ .ofInt 250000 by decide)
  rw [registered_standard] at overTime
  have inForce : Schedule.InForce standard .epoch (.new "tiers_v1" .epoch .first) :=
    ⟨List.mem_singleton.mpr rfl, by decide, fun other member _ => by
      rw [List.mem_singleton.mp member]
      exact Int.le_refl _⟩
  obtain ⟨rate, rate', found, found', less, -, -⟩ := overTime _ inForce
  exact ⟨greatest, grows, rate, rate', found, found', less⟩

end TierSchedule

end BridgeRewards
