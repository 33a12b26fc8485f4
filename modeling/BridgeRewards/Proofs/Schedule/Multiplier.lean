import BridgeRewards.Proofs.Schedule.Registration
import Mathlib.Data.List.Chain

/-!
# The multiplier of a day

In a valid table the days of the cutovers increase, so the last cutover on or before a day is the
latest one, and a deposit gets its factor or, before the first cutover, the initial one
(`multiplierFor_eq_iff`).  The day is the universal day of the deposit (`Instant.IsOn`).

Together with what is known of offers in a row, this says that schedules do not rewrite history
(`history_is_kept`): whatever is offered or registered, accepted or refused, an instant keeps the
version, the rate and the factor that it had before a version that starts later came in.
-/

set_option autoImplicit false

namespace BridgeRewards

/-! ## The universal day -/

/-- An instant lies on a day: not before the day begins and before the next one does. -/
def Instant.IsOn (instant : Instant) (day : Date) : Prop :=
  day.days * nanosPerDay ≤ instant.nanos ∧ instant.nanos < (day.days + 1) * nanosPerDay

theorem Instant.date_eq_iff {instant : Instant} {day : Date} :
    instant.date = day ↔ instant.IsOn day := by
  have division : instant.date.days = instant.nanos / 86400000000000 :=
    Int.fdiv_eq_ediv_of_nonneg _ (by decide)
  have length : nanosPerDay = 86400000000000 := rfl
  unfold IsOn
  rw [length]
  constructor
  · rintro rfl
    omega
  · intro isOn
    have same : instant.date.days = day.days := by omega
    exact congrArg Date.mk same

namespace MultiplierTable

variable {table : MultiplierTable} {day : Date} {factor : Rate}

/-! ## The latest cutover -/

/-- The factor that a table has for a day. -/
inductive Applies (table : MultiplierTable) (day : Date) : Rate → Prop
  /-- The first cutover is still to come. -/
  | initial (waits : ∀ cutover ∈ table.cutovers, day < cutover.date) :
      Applies table day table.initial
  /-- The factor is that of the latest cutover on or before the day. -/
  | cutover {cutover : Cutover} (mem : cutover ∈ table.cutovers) (started : cutover.date ≤ day)
      (latest : ∀ other ∈ table.cutovers, other.date ≤ day → other.date ≤ cutover.date) :
      Applies table day cutover.multiplier

theorem datesIncrease_of_validate (valid : table.validate = .ok ()) :
    datesIncrease table.cutovers = true := by
  unfold validate at valid
  split at valid
  next passed => exact (Bool.and_eq_true_iff.mp passed).1
  next => cases valid

theorem isChain_of_datesIncrease {cutovers : List Cutover}
    (increase : datesIncrease cutovers = true) :
    cutovers.IsChain fun a b => a.date.days < b.date.days := by
  induction cutovers with
  | nil => exact .nil
  | cons a rest ih =>
      cases rest with
      | nil => exact .singleton a
      | cons b rest =>
          obtain ⟨less, tail⟩ := Bool.and_eq_true_iff.mp increase
          exact .cons_cons (of_decide_eq_true less) (ih tail)

theorem pairwise_of_validate (valid : table.validate = .ok ()) :
    table.cutovers.Pairwise fun a b => a.date.days < b.date.days := by
  let earlier : Cutover → Cutover → Prop := fun a b => a.date.days < b.date.days
  have : Trans earlier earlier earlier := ⟨Int.lt_trans⟩
  exact (isChain_of_datesIncrease (datesIncrease_of_validate valid)).pairwise

/-- **The factor of a day** in a valid table is the one that applies. -/
theorem multiplierFor_eq_iff (valid : table.validate = .ok ()) :
    table.multiplierFor day = factor ↔ table.Applies day factor := by
  have latestStarted : ∀ cutover,
      table.cutovers.reverse.find? (fun c => decide (c.date ≤ day)) = some cutover ↔
        cutover ∈ table.cutovers ∧ cutover.date ≤ day ∧
          ∀ other ∈ table.cutovers, other.date ≤ day → other.date ≤ cutover.date :=
    find?_started_eq_some_iff (fun c : Cutover => c.date.days) day.days
      (pairwise_of_validate valid)
  unfold multiplierFor
  cases found : table.cutovers.reverse.find? fun c => decide (c.date ≤ day) with
  | none =>
      have waits : ∀ cutover ∈ table.cutovers, day < cutover.date :=
        (find?_started_eq_none_iff (fun c : Cutover => c.date.days) day.days).mp found
      constructor
      · rintro rfl
        exact .initial waits
      · intro applies
        cases applies with
        | initial => rfl
        | cutover member started => exact absurd started (Int.not_le.mpr (waits _ member))
  | some last =>
      obtain ⟨member, started, latest⟩ := (latestStarted last).mp found
      constructor
      · rintro rfl
        exact .cutover member started latest
      · intro applies
        cases applies with
        | initial waits => exact absurd started (Int.not_le.mpr (waits last member))
        | @cutover other isOther otherStarted otherLatest =>
            have otherFound := (latestStarted other).mpr ⟨isOther, otherStarted, otherLatest⟩
            rw [found] at otherFound
            rw [Option.some.inj otherFound]

end MultiplierTable

/-! ## Factors over time -/

theorem MultiplierSchedule.multiplierAt_eq_ok_iff
    (registrations : List (Registration MultiplierTable)) {instant : Instant} {factor : Rate}
    {name : String} :
    MultiplierSchedule.multiplierAt (Schedule.registered register registrations) instant =
        .ok (factor, name) ↔
      ∃ version, (Schedule.registered register registrations).InForce instant version ∧
        version.versionId = name ∧
        ∃ day, instant.IsOn day ∧ version.content.Applies day factor := by
  have orderly := Schedule.orderly_registered checks registrations
  unfold multiplierAt
  rw [Outcome.bind_eq_ok]
  refine exists_congr fun version => ?_
  rw [orderly.versionAt_eq_ok_iff]
  refine and_congr_right fun inForce => ?_
  have valid := Schedule.valid_of_registered checks inForce.mem
  constructor
  · intro found
    obtain ⟨isFactor, isName⟩ := Prod.mk.inj (Except.ok.inj found)
    exact ⟨isName, instant.date, Instant.date_eq_iff.mp rfl,
      (MultiplierTable.multiplierFor_eq_iff valid).mp isFactor⟩
  · rintro ⟨rfl, day, isOn, applies⟩
    obtain rfl := Instant.date_eq_iff.mpr isOn
    rw [(MultiplierTable.multiplierFor_eq_iff valid).mpr applies]
    rfl

namespace Schedule

/-- **Schedules do not rewrite history.**  Whatever versions are offered to an empty schedule, it
is orderly, it finds the version in force wherever there is one, a version that is refused changes
nothing, and a version that is taken changes neither the versions under earlier names nor what is
in force before it starts.  So registrations that start after an instant change neither the rate
nor the factor there, and the factor is that of the latest cutover on the universal day in the
version in force. -/
theorem history_is_kept {α : Type} [Content α] (versions : List (Version α)) (version : Version α)
    (tiers laterTiers : List (Registration TierTable))
    (multipliers laterMultipliers : List (Registration MultiplierTable)) (now : Instant)
    (tiersWait : ∀ r ∈ laterTiers, now < r.effectiveFrom)
    (multipliersWait : ∀ r ∈ laterMultipliers, now < r.effectiveFrom) :
    (offered versions).Orderly ∧
    (∀ instant found, (offered versions).versionAt instant = .ok found ↔
      (offered versions).InForce instant found) ∧
    (∀ instant, (∃ e, (offered versions).versionAt instant = .error e) ↔
      ∀ earlier ∈ (offered versions).versions, instant < earlier.effectiveFrom) ∧
    (∀ e, (offered versions).append version = .error e →
      offered (versions ++ [version]) = offered versions) ∧
    (∀ after, (offered versions).append version = .ok after →
      offered (versions ++ [version]) = after ∧
      after.versions = (offered versions).versions ++ [version] ∧
      (offered versions).Continues version.effectiveFrom after) ∧
    (∀ count volume,
      TierSchedule.rateAt (registered TierSchedule.register (tiers ++ laterTiers)) now count volume =
        TierSchedule.rateAt (registered TierSchedule.register tiers) now count volume) ∧
    MultiplierSchedule.multiplierAt
        (registered MultiplierSchedule.register (multipliers ++ laterMultipliers)) now =
      MultiplierSchedule.multiplierAt (registered MultiplierSchedule.register multipliers) now ∧
    (∀ factor name,
      MultiplierSchedule.multiplierAt (registered MultiplierSchedule.register multipliers) now =
          .ok (factor, name) ↔
        ∃ inForce, (registered MultiplierSchedule.register multipliers).InForce now inForce ∧
          inForce.versionId = name ∧
          ∃ day, now.IsOn day ∧ inForce.content.Applies day factor) := by
  refine ⟨orderly_offered versions, fun _ _ => (orderly_offered versions).versionAt_eq_ok_iff,
    fun instant => ?_, fun e refused => ?_, fun after taken => ?_, fun count volume => ?_, ?_,
    fun _ _ => MultiplierSchedule.multiplierAt_eq_ok_iff multipliers⟩
  · constructor
    · rintro ⟨e, failed⟩
      exact (versionAt_eq_error_iff.mp failed).2
    · intro waits
      exact ⟨_, versionAt_eq_error_iff.mpr ⟨rfl, waits⟩⟩
  · rw [offered_concat, offer_of_error refused]
  · obtain ⟨-, -, -, isAfter⟩ := append_eq_ok.mp taken
    refine ⟨?_, congrArg Schedule.versions isAfter, continues_of_append taken⟩
    rw [offered_concat, offer_of_ok taken]
  · unfold TierSchedule.rateAt
    rw [versionAt_registered_append TierSchedule.checks tiers laterTiers tiersWait]
  · unfold MultiplierSchedule.multiplierAt
    rw [versionAt_registered_append MultiplierSchedule.checks multipliers laterMultipliers
      multipliersWait]

/-- Threefold in August 2022, also after a fivefold factor from 2023 on was registered. -/
theorem history_is_kept_trial :
    MultiplierSchedule.multiplierAt
        (registered MultiplierSchedule.register
          ([⟨"multipliers_v1", .epoch, .first⟩] ++
            [⟨"multipliers_v2", ⟨1672531200000000000⟩, ⟨.ofSmall 5 0, []⟩⟩]))
        ⟨1659312000000000000⟩ =
      .ok (.ofSmall 3 0, "multipliers_v1") := by
  have kept := history_is_kept ([] : List (Version Json)) (.new "v1" .epoch .null)
    [⟨"tiers_v1", .epoch, .first⟩] [⟨"tiers_v2", ⟨1672531200000000000⟩, ⟨[], .zero⟩⟩]
    [⟨"multipliers_v1", .epoch, .first⟩]
    [⟨"multipliers_v2", ⟨1672531200000000000⟩, ⟨.ofSmall 5 0, []⟩⟩]
    ⟨1659312000000000000⟩ (by decide) (by decide)
  rw [kept.2.2.2.2.2.2.1, MultiplierSchedule.registered_standard]
  rfl

end Schedule

end BridgeRewards
