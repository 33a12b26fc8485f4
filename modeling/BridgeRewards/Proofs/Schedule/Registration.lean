import BridgeRewards.Proofs.Schedule.Basic
import BridgeRewards.Schedule.Multiplier
import BridgeRewards.Schedule.Tier

/-!
# Registering tables

Tables are registered one after the other.  A table that does not pass its check is refused, and
one that does is offered to the schedule as a version with the right digest; so registering is
offering the valid tables (`registered_eq_offered`).  Everything that is so for versions offered in
a row is therefore so for registrations, and every table that is in force is a valid one
(`valid_of_registered`).
-/

set_option autoImplicit false

namespace BridgeRewards

/-- Some content that is handed in to be registered, with its name and its start. -/
structure Registration (α : Type) where
  versionId : String
  effectiveFrom : Instant
  content : α

variable {α : Type} [Content α]

/-- The version that a registration asks for. -/
def Registration.version (registration : Registration α) : Version α :=
  .new registration.versionId registration.effectiveFrom registration.content

theorem Version.digestMatches_new (versionId : String) (effectiveFrom : Instant) (content : α) :
    (Version.new versionId effectiveFrom content).digestMatches = true :=
  beq_self_eq_true (Content.digest content)

namespace Schedule

/-- Some way of handing content to a schedule. -/
abbrev Register (α : Type) :=
  Schedule α → String → Instant → α → Except RewardError (Schedule α)

/-- The schedule after some registrations in order, when it was empty at first; a registration
that is refused leaves it as it was. -/
def registered {α : Type} (register : Register α) (registrations : List (Registration α)) :
    Schedule α :=
  registrations.foldl
    (fun schedule r =>
      (register schedule r.versionId r.effectiveFrom r.content).toOption.getD schedule) empty

/-- A way of registering that checks the content and then appends it with its own digest. -/
def Checks (register : Register α) (validate : α → Except RewardError Unit) : Prop :=
  ∀ schedule versionId effectiveFrom content,
    register schedule versionId effectiveFrom content = (do
      validate content
      schedule.append (.new versionId effectiveFrom content))

variable {register : Register α} {validate : α → Except RewardError Unit}

/-- **To register is to offer** the versions whose content passes the check. -/
theorem registered_eq_offered (checks : Checks register validate)
    (registrations : List (Registration α)) :
    registered register registrations =
      offered ((registrations.filter fun r => (validate r.content).isOk).map
        Registration.version) := by
  induction registrations using List.reverseRecOn with
  | nil => rfl
  | append_singleton earlier r ih =>
      have step : registered register (earlier ++ [r]) =
          (register (registered register earlier) r.versionId r.effectiveFrom
            r.content).toOption.getD (registered register earlier) := by
        unfold registered
        exact List.foldl_concat _ _ _ _
      rw [step, checks, ih, List.filter_append, List.map_append]
      cases valid : validate r.content with
      | error e =>
          have dropped : [r].filter (fun r => (validate r.content).isOk) = [] := by
            simp [Outcome.isOk_iff, valid]
          rw [dropped, List.map_nil, List.append_nil]
          rfl
      | ok u =>
          have kept : [r].filter (fun r => (validate r.content).isOk) = [r] := by
            simp [Outcome.isOk_iff, valid]
          rw [kept, List.map_singleton, offered_concat]
          rfl

theorem orderly_registered (checks : Checks register validate)
    (registrations : List (Registration α)) : (registered register registrations).Orderly := by
  rw [registered_eq_offered checks]
  exact orderly_offered _

theorem valid_of_registered (checks : Checks register validate)
    {registrations : List (Registration α)} {version : Version α}
    (member : version ∈ (registered register registrations).versions) :
    validate version.content = .ok () := by
  rw [registered_eq_offered checks] at member
  obtain ⟨r, isRegistration, rfl⟩ := List.mem_map.mp (mem_of_mem_offered _ _ member)
  exact Outcome.isOk_iff.mp (List.mem_filter.mp isRegistration).2

theorem versionAt_registered_append (checks : Checks register validate)
    (earlier later : List (Registration α)) {instant : Instant}
    (waits : ∀ r ∈ later, instant < r.effectiveFrom) :
    (registered register (earlier ++ later)).versionAt instant =
      (registered register earlier).versionAt instant := by
  rw [registered_eq_offered checks, registered_eq_offered checks, List.filter_append,
    List.map_append]
  apply versionAt_offered_append
  intro version member
  obtain ⟨r, isRegistration, rfl⟩ := List.mem_map.mp member
  exact waits r (List.mem_filter.mp isRegistration).1

theorem registered_singleton (checks : Checks register validate) {r : Registration α}
    (valid : validate r.content = .ok ()) : registered register [r] = ⟨[r.version]⟩ := by
  have taken : (empty : Schedule α).append r.version = .ok ⟨[r.version]⟩ :=
    append_eq_ok.mpr ⟨Version.digestMatches_new _ _ _, by simp [empty], by simp [empty, latest?],
      rfl⟩
  have kept : [r].filter (fun r => (validate r.content).isOk) = [r] := by
    simp [Outcome.isOk_iff, valid]
  rw [registered_eq_offered checks, kept]
  exact offer_of_ok taken

end Schedule

theorem TierSchedule.checks : Schedule.Checks TierSchedule.register TierTable.validate :=
  fun _ _ _ _ => rfl

theorem MultiplierSchedule.checks :
    Schedule.Checks MultiplierSchedule.register MultiplierTable.validate :=
  fun _ _ _ _ => rfl

/-- The schedule that there is to begin with is made by one registration. -/
theorem TierSchedule.registered_standard :
    Schedule.registered register [⟨"tiers_v1", .epoch, .first⟩] = standard :=
  Schedule.registered_singleton checks (by decide)

theorem MultiplierSchedule.registered_standard :
    Schedule.registered register [⟨"multipliers_v1", .epoch, .first⟩] = standard :=
  Schedule.registered_singleton checks (by decide)

end BridgeRewards
