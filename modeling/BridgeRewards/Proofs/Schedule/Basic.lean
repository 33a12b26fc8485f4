import BridgeRewards.Proofs.Outcome
import BridgeRewards.Schedule.Basic
import Mathlib.Data.List.Induction
import Mathlib.Data.List.Nodup

/-!
# The history of a schedule

Versions are offered to a schedule one after the other, and some of them are refused.  Whatever is
offered, the versions that the schedule holds start one after the other, have different names and
carry the digests of their contents (`orderly_offered`).  Because they start in order, looking for
the last one that has started finds the one that started last (`versionAt_eq_ok_iff`).  A version
that is taken stands behind all others, so it changes neither what is found under the name of an
earlier one nor what was in force before it starts (`Continues`).
-/

set_option autoImplicit false

namespace BridgeRewards

theorem Instant.not_le {a b : Instant} : ¬ a ≤ b ↔ b < a := Int.not_le

/-! ## Entries that start in order -/

section Started

variable {β : Type} (start : β → Int) {entries : List β} (now : Int)

theorem find?_started_eq_none_iff :
    entries.reverse.find? (fun e => decide (start e ≤ now)) = none ↔
      ∀ entry ∈ entries, now < start entry := by
  simp

variable (increasing : entries.Pairwise fun a b => start a < start b)
include increasing

/-- What is found has started, and nothing that has started started later. -/
theorem latest_of_find?_started {entry : β}
    (found : entries.reverse.find? (fun e => decide (start e ≤ now)) = some entry) :
    entry ∈ entries ∧ start entry ≤ now ∧
      ∀ other ∈ entries, start other ≤ now → start other ≤ start entry := by
  obtain ⟨started, later, earlier, split, notStarted⟩ := List.find?_eq_some_iff_append.mp found
  rw [List.reverse_eq_iff, List.reverse_append, List.reverse_cons, List.append_assoc,
    List.singleton_append] at split
  subst split
  refine ⟨by simp, of_decide_eq_true started, fun other member hasStarted => ?_⟩
  rcases List.mem_append.mp member with before | after
  · exact Int.le_of_lt ((List.pairwise_append.mp increasing).2.2 other before entry
      List.mem_cons_self)
  · rcases List.mem_cons.mp after with same | after
    · exact Int.le_of_eq (congrArg start same)
    · have waits := notStarted other (List.mem_reverse.mp after)
      simp [hasStarted] at waits

/-- Among entries that start in order, the last one that has started is the one that started
last. -/
theorem find?_started_eq_some_iff (entry : β) :
    entries.reverse.find? (fun e => decide (start e ≤ now)) = some entry ↔
      entry ∈ entries ∧ start entry ≤ now ∧
        ∀ other ∈ entries, start other ≤ now → start other ≤ start entry := by
  constructor
  · exact latest_of_find?_started start now increasing
  · rintro ⟨member, started, latest⟩
    have starts : (entries.map start).Nodup :=
      List.pairwise_map.mpr (increasing.imp fun less => Int.ne_of_lt less)
    cases found : entries.reverse.find? fun e => decide (start e ≤ now) with
    | none =>
        have waits := (find?_started_eq_none_iff start now).mp found entry member
        omega
    | some other =>
        obtain ⟨isOther, otherStarted, otherLatest⟩ :=
          latest_of_find?_started start now increasing found
        have same : start other = start entry :=
          Int.le_antisymm (latest other isOther otherStarted) (otherLatest entry member started)
        rw [List.inj_on_of_nodup_map starts isOther member same]

end Started

namespace Schedule

variable {α : Type} {schedule after : Schedule α} {version : Version α} {instant : Instant}

/-! ## The version in force -/

/-- A version is in force at an instant: of those that start no later, it starts last. -/
structure InForce (schedule : Schedule α) (instant : Instant) (version : Version α) : Prop where
  mem : version ∈ schedule.versions
  started : version.effectiveFrom ≤ instant
  latest : ∀ other ∈ schedule.versions, other.effectiveFrom ≤ instant →
    other.effectiveFrom ≤ version.effectiveFrom

theorem versionAt_eq_error_iff {e : RewardError} :
    schedule.versionAt instant = .error e ↔
      e = .noEffectiveVersion instant ∧
        ∀ version ∈ schedule.versions, instant < version.effectiveFrom := by
  have none : schedule.versions.reverse.find? (fun v => decide (v.effectiveFrom ≤ instant)) =
      none ↔ ∀ version ∈ schedule.versions, instant < version.effectiveFrom :=
    find?_started_eq_none_iff (fun v : Version α => v.effectiveFrom.nanos) instant.nanos
  rw [← none]
  unfold versionAt
  cases schedule.versions.reverse.find? fun v => decide (v.effectiveFrom ≤ instant) with
  | none => simp [eq_comm]
  | some found => simp

/-! ## Appending -/

section Appending

variable [Content α]

theorem append_eq_ok :
    schedule.append version = .ok after ↔
      version.digestMatches = true ∧
        (∀ earlier ∈ schedule.versions, earlier.versionId ≠ version.versionId) ∧
        (∀ last, schedule.latest? = some last → last.effectiveFrom < version.effectiveFrom) ∧
        after = ⟨schedule.versions ++ [version]⟩ := by
  unfold append
  by_cases sound : version.digestMatches = false
  · simp [sound]
  rw [if_neg sound]
  by_cases taken : schedule.versions.any (·.versionId == version.versionId) = true
  · rw [if_pos taken]
    obtain ⟨earlier, member, same⟩ := List.any_eq_true.mp taken
    constructor
    · intro h
      cases h
    · rintro ⟨-, free, -⟩
      exact absurd (by simpa using same) (free earlier member)
  rw [if_neg taken]
  have free : ∀ earlier ∈ schedule.versions, earlier.versionId ≠ version.versionId := by
    simpa using taken
  rw [iff_true_intro free]
  cases isLast : schedule.latest? with
  | none => simp [sound, eq_comm]
  | some last =>
      by_cases late : version.effectiveFrom ≤ last.effectiveFrom
      · simp [late, ← Instant.not_le]
      · simp [late, sound, ← Instant.not_le, eq_comm]

/-- What is so for the versions of a schedule at any time. -/
structure Orderly (schedule : Schedule α) : Prop where
  increasing : schedule.versions.Pairwise fun a b => a.effectiveFrom < b.effectiveFrom
  distinct : (schedule.versions.map (·.versionId)).Nodup
  digests : ∀ version ∈ schedule.versions, version.digestMatches = true

theorem orderly_empty : (empty : Schedule α).Orderly :=
  ⟨List.Pairwise.nil, List.nodup_nil, fun _ member => by cases member⟩

/-- **The version in force** is found at any instant at which there is one. -/
theorem Orderly.versionAt_eq_ok_iff (orderly : schedule.Orderly) :
    schedule.versionAt instant = .ok version ↔ schedule.InForce instant version := by
  have last : schedule.versions.reverse.find? (fun v => decide (v.effectiveFrom ≤ instant)) =
      some version ↔ version ∈ schedule.versions ∧ version.effectiveFrom ≤ instant ∧
        ∀ other ∈ schedule.versions, other.effectiveFrom ≤ instant →
          other.effectiveFrom ≤ version.effectiveFrom :=
    find?_started_eq_some_iff (fun v => v.effectiveFrom.nanos) instant.nanos orderly.increasing
      version
  have inForce : schedule.InForce instant version ↔
      version ∈ schedule.versions ∧ version.effectiveFrom ≤ instant ∧
        ∀ other ∈ schedule.versions, other.effectiveFrom ≤ instant →
          other.effectiveFrom ≤ version.effectiveFrom :=
    ⟨fun h => ⟨h.mem, h.started, h.latest⟩, fun h => ⟨h.1, h.2.1, h.2.2⟩⟩
  rw [inForce, ← last]
  unfold versionAt
  cases schedule.versions.reverse.find? fun v => decide (v.effectiveFrom ≤ instant) with
  | none => simp
  | some found => simp

theorem Orderly.lt_of_append (orderly : schedule.Orderly)
    (taken : schedule.append version = .ok after) :
    ∀ earlier ∈ schedule.versions, earlier.effectiveFrom < version.effectiveFrom := by
  obtain ⟨-, -, afterLast, -⟩ := append_eq_ok.mp taken
  intro earlier member
  cases isLast : schedule.versions.getLast? with
  | none =>
      rw [List.getLast?_eq_none_iff.mp isLast] at member
      cases member
  | some last =>
      obtain ⟨others, split⟩ := List.getLast?_eq_some_iff.mp isLast
      have next := afterLast last isLast
      rw [split] at member
      rcases List.mem_append.mp member with isOther | isLast
      · have increasing := orderly.increasing
        rw [split] at increasing
        have less := (List.pairwise_append.mp increasing).2.2 earlier isOther last
          List.mem_cons_self
        exact Int.lt_trans less next
      · rw [List.mem_singleton.mp isLast]
        exact next

theorem Orderly.append (orderly : schedule.Orderly)
    (taken : schedule.append version = .ok after) : after.Orderly := by
  have afterAll := orderly.lt_of_append taken
  obtain ⟨sound, free, -, rfl⟩ := append_eq_ok.mp taken
  refine ⟨?_, ?_, ?_⟩
  · refine List.pairwise_append.mpr ⟨orderly.increasing, List.pairwise_singleton _ _, ?_⟩
    intro earlier member later isLater
    rw [List.mem_singleton.mp isLater]
    exact afterAll earlier member
  · rw [List.map_append, List.map_singleton, List.nodup_append]
    refine ⟨orderly.distinct, List.nodup_singleton _, ?_⟩
    intro name isName other isOther
    obtain ⟨earlier, member, rfl⟩ := List.mem_map.mp isName
    rw [List.mem_singleton.mp isOther]
    exact free earlier member
  · intro later member
    rcases List.mem_append.mp member with isEarlier | isNew
    · exact orderly.digests later isEarlier
    · rw [List.mem_singleton.mp isNew]
      exact sound

/-! ## What stays -/

/-- One schedule continues another from some instant on: what was found under a name is found
still, and before that instant the same versions are in force. -/
structure Continues (schedule : Schedule α) (start : Instant) (after : Schedule α) : Prop where
  get? : ∀ versionId version, schedule.get? versionId = some version →
    after.get? versionId = some version
  versionAt : ∀ instant, instant < start → after.versionAt instant = schedule.versionAt instant

omit [Content α] in
theorem Continues.refl (schedule : Schedule α) (start : Instant) :
    schedule.Continues start schedule :=
  ⟨fun _ _ found => found, fun _ _ => rfl⟩

/-- A version that is taken changes nothing before it starts. -/
theorem continues_of_append (taken : schedule.append version = .ok after) :
    schedule.Continues version.effectiveFrom after := by
  obtain ⟨-, -, -, rfl⟩ := append_eq_ok.mp taken
  constructor
  · intro versionId earlier found
    have more : (schedule.versions ++ [version]).find? (·.versionId == versionId) =
        some earlier := by
      rw [List.find?_append]
      exact Option.or_eq_some_iff.mpr (.inl found)
    exact more
  · intro instant before
    have waits : decide (version.effectiveFrom ≤ instant) = false :=
      decide_eq_false (Instant.not_le.mpr before)
    unfold versionAt
    simp [waits]

/-! ## Offers in a row -/

/-- The schedule after a version was offered to it: with the version, or as it was if the version
is refused. -/
def offer (schedule : Schedule α) (version : Version α) : Schedule α :=
  (schedule.append version).toOption.getD schedule

/-- The schedule after some versions were offered to it in order, when it was empty at first. -/
def offered (versions : List (Version α)) : Schedule α := versions.foldl offer empty

theorem offered_concat (versions : List (Version α)) (version : Version α) :
    offered (versions ++ [version]) = (offered versions).offer version := by
  unfold offered
  exact List.foldl_concat _ _ _ _

theorem offer_of_ok (taken : schedule.append version = .ok after) :
    schedule.offer version = after := by
  rw [offer, taken]
  rfl

theorem offer_of_error {e : RewardError} (refused : schedule.append version = .error e) :
    schedule.offer version = schedule := by
  rw [offer, refused]
  rfl

/-- An offer that is refused keeps what one that is taken keeps. -/
theorem of_offer {P : Schedule α → Prop} (start : P schedule)
    (appended : ∀ after, schedule.append version = .ok after → P after) :
    P (schedule.offer version) := by
  cases taken : schedule.append version with
  | ok after =>
      rw [offer_of_ok taken]
      exact appended after taken
  | error e =>
      rw [offer_of_error taken]
      exact start

/-- **Whatever is offered, a schedule is orderly.** -/
theorem orderly_offered (versions : List (Version α)) : (offered versions).Orderly := by
  induction versions using List.reverseRecOn with
  | nil => exact orderly_empty
  | append_singleton earlier version ih =>
      rw [offered_concat]
      exact of_offer ih fun after taken => ih.append taken

theorem mem_of_mem_offered (versions : List (Version α)) :
    ∀ version ∈ (offered versions).versions, version ∈ versions := by
  induction versions using List.reverseRecOn with
  | nil => exact fun version member => member
  | append_singleton earlier next ih =>
      rw [offered_concat]
      refine of_offer (P := fun schedule => ∀ version ∈ schedule.versions,
        version ∈ earlier ++ [next]) ?_ fun after taken version member => ?_
      · exact fun version member => List.mem_append_left _ (ih version member)
      · obtain ⟨-, -, -, rfl⟩ := append_eq_ok.mp taken
        exact List.mem_append.mpr ((List.mem_append.mp member).imp_left (ih version))

/-- An offer changes nothing before the version that is offered starts, taken or not. -/
theorem continues_offer (schedule : Schedule α) (version : Version α) :
    schedule.Continues version.effectiveFrom (schedule.offer version) :=
  of_offer (.refl _ _) fun _ taken => continues_of_append taken

/-- Versions that start later do not change what is in force at an instant. -/
theorem versionAt_offered_append (earlier later : List (Version α))
    (waits : ∀ version ∈ later, instant < version.effectiveFrom) :
    (offered (earlier ++ later)).versionAt instant = (offered earlier).versionAt instant := by
  induction later using List.reverseRecOn with
  | nil => rw [List.append_nil]
  | append_singleton others last ih =>
      have lastWaits : instant < last.effectiveFrom := waits last (by simp)
      rw [← List.append_assoc, offered_concat,
        (continues_offer (offered (earlier ++ others)) last).versionAt instant lastWaits]
      exact ih fun version member => waits version (List.mem_append_left _ member)

end Appending

end Schedule

end BridgeRewards
