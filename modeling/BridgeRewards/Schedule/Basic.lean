import BridgeRewards.Error
import BridgeRewards.Json.Printer

/-!
# Schedules of versions

Settings change over time but never for the past.  A schedule is a list of versions, each in
force from its own instant until the next one takes over, and a new version has to start after
the last.  Every version carries a digest of its content, so that a published window can name the
exact content it was computed with.
-/

set_option autoImplicit false

namespace BridgeRewards

/-- Content that a schedule can hold: it has a written form, from which its digest is taken. -/
class Content (α : Type) where
  toJson : α → Json

/-- The digest of some content: the hash of its compact written form. -/
def Content.digest {α : Type} [Content α] (content : α) : Hash32 :=
  Hash32.blake3 (Content.toJson content).compact.toUTF8.toList

instance : Content Json := ⟨Json.sorted⟩

/-- Some content with the instant from which it is in force. -/
structure Version (α : Type) where
  versionId : String
  effectiveFrom : Instant
  content : α
  digest : Hash32

namespace Version

variable {α : Type} [Content α]

/-- The version with the digest of its content. -/
def new (versionId : String) (effectiveFrom : Instant) (content : α) : Version α :=
  ⟨versionId, effectiveFrom, content, Content.digest content⟩

/-- Whether the digest is that of the content. -/
def digestMatches (version : Version α) : Bool := Content.digest version.content == version.digest

def toJson (version : Version α) : Json :=
  .object [("versionId", .string version.versionId),
    ("effectiveFrom", .string version.effectiveFrom.text),
    ("content", Content.toJson version.content), ("digest", .string version.digest.text)]

/-- The version that a document gives. -/
def ofJson? (readContent : Json → Option α) (json : Json) : Option (Version α) := do
  let fields ← json.asFields? ["versionId", "effectiveFrom", "content", "digest"]
  return { versionId := ← fields.required "versionId" Json.asString?
           effectiveFrom := ← fields.required "effectiveFrom" Json.asInstant?
           content := ← fields.required "content" readContent
           digest := ← fields.required "digest" Json.asHash? }

end Version

/-- The versions of some settings, in the order in which they were appended. -/
structure Schedule (α : Type) where
  versions : List (Version α)

namespace Schedule

variable {α : Type}

/-- The schedule without versions. -/
def empty : Schedule α := ⟨[]⟩

/-- The version with a name. -/
def get? (schedule : Schedule α) (versionId : String) : Option (Version α) :=
  schedule.versions.find? (·.versionId == versionId)

/-- The version that was appended last. -/
def latest? (schedule : Schedule α) : Option (Version α) := schedule.versions.getLast?

/-- The version in force at an instant: the last one that starts no later. -/
def versionAt (schedule : Schedule α) (instant : Instant) : Except RewardError (Version α) :=
  match schedule.versions.reverse.find? (fun v => decide (v.effectiveFrom ≤ instant)) with
  | some version => .ok version
  | none => .error (.noEffectiveVersion instant)

/-- The schedule with a version appended.  Its digest has to match, its name has to be new and it
has to start after the last version; the causes are looked for in this order. -/
def append [Content α] (schedule : Schedule α) (version : Version α) :
    Except RewardError (Schedule α) :=
  if version.digestMatches = false then .error (.scheduleDigestMismatch version.versionId)
  else if schedule.versions.any (·.versionId == version.versionId) then
    .error (.scheduleNotAppendOnly version.versionId .idTaken)
  else
    match schedule.latest? with
    | some last =>
      if version.effectiveFrom ≤ last.effectiveFrom then
        .error (.scheduleNotAppendOnly version.versionId (.notAfter last.effectiveFrom))
      else .ok ⟨schedule.versions ++ [version]⟩
    | none => .ok ⟨schedule.versions ++ [version]⟩

end Schedule

/-- The outcome of checking the digest of one version of a named schedule. -/
structure ScheduleCheck where
  schedule : String
  versionId : String
  effectiveFrom : Instant
  digest : Hash32
  valid : Bool
  content : Json

namespace ScheduleCheck

variable {α : Type} [Content α]

/-- Checks the digests of some versions. -/
def run (schedule : String) (versions : List (Version α)) : List ScheduleCheck :=
  versions.map fun v =>
    { schedule
      versionId := v.versionId
      effectiveFrom := v.effectiveFrom
      digest := v.digest
      valid := v.digestMatches
      content := (Content.toJson v.content).sorted }

def toJson (check : ScheduleCheck) : Json :=
  .object [("schedule", .string check.schedule), ("versionId", .string check.versionId),
    ("effectiveFrom", .string check.effectiveFrom.text), ("digest", .string check.digest.text),
    ("valid", .bool check.valid), ("content", check.content)]

end ScheduleCheck

end BridgeRewards
