import BridgeRewards.Schedule.Basic

/-!
# Multipliers

Every reward is multiplied by a factor that depends on the universal day of the deposit.  A table
gives the factor before its first cutover and the factor from each cutover on; in a valid table
the days of the cutovers increase strictly and no factor is negative.
-/

set_option autoImplicit false

namespace BridgeRewards

/-- A factor with the first day on which it applies. -/
structure Cutover where
  date : Date
  multiplier : Rate
  deriving DecidableEq

/-- The factor before the first cutover, and the cutovers in order. -/
structure MultiplierTable where
  initial : Rate
  cutovers : List Cutover
  deriving DecidableEq

namespace Cutover

def toJson (cutover : Cutover) : Json :=
  .object [("date", .string cutover.date.text), ("multiplier", .string cutover.multiplier.text)]

/-- The cutover that a document gives. -/
def ofJson? (json : Json) : Option Cutover := do
  let fields ← json.asFields? ["date", "multiplier"]
  return { date := ← fields.required "date" Json.asDate?
           multiplier := ← fields.required "multiplier" Json.asRate? }

end Cutover

namespace MultiplierTable

def toJson (table : MultiplierTable) : Json :=
  .object [("initial", .string table.initial.text),
    ("cutovers", .array (table.cutovers.map Cutover.toJson))]

instance : Content MultiplierTable := ⟨toJson⟩

/-- The table that a document gives. -/
def ofJson? (json : Json) : Option MultiplierTable := do
  let fields ← json.asFields? ["initial", "cutovers"]
  return { initial := ← fields.required "initial" Json.asRate?
           cutovers := ← fields.required "cutovers" (Json.asList? Cutover.ofJson?) }

/-- The first table: threefold, from September 2022 twofold, from October 2022 onefold. -/
def first : MultiplierTable where
  initial := .ofSmall 3 0
  cutovers :=
    [⟨Date.ofCivil ⟨2022, 9, 1⟩, .ofSmall 2 0⟩,
     ⟨Date.ofCivil ⟨2022, 10, 1⟩, .ofSmall 1 0⟩]

/-- Whether the days of some cutovers increase strictly. -/
def datesIncrease : List Cutover → Bool
  | a :: b :: rest => a.date < b.date && datesIncrease (b :: rest)
  | _ => true

/-- Whether no factor is negative. -/
def nonNegative (table : MultiplierTable) : Bool :=
  Rate.zero ≤ table.initial && table.cutovers.all fun c => decide (Rate.zero ≤ c.multiplier)

/-- Refuses a table whose days do not increase or that has a negative factor. -/
def validate (table : MultiplierTable) : Except RewardError Unit :=
  if datesIncrease table.cutovers && table.nonNegative then .ok ()
  else .error (.invalidRateTable .cutovers)

/-- The factor of the last cutover on or before a day, or the initial one. -/
def multiplierFor (table : MultiplierTable) (date : Date) : Rate :=
  match table.cutovers.reverse.find? (fun c => decide (c.date ≤ date)) with
  | some cutover => cutover.multiplier
  | none => table.initial

end MultiplierTable

/-- The multipliers over time. -/
abbrev MultiplierSchedule := Schedule MultiplierTable

namespace MultiplierSchedule

/-- The schedule with a valid table appended. -/
def register (schedule : MultiplierSchedule) (versionId : String) (effectiveFrom : Instant)
    (table : MultiplierTable) : Except RewardError MultiplierSchedule := do
  table.validate
  Schedule.append schedule (.new versionId effectiveFrom table)

/-- The schedule with the first table alone, in force from the start of time. -/
def standard : MultiplierSchedule := ⟨[.new "multipliers_v1" .epoch .first]⟩

/-- The factor for a deposit made at an instant, and the version that it comes from. -/
def multiplierAt (schedule : MultiplierSchedule) (instant : Instant) :
    Except RewardError (Rate × String) := do
  let version ← Schedule.versionAt schedule instant
  return (version.content.multiplierFor instant.date, version.versionId)

end MultiplierSchedule

end BridgeRewards
