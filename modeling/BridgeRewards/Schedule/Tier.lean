import BridgeRewards.Schedule.Basic

/-!
# Referral tiers

The rate of a referral reward depends on how many depositors the referrer has brought and on the
dollars they have moved.  A tier is reached by either; the highest tier that is reached gives the
rate.  In a valid table neither thresholds nor rates grow on the way down, and the default rate
is neither negative nor above the lowest tier.
-/

set_option autoImplicit false

namespace BridgeRewards

/-- A step of a tier table. -/
structure Tier where
  minCount : Nat
  minVolume : Rate
  rate : Rate
  deriving DecidableEq

/-- Tiers, the highest first, and the rate below all of them. -/
structure TierTable where
  tiers : List Tier
  defaultRate : Rate
  deriving DecidableEq

namespace Tier

/-- Whether a tier is reached by a number of depositors or by a volume in dollars. -/
def reached (tier : Tier) (count : Nat) (volume : Decimal) : Bool :=
  tier.minCount ≤ count || tier.minVolume.toDecimal ≤ volume

def toJson (tier : Tier) : Json :=
  .object [("minCount", .nat tier.minCount), ("minVolume", .string tier.minVolume.text),
    ("rate", .string tier.rate.text)]

/-- The tier that a document gives. -/
def ofJson? (json : Json) : Option Tier := do
  let fields ← json.asFields? ["minCount", "minVolume", "rate"]
  return { minCount := ← fields.required "minCount" Json.asNat64?
           minVolume := ← fields.required "minVolume" Json.asRate?
           rate := ← fields.required "rate" Json.asRate? }

end Tier

namespace TierTable

def toJson (table : TierTable) : Json :=
  .object [("tiers", .array (table.tiers.map Tier.toJson)),
    ("defaultRate", .string table.defaultRate.text)]

instance : Content TierTable := ⟨toJson⟩

/-- The table that a document gives. -/
def ofJson? (json : Json) : Option TierTable := do
  let fields ← json.asFields? ["tiers", "defaultRate"]
  return { tiers := ← fields.required "tiers" (Json.asList? Tier.ofJson?)
           defaultRate := ← fields.required "defaultRate" Json.asRate? }

/-- The first table. -/
def first : TierTable where
  tiers :=
    [⟨20, .ofSmall 500000 0, .ofSmall 8 1⟩,
     ⟨10, .ofSmall 250000 0, .ofSmall 7 1⟩,
     ⟨5, .ofSmall 100000 0, .ofSmall 6 1⟩,
     ⟨3, .ofSmall 50000 0, .ofSmall 5 1⟩]
  defaultRate := .ofSmall 4 1

/-- The fault of a tier that stands below another. -/
def stepFault? (upper lower : Tier) : Option RateTableFault :=
  if upper.minCount < lower.minCount ∨ upper.minVolume < lower.minVolume then
    some (.thresholdAbove lower.minCount lower.minVolume)
  else if upper.rate < lower.rate then some (.rateAbove lower.rate)
  else none

/-- The first fault between neighbouring tiers. -/
def stepsFault? : List Tier → Option RateTableFault
  | upper :: lower :: rest => (stepFault? upper lower).or (stepsFault? (lower :: rest))
  | _ => none

/-- The fault of the default rate. -/
def defaultFault? (table : TierTable) : Option RateTableFault :=
  match table.tiers.getLast? with
  | some lowest =>
    if lowest.rate < table.defaultRate then some (.defaultAbove table.defaultRate lowest.rate)
    else if table.defaultRate < Rate.zero then some .negativeDefault
    else none
  | none => if table.defaultRate < Rate.zero then some .negativeDefault else none

/-- Refuses a table whose thresholds or rates grow on the way down. -/
def validate (table : TierTable) : Except RewardError Unit :=
  match (stepsFault? table.tiers).or table.defaultFault? with
  | some fault => .error (.invalidRateTable fault)
  | none => .ok ()

/-- The rate of the first tier that is reached, or the default rate. -/
def rateFor (table : TierTable) (count : Nat) (volume : Decimal) : Rate :=
  match table.tiers.find? (·.reached count volume) with
  | some tier => tier.rate
  | none => table.defaultRate

end TierTable

/-- The referral tiers over time. -/
abbrev TierSchedule := Schedule TierTable

namespace TierSchedule

/-- The schedule with a valid table appended. -/
def register (schedule : TierSchedule) (versionId : String) (effectiveFrom : Instant)
    (table : TierTable) : Except RewardError TierSchedule := do
  table.validate
  Schedule.append schedule (.new versionId effectiveFrom table)

/-- The schedule with the first table alone, in force from the start of time. -/
def standard : TierSchedule := ⟨[.new "tiers_v1" .epoch .first]⟩

/-- The rate at an instant, and the version that it comes from. -/
def rateAt (schedule : TierSchedule) (instant : Instant) (count : Nat) (volume : Decimal) :
    Except RewardError (Rate × String) := do
  let version ← Schedule.versionAt schedule instant
  return (version.content.rateFor count volume, version.versionId)

end TierSchedule

end BridgeRewards
