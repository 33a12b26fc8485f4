import BridgeRewards.Calendar.Instant
import BridgeRewards.Decimal.Plain
import BridgeRewards.Deposit.Key
import BridgeRewards.Job.Status
import BridgeRewards.Line
import BridgeRewards.Rate
import BridgeRewards.RewardType
import BridgeRewards.Text.Quoted

/-!
# What can go wrong with rewards

Each error is a cause with the values that it is about; its wording and its category are
functions of the cause.
-/

set_option autoImplicit false

namespace BridgeRewards

/-- Who has to act on an error. -/
inductive ErrorCategory
  /-- The operator, who gave wrong settings. -/
  | configuration
  /-- Whoever supplies the records. -/
  | dataIntegrity
  /-- The maintainers of this program. -/
  | internal
  deriving DecidableEq, Repr

def ErrorCategory.name : ErrorCategory → String
  | configuration => "Configuration"
  | dataIntegrity => "DataIntegrity"
  | internal => "Internal"

/-- Why a table of tiers or multipliers is refused. -/
inductive RateTableFault
  /-- A threshold of a tier is above that of the tier before it. -/
  | thresholdAbove (count : Nat) (volume : Rate)
  /-- The rate of a tier is above that of the tier before it. -/
  | rateAbove (rate : Rate)
  /-- The default rate is above that of the lowest tier. -/
  | defaultAbove (default lowest : Rate)
  /-- The default rate is below zero. -/
  | negativeDefault
  /-- The days of the cutovers do not increase, or a multiplier is below zero. -/
  | cutovers
  deriving DecidableEq

/-- Why a version is refused by a schedule. -/
inductive AppendFault
  /-- Its name is taken. -/
  | idTaken
  /-- It would take effect no later than the last version, which does so at `latest`. -/
  | notAfter (latest : Instant)
  deriving DecidableEq

/-- Why the settings of a job are refused. -/
inductive JobConfigFault
  /-- They cannot be read. -/
  | unreadable
  /-- No kind of reward has this name. -/
  | unknownRewardType (name : String)
  /-- The cutoff has not come yet. -/
  | cutoffInFuture (cutoff : Instant)
  /-- The line already has a window with a higher index. -/
  | belowLatest (index latest : Nat) (line : Line)
  deriving DecidableEq

/-- An error in the domain of rewards. -/
inductive RewardError
  | invalidFixedPoint (field value : String)
  | nonIntegerAmount (field value : String)
  | invalidAddress (value : String)
  | invalidHash (value : String)
  | windowAlreadyAssigned (deposit : DepositKey) (kind : RewardType) (index : Nat)
  | depositNotFilled (deposit : DepositKey)
  | stickyReferralImmutable (depositor current : Address)
  | missingRewardPrice (deposit : DepositKey)
  | scheduleNotAppendOnly (versionId : String) (fault : AppendFault)
  | noEffectiveVersion (instant : Instant)
  | scheduleDigestMismatch (versionId : String)
  | invalidRateTable (fault : RateTableFault)
  | invalidJobConfig (fault : JobConfigFault)
  | windowIndexCollision (line : Line) (index : Nat)
  | invalidJobTransition (source target : JobStatus)
  | duplicateRecipient (address : Address)
  | negativeAggregate (address : Address) (amount : Decimal)
  | emptyWindow
  | amountOutOfRange (value : Decimal)
  | leafIndexOutOfBounds (index leafCount : Nat)
  /-- A filled deposit has no fees. -/
  | filledWithoutFees (deposit : DepositKey)
  /-- A deposit has no one to receive a reward. -/
  | rewardWithoutRecipient (deposit : DepositKey) (kind : RewardType)
  /-- A leaf of a window's tree belongs to no total. -/
  | leafWithoutTotal (address : Address)
  deriving DecidableEq

namespace RateTableFault

/-- The wording of the fault. -/
def message : RateTableFault → String
  | thresholdAbove count volume =>
    "tier thresholds (" ++ toString count ++ ", " ++ volume.text ++ ") exceed the tier above"
  | rateAbove rate => "tier rate " ++ rate.text ++ " exceeds the tier above"
  | defaultAbove default lowest =>
    "default rate " ++ default.text ++ " exceeds lowest tier rate " ++ lowest.text
  | negativeDefault => "default rate is negative"
  | cutovers => "multiplier cutovers must be strictly increasing and non-negative"

end RateTableFault

namespace AppendFault

/-- The wording of the fault. -/
def message : AppendFault → String
  | idTaken => "version id already registered"
  | notAfter latest => "effective_from must be after " ++ latest.offsetText

end AppendFault

namespace JobConfigFault

/-- The wording of the fault. -/
def message : JobConfigFault → String
  | unreadable => "unreadable"
  | unknownRewardType name => "unknown rewards type " ++ Text.quoted name
  | cutoffInFuture cutoff => "maxDepositDate " ++ cutoff.offsetText ++ " is in the future"
  | belowLatest index latest line =>
    "window index " ++ toString index ++ " is below the latest window " ++ toString latest ++
      " on " ++ line.text

end JobConfigFault

namespace RewardError

/-- The wording of an error. -/
def message : RewardError → String
  | invalidFixedPoint field value =>
    "[RW-FEE-001] Invalid fixed-point value for " ++ field ++ ": " ++ Text.quoted value
  | nonIntegerAmount field value =>
    "[RW-FEE-002] Expected an integer amount for " ++ field ++ ", got " ++ value
  | invalidAddress value => "[RW-ID-001] Invalid address: " ++ Text.quoted value
  | invalidHash value => "[RW-ID-002] Invalid 32-byte hash: " ++ Text.quoted value
  | windowAlreadyAssigned deposit kind index =>
    "[RW-DEPOSIT-002] Deposit " ++ deposit.text ++ " already assigned to " ++ kind.name ++
      " window " ++ toString index
  | depositNotFilled deposit => "[RW-DEPOSIT-003] Deposit " ++ deposit.text ++ " is not filled"
  | stickyReferralImmutable depositor current =>
    "[RW-DEPOSIT-004] Sticky referral for " ++ depositor.text ++ " already set to " ++ current.text
  | missingRewardPrice deposit =>
    "[RW-PRICE-001] Missing reward token USD price for deposit " ++ deposit.text
  | scheduleNotAppendOnly versionId fault =>
    "[RW-SCHED-001] Schedule version " ++ versionId ++ " rejected: " ++ fault.message
  | noEffectiveVersion instant =>
    "[RW-SCHED-002] No schedule version effective at " ++ instant.offsetText
  | scheduleDigestMismatch versionId =>
    "[RW-SCHED-003] Schedule version " ++ versionId ++ " digest mismatch"
  | invalidRateTable fault => "[RW-SCHED-004] Invalid rate table: " ++ fault.message
  | invalidJobConfig fault => "[RW-JOB-001] Invalid job configuration: " ++ fault.message
  | windowIndexCollision line index =>
    "[RW-JOB-002] Window " ++ toString index ++ " already exists for chain " ++
      toString line.chainId ++ " contract " ++ line.contractAddress.text
  | invalidJobTransition source target =>
    "[RW-JOB-003] Invalid job status transition: " ++ source.name ++ " -> " ++ target.name
  | duplicateRecipient address =>
    "[RW-JOB-004] Duplicate recipient " ++ address.text ++ " in window"
  | negativeAggregate address amount =>
    "[RW-JOB-005] Negative aggregate " ++ amount.detailed ++ " for recipient " ++ address.text
  | emptyWindow => "[RW-JOB-006] Window has no eligible recipients"
  | amountOutOfRange value =>
    "[RW-MERKLE-001] Amount " ++ value.detailed ++ " cannot be encoded as uint256"
  | leafIndexOutOfBounds index leafCount =>
    "[RW-MERKLE-002] Leaf index " ++ toString index ++ " out of bounds (" ++ toString leafCount ++
      " leaves)"
  | filledWithoutFees deposit =>
    "Invariant violation: filled deposit carries fees - deposit " ++ deposit.text ++
      " is filled without a fee breakdown"
  | rewardWithoutRecipient deposit kind =>
    "Invariant violation: reward has a recipient - deposit " ++ deposit.text ++ " has no " ++
      kind.name ++ " recipient"
  | leafWithoutTotal address =>
    "Invariant violation: every leaf has an aggregate - leaf " ++ address.text ++
      " has no recipient total"

def name : RewardError → String
  | invalidFixedPoint .. => "InvalidFixedPoint"
  | nonIntegerAmount .. => "NonIntegerAmount"
  | invalidAddress .. => "InvalidAddress"
  | invalidHash .. => "InvalidHash"
  | windowAlreadyAssigned .. => "WindowAlreadyAssigned"
  | depositNotFilled .. => "DepositNotFilled"
  | stickyReferralImmutable .. => "StickyReferralImmutable"
  | missingRewardPrice .. => "MissingPrice"
  | scheduleNotAppendOnly .. => "ScheduleNotAppendOnly"
  | noEffectiveVersion .. => "NoEffectiveVersion"
  | scheduleDigestMismatch .. => "ScheduleDigestMismatch"
  | invalidRateTable .. => "InvalidRateTable"
  | invalidJobConfig .. => "InvalidJobConfig"
  | windowIndexCollision .. => "WindowIndexCollision"
  | invalidJobTransition .. => "InvalidJobTransition"
  | duplicateRecipient .. => "DuplicateRecipient"
  | negativeAggregate .. => "NegativeAggregate"
  | emptyWindow => "EmptyWindow"
  | amountOutOfRange .. => "AmountOutOfRange"
  | leafIndexOutOfBounds .. => "LeafIndexOutOfBounds"
  | filledWithoutFees .. => "InvariantViolation"
  | rewardWithoutRecipient .. => "InvariantViolation"
  | leafWithoutTotal .. => "InvariantViolation"

/-- The category of an error. -/
def category : RewardError → ErrorCategory
  | scheduleNotAppendOnly .. => .configuration
  | noEffectiveVersion .. => .configuration
  | scheduleDigestMismatch .. => .configuration
  | invalidRateTable .. => .configuration
  | invalidJobConfig .. => .configuration
  | windowIndexCollision .. => .configuration
  | invalidJobTransition .. => .configuration
  | leafIndexOutOfBounds .. => .internal
  | _ => .dataIntegrity

end RewardError

/-- The address that a text denotes. -/
def Address.parse (s : String) : Except RewardError Address :=
  match Address.ofText? s with
  | some address => .ok address
  | none => .error (.invalidAddress s)

/-- The hash that a text denotes. -/
def Hash32.parse (s : String) : Except RewardError Hash32 :=
  match Hash32.ofText? s with
  | some hash => .ok hash
  | none => .error (.invalidHash s)

/-- The kind of reward with an alias. -/
def RewardType.parse (s : String) : Except RewardError RewardType :=
  match RewardType.ofAlias? s with
  | some kind => .ok kind
  | none => .error (.invalidJobConfig (.unknownRewardType (RewardType.foldName s)))

end BridgeRewards
