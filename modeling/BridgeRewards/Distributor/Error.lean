import BridgeRewards.Ledger.Error
import BridgeRewards.Settings

/-!
# What can go wrong with a distributor

Settings are wrong, a job may not be created or run now, a rule of rewards is broken, or the
ledger refuses.
-/

set_option autoImplicit false

namespace BridgeRewards

/-- Why a job is not created, run or recovered. -/
inductive JobRefusal
  /-- Another job is building the window. -/
  | alreadyBuilding (jobId : String) (index : Nat)
  /-- Only a job that has not run yet can run. -/
  | notInitial (jobId : String) (status : JobStatus)
  /-- Another job is in progress. -/
  | lineBusy (jobId : String) (line : Line)
  /-- Only a job in progress can be recovered. -/
  | notInProgress (jobId : String) (status : JobStatus)
  deriving DecidableEq

/-- The wording of a refusal. -/
def JobRefusal.message : JobRefusal → String
  | alreadyBuilding jobId index =>
    "job " ++ jobId ++ " is already building window " ++ toString index
  | notInitial jobId status =>
    "job " ++ jobId ++ " is " ++ status.name ++ ", only Initial jobs can run"
  | lineBusy jobId line => "job " ++ jobId ++ " is still in progress on " ++ line.text
  | notInProgress jobId status =>
    "job " ++ jobId ++ " is " ++ status.name ++ ", only InProgress jobs can be recovered"

/-- Why a distributor fails. -/
inductive RunError
  | settings (fault : SettingsFault)
  | refused (refusal : JobRefusal)
  | reward (error : RewardError)
  | ledger (error : LedgerError)
  deriving DecidableEq

namespace RunError

/-- The wording of an error. -/
def message : RunError → String
  | settings fault => "Invalid configuration: " ++ fault.message
  | refused refusal => "Invalid configuration: " ++ refusal.message
  | reward error => error.message
  | ledger (.unknown row) => row.tableName ++ " not found: " ++ row.id
  | ledger error => "Storage error: " ++ error.message

/-- Whether the operator gave wrong settings or asked for what cannot be done now. -/
def isConfiguration : RunError → Bool
  | settings _ => true
  | refused _ => true
  | reward error => error.category == .configuration
  | ledger _ => false

end RunError

end BridgeRewards
