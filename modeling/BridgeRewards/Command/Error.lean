import BridgeRewards.Command.Files
import BridgeRewards.Distributor.Error

/-!
# How a command fails

Every failure has its wording and the code with which the program ends.
-/

set_option autoImplicit false

namespace BridgeRewards

/-- Why a command fails. -/
inductive CommandError
  /-- The environment variables hold wrong settings. -/
  | environment (fault : SettingsFault)
  /-- An option holds no address. -/
  | addressOption (option : String) (error : RewardError)
  /-- The cutoff is no instant. -/
  | cutoffOption
  /-- The kind of reward does not exist. -/
  | kindOption (error : RewardError)
  | file (fault : FileFault)
  /-- A file holds no document of the right form. -/
  | document
  | run (error : RunError)
  | reward (error : RewardError)
  /-- The job was run and failed. -/
  | jobFailed (jobId reason : String)
  /-- Some proofs do not lead to the root. -/
  | proofs (failed total : Nat)
  /-- Some versions do not match their digests. -/
  | digests (failed total : Nat)
  deriving DecidableEq

namespace CommandError

/-- The wording of a failure. -/
def message : CommandError → String
  | environment fault => "Configuration error: " ++ (RunError.settings fault).message
  | addressOption option error => "Invalid argument: " ++ option ++ ": " ++ error.message
  | cutoffOption => "Invalid argument: --max-deposit-date: not an RFC 3339 instant"
  | kindOption error => "Invalid argument: " ++ error.message
  | file fault => "File I/O error: " ++ fault.message
  | document => "JSON error: not a document of the expected form"
  | run error => "Executor error: " ++ error.message
  | reward error => "Core error: " ++ error.message
  | jobFailed jobId reason => "Job " ++ jobId ++ " failed: " ++ reason
  | proofs failed total =>
    toString failed ++ " of " ++ toString total ++ " proofs do not match the window root"
  | digests failed total =>
    toString failed ++ " of " ++ toString total ++ " schedule versions do not match their digest"

/-- The code with which the program ends after a failure. -/
def exitCode : CommandError → Nat
  | environment _ => 1
  | addressOption _ _ => 2
  | cutoffOption => 2
  | kindOption _ => 2
  | file _ => 5
  | document => 6
  | run error => if error.isConfiguration then 1 else 10
  | reward _ => 12
  | jobFailed _ _ => 20
  | proofs _ _ => 21
  | digests _ _ => 22

end CommandError

end BridgeRewards
