import BridgeRewards.Deposit.Document
import BridgeRewards.Job.Status

/-!
# Jobs

A job builds the window with some index, out of deposits up to a cutoff and for one kind of
reward.  Its report says how it stands and, once it has ended, what came of it.
-/

set_option autoImplicit false

namespace BridgeRewards

/-- What a job is to build. -/
structure JobConfig where
  maxDepositDate : Instant
  kind : RewardType
  deriving DecidableEq

/-- The state of a job in a document. -/
def Json.asJobStatus? (json : Json) : Option JobStatus :=
  json.asConstant?.bind JobStatus.ofName?

namespace JobConfig

/-- The settings that a document gives. -/
def ofJson? (json : Json) : Option JobConfig := do
  let fields ← json.asFields? ["maxDepositDate", "rewardsType"]
  return { maxDepositDate := ← fields.required "maxDepositDate" Json.asInstant?
           kind := ← fields.required "rewardsType" Json.asRewardType? }

def toJson (config : JobConfig) : Json :=
  .object [("maxDepositDate", .string config.maxDepositDate.text),
    ("rewardsType", .string config.kind.name)]

/-- Refuses a cutoff in the future. -/
def validate (config : JobConfig) (now : Instant) : Except RewardError Unit :=
  if now < config.maxDepositDate then
    .error (.invalidJobConfig (.cutoffInFuture config.maxDepositDate))
  else .ok ()

end JobConfig

/-- A job with what has come of it. -/
structure Job where
  jobId : String
  windowIndex : Nat
  status : JobStatus
  config : JobConfig
  error : Option String
  /-- Whether the time that the job took has been noted, which happens when it ends. -/
  isTimed : Bool
  merkleRoot : Option Hash32
  recipientCount : Nat
  deriving DecidableEq

namespace Job

/-- A new job. -/
def new (jobId : String) (windowIndex : Nat) (config : JobConfig) : Job :=
  { jobId, windowIndex, status := .initial, config, error := none, isTimed := false
    merkleRoot := none, recipientCount := 0 }

/-- The job in another state, if it may step there. -/
def become (job : Job) (status : JobStatus) : Except RewardError Job :=
  if job.status.canBecome status then .ok { job with status }
  else .error (.invalidJobTransition job.status status)

/-- The job as it begins to run. -/
def start (job : Job) : Except RewardError Job := job.become .inProgress

/-- The job after its window was built. -/
def complete (job : Job) (root : Hash32) (recipients : Nat) : Except RewardError Job := do
  return { ← job.become .done with
    merkleRoot := some root, recipientCount := recipients, isTimed := true }

/-- The job after its window could not be built. -/
def fail (job : Job) (reason : String) : Except RewardError Job := do
  return { ← job.become .failed with error := some reason, isTimed := true }

/-- A member of an object that is left out where there is nothing to write. -/
def present (name : String) (value : Option String) : List (String × Json) :=
  value.toList.map fun text => (name, .string text)

/-- The report on a job as a document.  No clock is kept, so the time that a job took is written
as zero seconds. -/
def toJson (job : Job) : Json :=
  .object ([("jobId", .string job.jobId), ("windowIndex", .nat job.windowIndex),
      ("rewardsType", .string job.config.kind.name), ("status", .string job.status.name)] ++
    present "error" job.error ++
    [("executionTimeSeconds", if job.isTimed then .real false .zero else .null)] ++
    present "merkleRoot" (job.merkleRoot.map Hash32.text) ++
    [("recipientCount", .nat job.recipientCount)])

end Job

end BridgeRewards
