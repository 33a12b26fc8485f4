import BridgeRewards.Distributor.Build

/-!
# Running jobs

A job is created, then run once.  It begins only if no other job is in progress and its index is
above every window of the line.  Whatever goes wrong after that is noted on the job, and nothing
else is written.  The window and the end of the job are written one after the other, so a job may
be left in progress; recovering it settles whether its window was written.
-/

set_option autoImplicit false

namespace BridgeRewards

namespace Distributor

/-- Refuses an index that the line has already, or that is below the line's last window. -/
def checkIndex (distributor : Distributor) (ledger : Ledger) (index : Nat) :
    Except RewardError Unit :=
  if ledger.hasWindow distributor.line index then
    .error (.windowIndexCollision distributor.line index)
  else
    match (ledger.windowsOn distributor.line).getLast? with
    | some latest =>
      if index < latest.windowIndex then
        .error (.invalidJobConfig (.belowLatest index latest.windowIndex distributor.line))
      else .ok ()
    | none => .ok ()

/-- Creates a job that has not run yet. -/
def createJob (distributor : Distributor) (now : Instant) (ledger : Ledger) (jobId : String)
    (index : Nat) (config : JobConfig) : Except RunError (Job × Ledger) := do
  (config.validate now).mapError .reward
  (distributor.checkIndex ledger index).mapError .reward
  match (ledger.jobsIn .inProgress).find? (·.windowIndex == index) with
  | some other => throw (.refused (.alreadyBuilding other.jobId index))
  | none => pure ()
  let job := Job.new jobId index config
  return (job, ← (ledger.createJob job).mapError .ledger)

/-- Puts a job that has not run yet in progress. -/
def beginJob (distributor : Distributor) (ledger : Ledger) (jobId : String) :
    Except RunError (Job × Ledger) := do
  let job ← (ledger.getJob jobId).mapError .ledger
  if job.status ≠ .initial then throw (.refused (.notInitial jobId job.status))
  match ledger.jobsIn .inProgress with
  | other :: _ => throw (.refused (.lineBusy other.jobId distributor.line))
  | [] => pure ()
  (distributor.checkIndex ledger job.windowIndex).mapError .reward
  let started ← job.start.mapError .reward
  return (started, ← (ledger.updateJob started).mapError .ledger)

/-- Builds and writes the window of a job. -/
def buildWindow (distributor : Distributor) (ledger : Ledger) (job : Job) :
    Except RunError (WindowCommit × Ledger) := do
  let commit ← (distributor.prepare ledger job).mapError .reward
  return (commit, ← (ledger.commit commit).mapError .ledger)

/-- Writes the end of a job. -/
def endJob (ledger : Ledger) (ended : Except RewardError Job) : Except RunError (Job × Ledger) := do
  let job ← ended.mapError .reward
  return (job, ← (ledger.updateJob job).mapError .ledger)

/-- Runs a job that has not run yet to its end.  An error leaves the ledger as it was. -/
def runJob (distributor : Distributor) (ledger : Ledger) (jobId : String) :
    Except RunError (Job × Ledger) := do
  let (job, started) ← distributor.beginJob ledger jobId
  match distributor.buildWindow started job with
  | .ok (commit, built) =>
    endJob built (job.complete commit.window.merkleRoot commit.recipients.length)
  | .error e => endJob started (job.fail e.message)

/-- Settles a job that was left in progress: it is done if its window was written, and failed for
the given reason otherwise. -/
def recoverJob (distributor : Distributor) (ledger : Ledger) (jobId reason : String) :
    Except RunError (Job × Ledger) := do
  let job ← (ledger.getJob jobId).mapError .ledger
  if job.status ≠ .inProgress then throw (.refused (.notInProgress jobId job.status))
  match ledger.windows.find? (distributor.line, job.windowIndex) with
  | some window =>
    if window.jobId = job.jobId then
      let count := (ledger.recipientsOf distributor.line job.windowIndex).length
      endJob ledger (job.complete window.merkleRoot count)
    else endJob ledger (job.fail reason)
  | none => endJob ledger (job.fail reason)

/-- Creates a job and runs it.  A job that was created but may not run stays. -/
def execute (distributor : Distributor) (now : Instant) (ledger : Ledger) (jobId : String)
    (index : Nat) (config : JobConfig) : Ledger × Except RunError Job :=
  match distributor.createJob now ledger jobId index config with
  | .error e => (ledger, .error e)
  | .ok (_, created) =>
    match distributor.runJob created jobId with
    | .error e => (created, .error e)
    | .ok (job, after) => (after, .ok job)

/-- A window of the line as it is published, with its recipients. -/
def artifacts (distributor : Distributor) (ledger : Ledger) (index : Nat) :
    Except LedgerError (WindowArtifact × List RecipientArtifact) := do
  let window ← ledger.getWindow distributor.line index
  let recipients := ledger.recipientsOf distributor.line index
  return (window.artifact, recipients.map Recipient.artifact)

end Distributor

end BridgeRewards
