import BridgeRewards.Command.Arguments
import BridgeRewards.Command.Error
import BridgeRewards.Command.WindowRun
import BridgeRewards.Json.Parser

/-!
# Commands

What each command does with files, what it prints, and how it fails.
-/

set_option autoImplicit false

namespace BridgeRewards

/-- What a command prints, and how it fails if it does. -/
structure Outcome where
  output : String := ""
  warnings : String := ""
  failure : Option CommandError := none
  deriving DecidableEq

namespace Outcome

/-- The outcome of a command that prints a document. -/
def printed (json : Json) : Outcome := { output := json.indented ++ "\n" }

/-- The outcome of a command that may fail before it prints anything. -/
def ofExcept : Except CommandError Outcome → Outcome
  | .ok outcome => outcome
  | .error e => { failure := some e }

end Outcome

namespace Invocation

/-- The settings that the environment gives, with those of the command line in their place. -/
def settings (invocation : Invocation) (environment : Environment) :
    Except CommandError Settings := do
  let base ← (Settings.ofEnvironment environment).mapError .environment
  let address (option : String) (value : Option String) (default : Address) :
      Except CommandError Address :=
    match value with
    | none => .ok default
    | some text => (Address.parse text).mapError (.addressOption option)
  let settings : Settings := { base with
    chainId := invocation.chainId.getD base.chainId
    contractAddress := ← address "--contract" invocation.contract base.contractAddress
    rewardToken := ← address "--reward-token" invocation.rewardToken base.rewardToken
    rewardTokenDecimals := invocation.rewardTokenDecimals.getD base.rewardTokenDecimals }
  settings.validate.mapError (.run ∘ .settings)
  return settings

end Invocation

namespace WindowRequest

/-- The job that is asked for. -/
def jobConfig (request : WindowRequest) : Except CommandError JobConfig := do
  match Instant.ofStrictText? request.maxDepositDate with
  | none => throw .cutoffOption
  | some cutoff => return ⟨cutoff, ← (RewardType.parse request.kind).mapError .kindOption⟩

end WindowRequest

namespace WindowRun

/-- What is printed about a window. -/
def outcome (run : WindowRun) (format : Format) : Outcome :=
  { output := match format with
      | .json => run.toJson.indented ++ "\n"
      | .table => Text.lines run.tableLines
    warnings := match format with
      | .json => ""
      | .table => Text.lines run.warningLines
    failure := if run.job.status = .failed then
        some (.jobFailed run.job.jobId (run.job.error.getD ""))
      else none }

end WindowRun

/-- What is printed about checked proofs. -/
def ProofCheck.outcome (checks : List ProofCheck) (format : Format) : Outcome :=
  let line (index address status amount : String) : String :=
    Text.column 8 index ++ " " ++ Text.column 44 address ++ " " ++ Text.column 8 status ++ " " ++
      amount
  let failed := checks.countP (!·.valid)
  { output := match format with
      | .json => (Json.array (checks.map ProofCheck.toJson)).indented ++ "\n"
      | .table => Text.lines ([line "Index" "Address" "Status" "Amount", Text.rule] ++
          checks.map fun c =>
            line (toString c.accountIndex) c.address.text (if c.valid then "VALID" else "INVALID")
              c.amount)
    failure := if failed = 0 then none else some (.proofs failed checks.length) }

/-- The checks of all versions of the standard schedules. -/
def ScheduleCheck.standard : List ScheduleCheck :=
  run "tiers" TierSchedule.standard.versions ++
    run "multipliers" MultiplierSchedule.standard.versions

/-- What is printed about checked versions. -/
def ScheduleCheck.outcome (checks : List ScheduleCheck) : Outcome :=
  let failed := checks.countP (!·.valid)
  { Outcome.printed (.array (checks.map ScheduleCheck.toJson)) with
    failure := if failed = 0 then none else some (.digests failed checks.length) }

namespace Request

variable {m : Type → Type} [Monad m] [Files m]

/-- The document in a file. -/
def readDocument {α : Type} (read : Json → Option α) (path : String) :
    ExceptT CommandError m α := do
  let text ← ExceptT.mk (Except.mapError .file <$> Files.read path)
  match (Json.parse? text).bind read with
  | some document => return document
  | none => throw .document

/-- Writes what is published into a directory. -/
def publish (directory : String) (window : WindowArtifact) (recipients : List RecipientArtifact) :
    ExceptT CommandError m Unit := do
  let write (name : String) (json : Json) : ExceptT CommandError m Unit :=
    ExceptT.mk (Except.mapError .file <$> Files.write (pathIn directory name) json.indented)
  ExceptT.mk (Except.mapError .file <$> Files.makeDirectory directory)
  write "window.json" window.toJson
  write "recipients.json" (.array (recipients.map RecipientArtifact.toJson))

/-- Builds a window and publishes it. -/
def buildWindow (settings : Settings) (now : Instant) (format : Format) (request : WindowRequest) :
    ExceptT CommandError m Outcome := do
  let config ← ExceptT.mk (pure request.jobConfig)
  let fixture ← readDocument Fixture.ofJson? request.fixturePath
  let run ← ExceptT.mk (pure
    ((WindowRun.ofFixture settings now request.windowIndex config fixture).mapError .run))
  match request.outPath, run.published with
  | some directory, some (window, recipients) => publish directory window recipients
  | _, _ => pure ()
  return run.outcome format

/-- Checks published proofs. -/
def checkProofs (format : Format) (windowPath recipientsPath : String) :
    ExceptT CommandError m Outcome := do
  let window ← readDocument WindowArtifact.ofJson? windowPath
  let recipients ← readDocument (Json.asList? RecipientArtifact.ofJson?) recipientsPath
  let checks ← ExceptT.mk (pure ((ProofCheck.runAll window recipients).mapError .reward))
  return ProofCheck.outcome checks format

end Request

namespace Invocation

variable {m : Type → Type} [Monad m] [Files m]

/-- Does what a command line asks for, up to a failure. -/
def attempt (invocation : Invocation) (environment : Environment) (now : Instant) :
    ExceptT CommandError m Outcome :=
  let settled : ExceptT CommandError m Settings :=
    ExceptT.mk (pure (invocation.settings environment))
  match invocation.request with
  | .runWindow request => do
    Request.buildWindow (← settled) now invocation.format request
  | .verifyProofs windowPath recipientsPath =>
    Request.checkProofs invocation.format windowPath recipientsPath
  | .feeShare weiPct amount usdPrice decimals => ExceptT.mk (pure do
    let share ← (FeeShare.parse weiPct amount usdPrice decimals).mapError .reward
    return .printed share.toJson)
  | .feeSplit gasFeeUsd relayerFeeUsd relayerFeePct => ExceptT.mk (pure do
    let split ← (RelayerFeeSplit.parse gasFeeUsd relayerFeeUsd relayerFeePct).mapError .reward
    return .printed split.toJson)
  | .schedules => return ScheduleCheck.outcome ScheduleCheck.standard
  | .settings => do return .printed (← settled).toJson

/-- Does what a command line asks for. -/
def run (invocation : Invocation) (environment : Environment) (now : Instant) : m Outcome :=
  Outcome.ofExcept <$> (invocation.attempt environment now).run

end Invocation

end BridgeRewards
