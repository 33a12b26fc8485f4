import BridgeRewards.Command.Table
import BridgeRewards.Distributor.Jobs
import BridgeRewards.Fixture
import BridgeRewards.Json.Printer
import BridgeRewards.Ledger.Pricing

/-!
# Building one window out of a fixture

The records of a fixture are delivered to an empty ledger, the deposits are priced, and one job is
run.  What came of it is printed as a document or as tables.
-/

set_option autoImplicit false

namespace BridgeRewards

/-- What came of building one window. -/
structure WindowRun where
  delivered : DeliveryCount
  pricing : PricingReport
  job : Job
  /-- What is published, if the job is done. -/
  published : Option (WindowArtifact × List RecipientArtifact)

namespace WindowRun

/-- The name of the only job. -/
def jobId : String := "job#0"

/-- What is published once a job has ended. -/
def publishedBy (distributor : Distributor) (ledger : Ledger) (job : Job) :
    Except LedgerError (Option (WindowArtifact × List RecipientArtifact)) :=
  if job.status = .done then (distributor.artifacts ledger job.windowIndex).map some else .ok none

/-- Builds one window out of a fixture. -/
def ofFixture (settings : Settings) (now : Instant) (index : Nat) (config : JobConfig)
    (fixture : Fixture) : Except RunError WindowRun := do
  let lpFeeCap ← settings.cap.mapError .settings
  let (loaded, delivery) := fixture.load lpFeeCap .empty
  let delivered ← delivery.mapError .reward
  let (priced, pricing) := loaded.pricePending settings.rewardToken settings.chainId
  let distributor : Distributor := ⟨settings, .standard⟩
  let (after, outcome) := distributor.execute now priced jobId index config
  let job ← outcome
  let published ← (publishedBy distributor after job).mapError .ledger
  return { delivered, pricing, job, published }

def toJson (run : WindowRun) : Json :=
  .object ([("ingest", run.delivered.toJson), ("pricing", run.pricing.toJson),
      ("job", run.job.toJson)] ++
    (run.published.toList.map fun (window, _) => ("window", window.toJson)) ++
    [("recipients", .array ((run.published.elim [] (·.2)).map RecipientArtifact.toJson))])

/-! ## Tables -/

/-- The table of the records. -/
def deliveredLines (count : DeliveryCount) : List String :=
  Text.heading "Ingestion" ++
    [Text.row "Applied" (toString count.applied), Text.row "Duplicates" (toString count.duplicates),
     Text.row "Parked" (toString count.parked), Text.row "Ignored" (toString count.ignored)]

/-- The table of the prices. -/
def pricingLines (report : PricingReport) : List String :=
  Text.heading "Pricing" ++ [Text.row "Priced" (toString report.priced)]

/-- The table of the job. -/
def jobLines (job : Job) : List String :=
  Text.heading "Job" ++
    [Text.row "Job ID" job.jobId, Text.row "Window Index" (toString job.windowIndex),
     Text.row "Rewards Type" job.config.kind.name, Text.row "Status" job.status.name] ++
    (job.error.toList.map fun e => Text.row "Error" e) ++
    (if job.isTimed then [Text.row "Execution Time" "0.000s"] else []) ++
    (job.merkleRoot.toList.map fun root => Text.row "Merkle Root" root.text) ++
    [Text.row "Recipients" (toString job.recipientCount)]

/-- The tables of what is published. -/
def publishedLines (window : WindowArtifact) (recipients : List RecipientArtifact) : List String :=
  let line (index address amount : String) : String :=
    Text.column 8 index ++ " " ++ address ++ " " ++ amount
  Text.heading "Window Artifact" ++
    [Text.row "Chain" (toString window.chainId), Text.row "Contract" window.contractAddress.text,
     Text.row "Window Index" (toString window.windowIndex),
     Text.row "Reward Token" window.rewardToken.text,
     Text.row "Rewards To Deposit" window.rewardsToDeposit,
     Text.row "Merkle Root" window.merkleRoot.text, "",
     line "Index" (Text.column 44 "Address") "Amount", Text.rule] ++
    recipients.map fun r => line (toString r.accountIndex) r.address.text r.amount

/-- What came of building a window, as tables. -/
def tableLines (run : WindowRun) : List String :=
  deliveredLines run.delivered ++ [""] ++ pricingLines run.pricing ++ [""] ++ jobLines run.job ++
    match run.published with
    | some (window, recipients) => "" :: publishedLines window recipients
    | none => []

/-- A warning for each deposit without prices. -/
def warningLines (run : WindowRun) : List String :=
  run.pricing.gaps.map fun gap =>
    "Warning: deposit " ++ gap.deposit.text ++ " unpriced: " ++ gap.cause.message

end WindowRun

end BridgeRewards
