import BridgeRewards.Address
import BridgeRewards.Bytes
import BridgeRewards.Calendar.Date
import BridgeRewards.Calendar.Instant
import BridgeRewards.Chunks
import BridgeRewards.Command.Arguments
import BridgeRewards.Command.Error
import BridgeRewards.Command.Files
import BridgeRewards.Command.Options
import BridgeRewards.Command.Run
import BridgeRewards.Command.Table
import BridgeRewards.Command.WindowRun
import BridgeRewards.Decimal.Basic
import BridgeRewards.Decimal.Division
import BridgeRewards.Decimal.Plain
import BridgeRewards.Decimal.Reader
import BridgeRewards.Deposit.Basic
import BridgeRewards.Deposit.Document
import BridgeRewards.Deposit.Key
import BridgeRewards.Deposit.Standing
import BridgeRewards.Deposit.Valuation
import BridgeRewards.Distributor.Build
import BridgeRewards.Distributor.Error
import BridgeRewards.Distributor.Jobs
import BridgeRewards.Double
import BridgeRewards.Environment
import BridgeRewards.Error
import BridgeRewards.Event.Basic
import BridgeRewards.Event.Document
import BridgeRewards.Event.Key
import BridgeRewards.Fee
import BridgeRewards.Fixture
import BridgeRewards.Hash.Blake3
import BridgeRewards.Hash.Keccak
import BridgeRewards.Hash32
import BridgeRewards.Job.Basic
import BridgeRewards.Job.Status
import BridgeRewards.Json.Basic
import BridgeRewards.Json.Fields
import BridgeRewards.Json.Parser
import BridgeRewards.Json.Printer
import BridgeRewards.Ledger.Basic
import BridgeRewards.Ledger.Claims
import BridgeRewards.Ledger.Commit
import BridgeRewards.Ledger.Delivery
import BridgeRewards.Ledger.Error
import BridgeRewards.Ledger.Pricing
import BridgeRewards.Line
import BridgeRewards.Main
import BridgeRewards.Market
import BridgeRewards.Merkle.Leaf
import BridgeRewards.Merkle.Tree
import BridgeRewards.Order
import BridgeRewards.Powers
import BridgeRewards.Proofs.Address
import BridgeRewards.Proofs.Decimal.Division
import BridgeRewards.Proofs.Decimal.Number
import BridgeRewards.Proofs.Decimal.Plain
import BridgeRewards.Proofs.Decimal.Rounding
import BridgeRewards.Proofs.Decimal.Shortest
import BridgeRewards.Proofs.Decimal.Sum
import BridgeRewards.Proofs.Decimal.Text
import BridgeRewards.Proofs.Decimal.Value
import BridgeRewards.Proofs.Deposit.Change
import BridgeRewards.Proofs.Deposit.Fill
import BridgeRewards.Proofs.Deposit.Legible
import BridgeRewards.Proofs.Deposit.Lifecycle
import BridgeRewards.Proofs.Deposit.Readable
import BridgeRewards.Proofs.Deposit.Valuation
import BridgeRewards.Proofs.Distributor.Build
import BridgeRewards.Proofs.Distributor.Earnings
import BridgeRewards.Proofs.Distributor.Failure
import BridgeRewards.Proofs.Distributor.Jobs
import BridgeRewards.Proofs.Distributor.Kinds
import BridgeRewards.Proofs.Distributor.Leftovers
import BridgeRewards.Proofs.Distributor.Obstacle
import BridgeRewards.Proofs.Distributor.Payout
import BridgeRewards.Proofs.Distributor.Rewards
import BridgeRewards.Proofs.Distributor.Stamps
import BridgeRewards.Proofs.Fee.Share
import BridgeRewards.Proofs.Fee.Split
import BridgeRewards.Proofs.Ledger.AllOrNothing
import BridgeRewards.Proofs.Ledger.Claims
import BridgeRewards.Proofs.Ledger.Commit
import BridgeRewards.Proofs.Ledger.Delivery
import BridgeRewards.Proofs.Ledger.Growth
import BridgeRewards.Proofs.Ledger.Jobs
import BridgeRewards.Proofs.Ledger.Parking
import BridgeRewards.Proofs.Ledger.Pricing
import BridgeRewards.Proofs.Ledger.Quotes
import BridgeRewards.Proofs.Ledger.Reconciliation
import BridgeRewards.Proofs.Ledger.Retry
import BridgeRewards.Proofs.Ledger.Windows
import BridgeRewards.Proofs.Merkle.Climb
import BridgeRewards.Proofs.Merkle.Completeness
import BridgeRewards.Proofs.Merkle.Descent
import BridgeRewards.Proofs.Merkle.Packed
import BridgeRewards.Proofs.Outcome
import BridgeRewards.Proofs.Reward.Conversion
import BridgeRewards.Proofs.Reward.Index
import BridgeRewards.Proofs.Reward.Total
import BridgeRewards.Proofs.Reward.Units
import BridgeRewards.Proofs.Reward.Volume
import BridgeRewards.Proofs.Run.Advance
import BridgeRewards.Proofs.Run.Attempt
import BridgeRewards.Proofs.Run.Attribution
import BridgeRewards.Proofs.Run.Basic
import BridgeRewards.Proofs.Run.Blocking
import BridgeRewards.Proofs.Run.Claimants
import BridgeRewards.Proofs.Run.Claims
import BridgeRewards.Proofs.Run.Conclusion
import BridgeRewards.Proofs.Run.Consistent
import BridgeRewards.Proofs.Run.Execution
import BridgeRewards.Proofs.Run.Frame
import BridgeRewards.Proofs.Run.Funding
import BridgeRewards.Proofs.Run.History
import BridgeRewards.Proofs.Run.Independence
import BridgeRewards.Proofs.Run.Integrity
import BridgeRewards.Proofs.Run.Jobs
import BridgeRewards.Proofs.Run.Lifecycle
import BridgeRewards.Proofs.Run.Obstacle
import BridgeRewards.Proofs.Run.Percentages
import BridgeRewards.Proofs.Run.Pricing
import BridgeRewards.Proofs.Run.Published
import BridgeRewards.Proofs.Run.Redelivery
import BridgeRewards.Proofs.Run.Refusal
import BridgeRewards.Proofs.Run.Repetition
import BridgeRewards.Proofs.Run.Rows
import BridgeRewards.Proofs.Run.Settlement
import BridgeRewards.Proofs.Run.Split
import BridgeRewards.Proofs.Run.Step
import BridgeRewards.Proofs.Schedule.Basic
import BridgeRewards.Proofs.Schedule.Multiplier
import BridgeRewards.Proofs.Schedule.Registration
import BridgeRewards.Proofs.Schedule.Tier
import BridgeRewards.Proofs.Table
import BridgeRewards.Proofs.Text.Hex
import BridgeRewards.Proofs.Window.Canonical
import BridgeRewards.Proofs.Window.Soundness
import BridgeRewards.Proofs.Window.Tree
import BridgeRewards.Rate
import BridgeRewards.Reward.Basic
import BridgeRewards.Reward.Total
import BridgeRewards.Reward.Volume
import BridgeRewards.RewardType
import BridgeRewards.Schedule.Basic
import BridgeRewards.Schedule.Multiplier
import BridgeRewards.Schedule.Tier
import BridgeRewards.Settings
import BridgeRewards.Table
import BridgeRewards.Text.Blank
import BridgeRewards.Text.Digits
import BridgeRewards.Text.Hex
import BridgeRewards.Text.Quoted
import BridgeRewards.Text.Unprintable
import BridgeRewards.Window.Artifact
import BridgeRewards.Window.Basic
import BridgeRewards.Window.Tree
