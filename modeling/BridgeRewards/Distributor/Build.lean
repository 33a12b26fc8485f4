import BridgeRewards.Distributor.Error
import BridgeRewards.Ledger.Claims
import BridgeRewards.Ledger.Commit
import BridgeRewards.Reward.Total
import BridgeRewards.Window.Tree

/-!
# Building a window

A distributor builds windows on one line by given rules.  The rewards of the candidates are
summed up by recipient, the recipients become the leaves of a tree, and what results is ready to
be committed.  Candidates without prices are left for a later window.
-/

set_option autoImplicit false

namespace BridgeRewards

/-- One who builds windows with some settings and by some rules. -/
structure Distributor where
  settings : Settings
  rules : RewardRules

namespace RewardContext

/-- The reward of a candidate, if it has prices. -/
def rewardOf? (context : RewardContext) (d : Deposit) :
    Except RewardError (Option DepositReward) := do
  match ← Standing.ofDeposit d context.kind with
  | .priced values => some <$> context.compute d values
  | _ => return none

/-- The rewards of the candidates among some deposits, in order. -/
def rewardsBy (context : RewardContext) (cutoff : Instant) (deposits : List Deposit) :
    Except RewardError (List DepositReward) := do
  let candidates := deposits.filter (·.isCandidate context.kind cutoff)
  return (← candidates.mapM context.rewardOf?).filterMap id

end RewardContext

/-- A total as it goes into a tree. -/
def RecipientTotal.total (t : RecipientTotal) : Total := ⟨t.address, t.amount⟩

/-- The recipient of a leaf, with how its amount came about. -/
def Recipient.ofLeaf (index : Nat) (kind : RewardType) (totals : List RecipientTotal)
    (proven : ProvenLeaf) : Except RewardError Recipient :=
  match totals.find? (·.address == proven.leaf.account) with
  | none => .error (.leafWithoutTotal proven.leaf.account)
  | some t => .ok
    { windowIndex := index
      address := proven.leaf.account
      amount := proven.leaf.amount.plain
      accountIndex := proven.leaf.accountIndex
      proof := proven.proof
      payload := (t.breakdown kind).toJson }

namespace Distributor

/-- The line of a distributor. -/
def line (distributor : Distributor) : Line := distributor.settings.line

/-- What the rewards of a kind are computed from, given a ledger. -/
def context (distributor : Distributor) (ledger : Ledger) (kind : RewardType) :
    Except RewardError RewardContext := do
  let volumes ← VolumeIndex.build ledger.deposits.values ledger.claimedWindows
  return { kind
           rules := distributor.rules
           volumes
           rewardTokenDecimals := distributor.settings.rewardTokenDecimals }

/-- The totals that a job has to pay, in order of addresses. -/
def totals (distributor : Distributor) (ledger : Ledger) (config : JobConfig) :
    Except RewardError (List RecipientTotal) := do
  let context ← distributor.context ledger config.kind
  let rewards ← context.rewardsBy config.maxDepositDate ledger.deposits.values
  (Totals.ofRewards rewards).finish

/-- The window that a job builds from a ledger, ready to be committed. -/
def prepare (distributor : Distributor) (ledger : Ledger) (job : Job) :
    Except RewardError WindowCommit := do
  let totals ← distributor.totals ledger job.config
  let tree ← WindowTree.build (totals.map RecipientTotal.total)
  let recipients ← tree.leaves.mapM (Recipient.ofLeaf job.windowIndex job.config.kind totals)
  let settings := distributor.settings
  return { window :=
             { chainId := settings.chainId
               contractAddress := settings.contractAddress
               windowIndex := job.windowIndex
               rewardToken := settings.rewardToken
               rewardsToDeposit := tree.total.plain
               merkleRoot := tree.root
               ipfsHash := none
               kind := job.config.kind
               jobId := job.jobId }
           recipients
           deposits := totals.flatMap (·.deposits)
           kind := job.config.kind }

end Distributor

end BridgeRewards
