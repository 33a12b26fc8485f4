import BridgeRewards.Deposit.Document
import BridgeRewards.Line
import BridgeRewards.Window.Artifact

/-!
# Windows as they are kept

A window is kept with its line, the kind of reward that it pays and the job that built it; each
recipient with the proof of its leaf and with how its amount came about.
-/

set_option autoImplicit false

namespace BridgeRewards

/-- A window as it is kept. -/
structure Window where
  chainId : Nat
  contractAddress : Address
  windowIndex : Nat
  rewardToken : Address
  rewardsToDeposit : String
  merkleRoot : Hash32
  ipfsHash : Option String
  kind : RewardType
  jobId : String
  deriving DecidableEq

/-- A recipient as it is kept. -/
structure Recipient where
  windowIndex : Nat
  address : Address
  amount : String
  accountIndex : Nat
  proof : List Hash32
  /-- How the amount came about. -/
  payload : Json

namespace Window

/-- The line of a window. -/
def line (window : Window) : Line := ⟨window.chainId, window.contractAddress⟩

/-- A window as it is published. -/
def artifact (window : Window) : WindowArtifact :=
  { chainId := window.chainId
    contractAddress := window.contractAddress
    windowIndex := window.windowIndex
    rewardToken := window.rewardToken
    rewardsToDeposit := window.rewardsToDeposit
    merkleRoot := window.merkleRoot }

/-- The window that a document gives, built by some job. -/
def ofJson? (jobId : String) (json : Json) : Option Window := do
  let fields ← json.asNamedFields? ["chainId", "contractAddress", "windowIndex", "rewardToken",
    "rewardsToDeposit", "merkleRoot", "ipfsHash", "rewardsType"]
  return { chainId := ← fields.required "chainId" Json.asNat64?
           contractAddress := ← fields.required "contractAddress" Json.asAddress?
           windowIndex := ← fields.required "windowIndex" Json.asNat64?
           rewardToken := ← fields.required "rewardToken" Json.asAddress?
           rewardsToDeposit := ← fields.required "rewardsToDeposit" Json.asString?
           merkleRoot := ← fields.required "merkleRoot" Json.asHash?
           ipfsHash := ← fields.optional "ipfsHash" Json.asString?
           kind := ← fields.required "rewardsType" Json.asRewardType?
           jobId }

def toJson (window : Window) : Json :=
  .object [("chainId", .nat window.chainId),
    ("contractAddress", .string window.contractAddress.text),
    ("windowIndex", .nat window.windowIndex), ("rewardToken", .string window.rewardToken.text),
    ("rewardsToDeposit", .string window.rewardsToDeposit),
    ("merkleRoot", .string window.merkleRoot.text),
    ("ipfsHash", .orNull (window.ipfsHash.map .string)),
    ("rewardsType", .string window.kind.name), ("jobId", .string window.jobId)]

end Window

namespace Recipient

/-- A recipient as it is published. -/
def artifact (recipient : Recipient) : RecipientArtifact :=
  { windowIndex := recipient.windowIndex
    address := recipient.address
    accountIndex := recipient.accountIndex
    amount := recipient.amount
    proof := recipient.proof }

/-- The recipient that a document gives. -/
def ofJson? (json : Json) : Option Recipient := do
  let fields ← json.asFields?
    ["windowIndex", "address", "amount", "accountIndex", "proof", "payload"]
  return { windowIndex := ← fields.required "windowIndex" Json.asNat64?
           address := ← fields.required "address" Json.asAddress?
           amount := ← fields.required "amount" Json.asString?
           accountIndex := ← fields.required "accountIndex" Json.asNat64?
           proof := ← fields.required "proof" (Json.asList? Json.asHash?)
           payload := ← fields.required "payload" some }

def toJson (recipient : Recipient) : Json :=
  .object [("windowIndex", .nat recipient.windowIndex),
    ("address", .string recipient.address.text), ("amount", .string recipient.amount),
    ("accountIndex", .nat recipient.accountIndex),
    ("proof", .array (recipient.proof.map fun h => .string h.text)),
    ("payload", recipient.payload)]

end Recipient

end BridgeRewards
