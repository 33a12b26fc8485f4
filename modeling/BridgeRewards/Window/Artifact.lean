import BridgeRewards.Window.Tree

/-!
# Published artifacts

What is published about a window: the window with its root, and each recipient with the proof of
its leaf.  Anyone can check a recipient against the root.
-/

set_option autoImplicit false

namespace BridgeRewards

/-- A window as it is published. -/
structure WindowArtifact where
  chainId : Nat
  contractAddress : Address
  windowIndex : Nat
  rewardToken : Address
  rewardsToDeposit : String
  merkleRoot : Hash32
  deriving DecidableEq

/-- A recipient as it is published. -/
structure RecipientArtifact where
  windowIndex : Nat
  address : Address
  accountIndex : Nat
  amount : String
  proof : List Hash32
  deriving DecidableEq

namespace WindowArtifact

/-- The window that a document gives. -/
def ofJson? (json : Json) : Option WindowArtifact := do
  let fields ← json.asFields?
    ["chainId", "contractAddress", "windowIndex", "rewardToken", "rewardsToDeposit", "merkleRoot"]
  return { chainId := ← fields.required "chainId" Json.asNat64?
           contractAddress := ← fields.required "contractAddress" Json.asAddress?
           windowIndex := ← fields.required "windowIndex" Json.asNat64?
           rewardToken := ← fields.required "rewardToken" Json.asAddress?
           rewardsToDeposit := ← fields.required "rewardsToDeposit" Json.asString?
           merkleRoot := ← fields.required "merkleRoot" Json.asHash? }

def toJson (window : WindowArtifact) : Json :=
  .object [("chainId", .nat window.chainId),
    ("contractAddress", .string window.contractAddress.text),
    ("windowIndex", .nat window.windowIndex), ("rewardToken", .string window.rewardToken.text),
    ("rewardsToDeposit", .string window.rewardsToDeposit),
    ("merkleRoot", .string window.merkleRoot.text)]

end WindowArtifact

namespace RecipientArtifact

/-- The recipient that a document gives. -/
def ofJson? (json : Json) : Option RecipientArtifact := do
  let fields ← json.asFields? ["windowIndex", "address", "accountIndex", "amount", "proof"]
  return { windowIndex := ← fields.required "windowIndex" Json.asNat64?
           address := ← fields.required "address" Json.asAddress?
           accountIndex := ← fields.required "accountIndex" Json.asNat64?
           amount := ← fields.required "amount" Json.asString?
           proof := ← fields.required "proof" (Json.asList? Json.asHash?) }

def toJson (recipient : RecipientArtifact) : Json :=
  .object [("windowIndex", .nat recipient.windowIndex),
    ("address", .string recipient.address.text), ("accountIndex", .nat recipient.accountIndex),
    ("amount", .string recipient.amount),
    ("proof", .array (recipient.proof.map fun h => .string h.text))]

/-- Whether a recipient's proof leads to a root; the amount has to be an integer that fits. -/
def verify (recipient : RecipientArtifact) (root : Hash32) : Except RewardError Bool := do
  let amount ← Decimal.parseInteger "amount" recipient.amount
  let leaf : Leaf := ⟨recipient.accountIndex, recipient.address, amount⟩
  return Merkle.verify root (← leaf.hash) recipient.proof

end RecipientArtifact

/-- The outcome of checking one recipient of a window. -/
structure ProofCheck where
  accountIndex : Nat
  address : Address
  amount : String
  valid : Bool
  deriving DecidableEq

namespace ProofCheck

def toJson (check : ProofCheck) : Json :=
  .object [("accountIndex", .nat check.accountIndex), ("address", .string check.address.text),
    ("amount", .string check.amount), ("valid", .bool check.valid)]

/-- Checks one recipient: it has to belong to the window and its proof to lead to the root.  The
proof is not looked at if the recipient belongs to another window. -/
def run (window : WindowArtifact) (recipient : RecipientArtifact) :
    Except RewardError ProofCheck := do
  let valid ← if recipient.windowIndex = window.windowIndex then recipient.verify window.merkleRoot
    else pure false
  return ⟨recipient.accountIndex, recipient.address, recipient.amount, valid⟩

/-- Checks every recipient of a window. -/
def runAll (window : WindowArtifact) (recipients : List RecipientArtifact) :
    Except RewardError (List ProofCheck) := recipients.mapM (run window)

end ProofCheck

end BridgeRewards
