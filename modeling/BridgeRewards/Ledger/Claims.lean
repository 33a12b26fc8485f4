import BridgeRewards.Event.Document
import BridgeRewards.Ledger.Basic
import BridgeRewards.Reward.Volume

/-!
# Who has claimed what

Whether an account has claimed from a window is not kept anywhere; it is read off the claims.
-/

set_option autoImplicit false

namespace BridgeRewards

/-- A recipient with its claim. -/
structure RecipientStatus where
  recipient : Recipient
  claim : Option Claim

namespace RecipientStatus

/-- Whether a recipient has claimed. -/
def isClaimed (status : RecipientStatus) : Bool := status.claim.isSome

def toJson (status : RecipientStatus) : Json :=
  .object [("address", .string status.recipient.address.text),
    ("accountIndex", .nat status.recipient.accountIndex), ("isClaimed", .bool status.isClaimed),
    ("claim", .orNull (status.claim.map Claim.toJson))]

end RecipientStatus

namespace Ledger

/-- The windows that an account has claimed from, in order, each once. -/
def claimedBy (ledger : Ledger) (account : Address) : List Nat :=
  ((ledger.claimsBy account).map (·.windowIndex)).eraseDups

/-- Whether an account has claimed from a window. -/
def hasClaimed (ledger : Ledger) (account : Address) (windowIndex : Nat) : Bool :=
  (ledger.claimedBy account).contains windowIndex

/-- The highest window that an account has claimed from. -/
def latestClaimed? (ledger : Ledger) (account : Address) : Option Nat :=
  (ledger.claimedBy account).getLast?

/-- The windows claimed by each account that has claimed. -/
def claimedWindows (ledger : Ledger) : ClaimedWindows :=
  Table.ofList
    (ledger.claims.values.map fun claim => (claim.account, ledger.claimedBy claim.account))

/-- The recipients of a window with their claims; a claim counts for a recipient if index and
account agree. -/
def recipientStatus (ledger : Ledger) (line : Line) (index : Nat) : List RecipientStatus :=
  let claims := ledger.claimsFrom index
  (ledger.recipientsOf line index).map fun recipient =>
    ⟨recipient, claims.find? fun claim =>
      claim.accountIndex == recipient.accountIndex && claim.account == recipient.address⟩

end Ledger

end BridgeRewards
