import BridgeRewards.Error

/-!
# What can go wrong with the ledger

A row is missing or already there, or rows to be written do not fit those that are there.
-/

set_option autoImplicit false

namespace BridgeRewards

/-- What identifies a row of the ledger. -/
inductive LedgerRow
  | deposit (key : DepositKey)
  | window (line : Line) (index : Nat)
  | recipient (line : Line) (index : Nat) (address : Address)
  | job (jobId : String)
  deriving DecidableEq

namespace LedgerRow

/-- The name of the table of a row. -/
def tableName : LedgerRow → String
  | deposit _ => "Deposit"
  | window _ _ => "MerkleDistributorWindow"
  | recipient _ _ _ => "MerkleDistributorRecipient"
  | job _ => "RewardsWindowJob"

/-- What a row is called in its table. -/
def id : LedgerRow → String
  | deposit key => key.text
  | window line index => line.text ++ "#" ++ toString index
  | recipient line index address => line.text ++ "#" ++ toString index ++ "/" ++ address.text
  | job jobId => jobId

end LedgerRow

/-- Why the ledger refuses to answer or to write. -/
inductive LedgerError
  /-- There is no such row. -/
  | unknown (row : LedgerRow)
  /-- There is such a row already. -/
  | taken (row : LedgerRow)
  /-- The line has a window with this index already. -/
  | windowTaken (line : Line) (index : Nat)
  /-- A recipient says that it belongs to another window than the one it is written with. -/
  | strayRecipient (address : Address) (itsIndex index : Nat)
  /-- A row may not be changed in this way. -/
  | rejected (error : RewardError)
  deriving DecidableEq

/-- The wording of an error. -/
def LedgerError.message : LedgerError → String
  | unknown row => "Entity not found: " ++ row.tableName ++ " with id " ++ row.id
  | taken row => "Duplicate entity: " ++ row.tableName ++ " with id " ++ row.id
  | windowTaken line index =>
    "Conflict: window " ++ toString index ++ " already exists on " ++ line.text
  | strayRecipient address itsIndex index =>
    "Invalid entity state: recipient " ++ address.text ++ " belongs to window " ++
      toString itsIndex ++ ", not " ++ toString index
  | rejected error => "Invalid entity state: " ++ error.message

end BridgeRewards
