import BridgeRewards.Ledger.Basic

/-!
# Committing a window

A window is written together with its recipients and with the assignment of its deposits, all or
nothing.  First everything is checked: the index is free on the line, every recipient belongs to
the window and stands in it once, every deposit is there and can be assigned.
-/

set_option autoImplicit false

namespace BridgeRewards

/-- A window to be written, with its recipients and deposits. -/
structure WindowCommit where
  window : Window
  recipients : List Recipient
  deposits : List DepositKey
  kind : RewardType

namespace Ledger

/-- Refuses recipients of another window, and addresses that stand twice or are `seen` already. -/
def checkRecipients (line : Line) (index : Nat) (seen : List Address) :
    List Recipient → Except LedgerError Unit
  | [] => .ok ()
  | recipient :: rest =>
    if recipient.windowIndex ≠ index then
      .error (.strayRecipient recipient.address recipient.windowIndex index)
    else if seen.contains recipient.address then
      .error (.taken (.recipient line index recipient.address))
    else checkRecipients line index (recipient.address :: seen) rest

/-- A deposit of the ledger assigned to a window. -/
def assigned (ledger : Ledger) (kind : RewardType) (index : Nat) (key : DepositKey) :
    Except LedgerError Deposit := do
  let d ← ledger.getDeposit key
  (d.assignWindow kind index).mapError .rejected

/-- Recipients in order of their indices. -/
def byAccountIndex (recipients : List Recipient) : List Recipient :=
  recipients.mergeSort fun a b => decide (a.accountIndex ≤ b.accountIndex)

/-- The ledger with deposits, recipients and window written. -/
def write (ledger : Ledger) (commit : WindowCommit) (deposits : List Deposit) : Ledger :=
  let place := (commit.window.line, commit.window.windowIndex)
  { ledger with
    deposits := deposits.foldl (fun table d => table.insert d.key d) ledger.deposits
    recipients := ledger.recipients.insert place (byAccountIndex commit.recipients)
    windows := ledger.windows.insert place commit.window }

/-- The ledger with a window, if all of it can be written. -/
def commit (ledger : Ledger) (commit : WindowCommit) : Except LedgerError Ledger := do
  let line := commit.window.line
  let index := commit.window.windowIndex
  if ledger.hasWindow line index then throw (.windowTaken line index)
  checkRecipients line index [] commit.recipients
  let deposits ← commit.deposits.mapM (ledger.assigned commit.kind index)
  return ledger.write commit deposits

end Ledger

end BridgeRewards
