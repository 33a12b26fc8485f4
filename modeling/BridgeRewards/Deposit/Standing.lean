import BridgeRewards.Deposit.Valuation

/-!
# The standing of a deposit towards rewards

Towards each kind of reward a deposit is unfilled, unpriced, priced, or assigned to a window.  A
deposit is a candidate for a window if it is filled, made no later than the cutoff, has no window
of that kind yet and has someone to receive the reward.
-/

set_option autoImplicit false

namespace BridgeRewards

namespace Deposit

/-- Whether a deposit has prices. -/
def isPriced (d : Deposit) : Bool := d.price.isSome

/-- Whether a deposit was made no later than a cutoff. -/
def madeBy (d : Deposit) (cutoff : Instant) : Bool := d.depositDate ≤ cutoff

/-- Whether a deposit came with a referral address. -/
def referredBy (d : Deposit) (referral : Address) : Bool := d.stickyReferralAddress == some referral

/-- Whether a deposit's referral window, if it has one, is not among the claimed windows. -/
def notPaidOut (d : Deposit) (claimed : List Nat) : Bool :=
  match d.windowFor .referral with
  | some index => !claimed.contains index
  | none => true

/-- Who receives a deposit's reward of some kind. -/
def rewardRecipient (d : Deposit) : RewardType → Option Address
  | .referral => d.stickyReferralAddress
  | .lpFee => some d.depositor
  | .bridgeFee => some d.depositor

/-- Whether a deposit is a candidate for a window. -/
def isCandidate (d : Deposit) (kind : RewardType) (cutoff : Instant) : Bool :=
  d.isFilled && d.madeBy cutoff && (d.windowFor kind).isNone && (d.rewardRecipient kind).isSome

/-- Whether a candidate also has prices. -/
def isEligible (d : Deposit) (kind : RewardType) (cutoff : Instant) : Bool :=
  d.isCandidate kind cutoff && d.isPriced

end Deposit

/-- The standing of a deposit towards a kind of reward. -/
inductive Standing
  | unfilled
  | unpriced
  | priced (values : PricedDeposit)
  | windowAssigned (index : Nat)
  deriving DecidableEq

namespace Standing

def name : Standing → String
  | unfilled => "unfilled"
  | unpriced => "unpriced"
  | priced _ => "priced"
  | windowAssigned _ => "window_assigned"

/-- The standing of a deposit; a filled deposit has to have fees. -/
def ofDeposit (d : Deposit) (kind : RewardType) : Except RewardError Standing :=
  if d.isFilled then
    match d.windowFor kind with
    | some index => .ok (windowAssigned index)
    | none =>
      match PricedDeposit.ofDeposit d with
      | .error e => .error e
      | .ok (some values) => .ok (priced values)
      | .ok none => if d.fees.isNone then .error (.filledWithoutFees d.key) else .ok unpriced
  else .ok unfilled

def toJson (standing : Standing) : Json :=
  let state := ("state", .string standing.name)
  match standing with
  | priced values => .object [state, ("priced", values.toJson)]
  | windowAssigned index => .object [state, ("windowIndex", .nat index)]
  | _ => .object [state]

end Standing

end BridgeRewards
