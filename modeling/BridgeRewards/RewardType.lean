import BridgeRewards.Text.Blank

/-!
# Kinds of rewards

Referral rewards go to the referral address that a depositor first came with; the two fee rewards
go to the depositor.  In this order the kinds also serve as keys.
-/

set_option autoImplicit false

namespace BridgeRewards

/-- A kind of reward. -/
inductive RewardType
  /-- A share of the liquidity fee, for the referrer. -/
  | referral
  /-- The liquidity fee, back to the depositor. -/
  | lpFee
  /-- The whole bridge fee, back to the depositor. -/
  | bridgeFee
  deriving DecidableEq, Repr

namespace RewardType

def name : RewardType → String
  | referral => "referral"
  | lpFee => "lp-fee"
  | bridgeFee => "bridge-fee"

/-- Every kind of reward, in order. -/
def all : List RewardType := [referral, lpFee, bridgeFee]

/-- The kind of reward with a name. -/
def ofName? (s : String) : Option RewardType := all.find? (·.name == s)

/-- What a person may call a kind of reward, in lower case. -/
def aliases : RewardType → List String
  | referral => ["referral", "referrals", "referral-rewards"]
  | lpFee => ["lp-fee", "lp", "op-rewards"]
  | bridgeFee => ["bridge-fee", "bridge"]

/-- A name as it is looked up among the aliases: without blanks at its ends, in lower case. -/
def foldName (s : String) : String := Text.lowerAscii (Text.trim s)

/-- The kind of reward with an alias, whatever its case. -/
def ofAlias? (s : String) : Option RewardType := all.find? (·.aliases.contains (foldName s))

end RewardType

/-- At most one value for each kind of reward. -/
structure PerRewardType (α : Type) where
  referral : Option α := none
  lpFee : Option α := none
  bridgeFee : Option α := none
  deriving DecidableEq

namespace PerRewardType

variable {α : Type}

/-- The value for a kind of reward. -/
def get? (values : PerRewardType α) : RewardType → Option α
  | .referral => values.referral
  | .lpFee => values.lpFee
  | .bridgeFee => values.bridgeFee

/-- The values with the one for a kind of reward replaced. -/
def set (values : PerRewardType α) (kind : RewardType) (value : α) : PerRewardType α :=
  match kind with
  | .referral => { values with referral := some value }
  | .lpFee => { values with lpFee := some value }
  | .bridgeFee => { values with bridgeFee := some value }

/-- The kinds of reward that have a value, with their values, in order. -/
def toList (values : PerRewardType α) : List (RewardType × α) :=
  RewardType.all.filterMap fun kind => (values.get? kind).map (kind, ·)

theorem get?_set (values : PerRewardType α) (kind other : RewardType) (value : α) :
    (values.set kind value).get? other =
      if other = kind then some value else values.get? other := by
  cases kind <;> cases other <;> rfl

/-- Values that agree on every kind are equal. -/
theorem ext {a b : PerRewardType α} (h : ∀ kind, a.get? kind = b.get? kind) : a = b := by
  have h1 := h .referral
  have h2 := h .lpFee
  have h3 := h .bridgeFee
  cases a; cases b
  simp_all [get?]

end PerRewardType

end BridgeRewards
