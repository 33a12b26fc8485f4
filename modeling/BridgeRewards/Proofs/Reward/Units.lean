import BridgeRewards.Proofs.Distributor.Rewards

/-!
# What single deposits contribute

The sum of units that an account has earned is the sum of what the single deposits contribute to
it (`value_unitsOf`).  As no account comes out negative, leaving out the deposits whose recipient
is not paid changes no sum (`PaysOut.unitsOver_filter_pays`).  So two payments, of which the second
takes up what the first leaves, come to what a single one would (`unitsOver_add_leftOver`).
-/

set_option autoImplicit false

namespace BridgeRewards

namespace RewardContext

variable {context : RewardContext} {d : Deposit} {reward : DepositReward} {address : Address}
  {deposits : List Deposit} {rewards : List DepositReward}

/-- The units that a deposit contributes to the sum of an account. -/
def unitsFor (context : RewardContext) (address : Address) (d : Deposit) : ℚ :=
  match PricedDeposit.ofDeposit d with
  | .ok (some values) =>
    match context.compute d values with
    | .ok reward => if reward.recipient = address then reward.rewardUnits.value else 0
    | .error _ => 0
  | _ => 0

theorem unitsFor_of_rewards (rewarded : context.Rewards d reward) (address : Address) :
    context.unitsFor address d =
      if reward.recipient = address then reward.rewardUnits.value else 0 := by
  obtain ⟨values, valued, computed⟩ := rewarded
  unfold Deposit.Valued at valued
  unfold unitsFor
  rw [valued]
  dsimp only
  rw [computed]

theorem unitsFor_eq_zero (other : d.rewardRecipient context.kind ≠ some address) :
    context.unitsFor address d = 0 := by
  unfold unitsFor
  split
  · split
    · next reward computed =>
        obtain ⟨recipient, usd, versions, receives, -, -, rfl⟩ := compute_eq_ok.mp computed
        exact if_neg fun same => other (receives.trans (congrArg some same))
    · rfl
  · rfl

/-- The units that some deposits contribute to the sum of an account. -/
def unitsOver (context : RewardContext) (address : Address) (deposits : List Deposit) : ℚ :=
  (deposits.map (context.unitsFor address)).sum

/-- **What an account has earned is what the single deposits contribute.** -/
theorem value_unitsOf (rewarded : List.Forall₂ context.Rewards deposits rewards)
    (address : Address) :
    (DepositReward.unitsOf address rewards).value = context.unitsOver address deposits := by
  rw [DepositReward.unitsOf, Decimal.value_sum, unitsOver]
  induction rewarded with
  | nil => rfl
  | @cons d reward _ rest first _ ih =>
      rw [List.map_cons, List.sum_cons, unitsFor_of_rewards first]
      unfold DepositReward.earnedBy at ih ⊢
      by_cases same : reward.recipient = address
      · rw [List.filter_cons_of_pos (by simpa using same), List.map_cons, List.map_cons,
          List.sum_cons, ih, if_pos same]
      · rw [List.filter_cons_of_neg (by simpa using same), ih, if_neg same, zero_add]

theorem unitsOver_filter_add (context : RewardContext) (accepts : Deposit → Bool)
    (address : Address) (deposits : List Deposit) :
    context.unitsOver address (deposits.filter accepts) +
        context.unitsOver address (deposits.filter fun d => !accepts d) =
      context.unitsOver address deposits := by
  simpa [unitsOver] using List.sum_map_filter_add_sum_map_filter_not
    (fun d => accepts d = true) (context.unitsFor address) deposits

theorem unitsOver_eq_zero
    (others : ∀ d ∈ deposits, d.rewardRecipient context.kind ≠ some address) :
    context.unitsOver address deposits = 0 := by
  refine List.sum_eq_zero fun units member => ?_
  obtain ⟨d, isDeposit, rfl⟩ := List.mem_map.mp member
  exact unitsFor_eq_zero (others d isDeposit)

/-- Whether the recipient of a deposit's reward is among some payees. -/
def pays (context : RewardContext) (payees : List Address) (d : Deposit) : Bool :=
  (d.rewardRecipient context.kind).any payees.contains

theorem pays_iff {payees : List Address} :
    context.pays payees d = true ↔
      ∃ address ∈ payees, d.rewardRecipient context.kind = some address := by
  unfold pays
  cases d.rewardRecipient context.kind <;> simp

/-- Deposits whose recipient is among some payees contribute to those only, and all of it. -/
theorem unitsOver_filter_pays (payees : List Address) (address : Address)
    (deposits : List Deposit) :
    context.unitsOver address (deposits.filter (context.pays payees)) =
      if address ∈ payees then context.unitsOver address deposits else 0 := by
  split
  · next isPaid =>
      have none : context.unitsOver address
          (deposits.filter fun d => !context.pays payees d) = 0 := by
        refine unitsOver_eq_zero fun d member receives => ?_
        have unpaid := (List.mem_filter.mp member).2
        rw [pays_iff.mpr ⟨address, isPaid, receives⟩] at unpaid
        cases unpaid
      rw [← context.unitsOver_filter_add (context.pays payees) address deposits, none, add_zero]
  · next unpaid =>
      refine unitsOver_eq_zero fun d member receives => unpaid ?_
      obtain ⟨other, isPaid, same⟩ := pays_iff.mp (List.mem_filter.mp member).2
      exact Option.some.inj (same.symm.trans receives) ▸ isPaid

/-- Who is paid for some deposits: everyone with a positive sum, where no sum is negative. -/
structure PaysOut (context : RewardContext) (deposits : List Deposit) (payees : List Address) :
    Prop where
  mem_payees : ∀ address, address ∈ payees ↔ 0 < context.unitsOver address deposits
  notNegative : ∀ address, 0 ≤ context.unitsOver address deposits

/-- The deposits whose recipient is paid make up every sum. -/
theorem PaysOut.unitsOver_filter_pays {payees : List Address}
    (paysOut : context.PaysOut deposits payees) (address : Address) :
    context.unitsOver address (deposits.filter (context.pays payees)) =
      context.unitsOver address deposits := by
  rw [RewardContext.unitsOver_filter_pays]
  split
  · rfl
  · next unpaid =>
      refine le_antisymm (paysOut.notNegative address) (not_lt.mp fun positive => unpaid ?_)
      exact (paysOut.mem_payees address).mpr positive

/-- The deposits whose recipient is not paid contribute nothing. -/
theorem PaysOut.unitsOver_unpaid {payees : List Address}
    (paysOut : context.PaysOut deposits payees) (address : Address) :
    context.unitsOver address (deposits.filter fun d => !context.pays payees d) = 0 := by
  have split := context.unitsOver_filter_add (context.pays payees) address deposits
  rwa [paysOut.unitsOver_filter_pays, add_eq_left] at split

/-! ## Paying in two parts

The early ones among some deposits are paid for first; those whose recipient is not paid are left
to the second payment, together with the others. -/

section TwoParts

variable {early : Deposit → Bool} {first second all : List Address}

/-- The deposits that are left to the second payment. -/
def leftOver (context : RewardContext) (early : Deposit → Bool) (first : List Address)
    (deposits : List Deposit) : List Deposit :=
  deposits.filter fun d => !(early d && context.pays first d)

/-- Two payments come to what one would. -/
theorem unitsOver_add_leftOver (firstPays : context.PaysOut (deposits.filter early) first)
    (address : Address) :
    context.unitsOver address (deposits.filter early) +
        context.unitsOver address (context.leftOver early first deposits) =
      context.unitsOver address deposits := by
  have settled : context.unitsOver address
      (deposits.filter fun d => early d && context.pays first d) =
        context.unitsOver address (deposits.filter early) := by
    rw [← firstPays.unitsOver_filter_pays, List.filter_filter]
    simp only [Bool.and_comm]
  rw [← settled, leftOver, unitsOver_filter_add]

variable (firstPays : context.PaysOut (deposits.filter early) first)
  (secondPays : context.PaysOut (context.leftOver early first deposits) second)
  (allPay : context.PaysOut deposits all)

include firstPays secondPays allPay

theorem pays_all (isPaid : context.pays first d = true ∨ context.pays second d = true) :
    context.pays all d = true := by
  have mem_all : ∀ address, address ∈ first ∨ address ∈ second → address ∈ all := by
    intro address isPaid
    rw [allPay.mem_payees, ← unitsOver_add_leftOver firstPays address]
    rcases isPaid with isFirst | isSecond
    · exact add_pos_of_pos_of_nonneg ((firstPays.mem_payees address).mp isFirst)
        (secondPays.notNegative address)
    · exact add_pos_of_nonneg_of_pos (firstPays.notNegative address)
        ((secondPays.mem_payees address).mp isSecond)
  rcases isPaid with isFirst | isSecond
  · obtain ⟨address, member, receives⟩ := pays_iff.mp isFirst
    exact pays_iff.mpr ⟨address, mem_all address (.inl member), receives⟩
  · obtain ⟨address, member, receives⟩ := pays_iff.mp isSecond
    exact pays_iff.mpr ⟨address, mem_all address (.inr member), receives⟩

end TwoParts

/-- What is left over by both payments contributes nothing. -/
theorem unitsOver_remainder {early : Deposit → Bool} {first second : List Address}
    (secondPays : context.PaysOut (context.leftOver early first deposits) second)
    (all : List Address) (address : Address) :
    context.unitsOver address (((context.leftOver early first deposits).filter
      fun d => !context.pays second d).filter (context.pays all)) = 0 := by
  rw [unitsOver_filter_pays, secondPays.unitsOver_unpaid, ite_self]

end RewardContext

end BridgeRewards
