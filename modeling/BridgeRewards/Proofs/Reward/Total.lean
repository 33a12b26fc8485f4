import BridgeRewards.Proofs.Decimal.Sum
import BridgeRewards.Proofs.Outcome
import BridgeRewards.Proofs.Table
import BridgeRewards.Reward.Total

/-!
# What totals add up

The total of a recipient sums up exactly the rewards with that recipient, in their order
(`find?_ofRewards`).  The totals to be paid are those that are not zero, in order of addresses,
and there are such totals only if none is negative (`finish_eq_ok`).  A deposit with a reward is
in one total, so no deposit is named twice.
-/

set_option autoImplicit false

namespace BridgeRewards

namespace RecipientTotal

/-- The total of a recipient over some rewards. -/
def ofEarned (address : Address) (rewards : List DepositReward) : RecipientTotal :=
  rewards.foldl add (none address)

/-- What is summed up over some rewards, on top of a total. -/
theorem foldl_add (rewards : List DepositReward) (t : RecipientTotal) :
    (rewards.foldl add t).address = t.address ∧
      (rewards.foldl add t).amount = (rewards.map (·.rewardUnits)).foldl (· + ·) t.amount ∧
      (rewards.foldl add t).rewardUsd = (rewards.map (·.rewardUsd)).foldl (· + ·) t.rewardUsd ∧
      (rewards.foldl add t).deposits = t.deposits ++ rewards.map (·.deposit) ∧
      (rewards.foldl add t).scheduleVersions = (rewards.flatMap (·.scheduleVersions)).foldl
        (fun versions v => versions.insert v ()) t.scheduleVersions := by
  induction rewards generalizing t with
  | nil => simp
  | cons reward rest ih =>
      obtain ⟨address, amount, usd, deposits, versions⟩ := ih (t.add reward)
      rw [List.foldl_cons]
      refine ⟨address, amount, usd, ?_, ?_⟩
      · rw [deposits, List.map_cons]
        exact List.append_assoc _ _ _
      · rw [versions, List.flatMap_cons, List.foldl_append]
        rfl

@[simp] theorem address_ofEarned (address : Address) (rewards : List DepositReward) :
    (ofEarned address rewards).address = address :=
  (foldl_add rewards (none address)).1

@[simp] theorem amount_ofEarned (address : Address) (rewards : List DepositReward) :
    (ofEarned address rewards).amount = Decimal.sum (rewards.map (·.rewardUnits)) :=
  (foldl_add rewards (none address)).2.1

@[simp] theorem rewardUsd_ofEarned (address : Address) (rewards : List DepositReward) :
    (ofEarned address rewards).rewardUsd = Decimal.sum (rewards.map (·.rewardUsd)) :=
  (foldl_add rewards (none address)).2.2.1

@[simp] theorem deposits_ofEarned (address : Address) (rewards : List DepositReward) :
    (ofEarned address rewards).deposits = rewards.map (·.deposit) :=
  (foldl_add rewards (none address)).2.2.2.1

end RecipientTotal

/-- How the sum of some rewards comes about: how many there are, what they sum up to in dollars,
and the names of the versions that they were computed with, in order and each once. -/
def DepositReward.breakdown (kind : RewardType) (rewards : List DepositReward) : Breakdown where
  kind := kind
  depositCount := rewards.length
  totalRewardUsd := (Decimal.sum (rewards.map (·.rewardUsd))).plain
  scheduleVersions :=
    (Table.ofList ((rewards.flatMap (·.scheduleVersions)).map fun v => (v, ()))).keys

theorem RecipientTotal.breakdown_ofEarned (address : Address) (rewards : List DepositReward)
    (kind : RewardType) :
    (ofEarned address rewards).breakdown kind = DepositReward.breakdown kind rewards := by
  have versions := (foldl_add rewards (none address)).2.2.2.2
  unfold breakdown DepositReward.breakdown Table.ofList
  rw [deposits_ofEarned, rewardUsd_ofEarned, List.length_map, List.foldl_map, ofEarned, versions]
  rfl

/-- The rewards of one recipient, in their order. -/
def DepositReward.earnedBy (recipient : Address) (rewards : List DepositReward) :
    List DepositReward :=
  rewards.filter fun reward => decide (reward.recipient = recipient)

namespace Totals

theorem find?_ofRewards (rewards : List DepositReward) (address : Address) :
    (ofRewards rewards).find? address =
      if DepositReward.earnedBy address rewards = [] then none
      else some (.ofEarned address (DepositReward.earnedBy address rewards)) := by
  exact Table.find?_foldl_group DepositReward.recipient RecipientTotal.none RecipientTotal.add
    rewards .empty address

/-- The totals are those over the rewards of each recipient that has some. -/
theorem mem_values_ofRewards {rewards : List DepositReward} {t : RecipientTotal} :
    t ∈ (ofRewards rewards).values ↔
      DepositReward.earnedBy t.address rewards ≠ [] ∧
        t = .ofEarned t.address (DepositReward.earnedBy t.address rewards) := by
  rw [Table.mem_values]
  constructor
  · rintro ⟨address, found⟩
    rw [find?_ofRewards] at found
    split at found
    · cases found
    · next some_ =>
        cases found
        rw [RecipientTotal.address_ofEarned]
        exact ⟨some_, rfl⟩
  · rintro ⟨some_, equal⟩
    refine ⟨t.address, ?_⟩
    rw [find?_ofRewards, if_neg some_, ← equal]

theorem pairwise_address_values (rewards : List DepositReward) :
    (ofRewards rewards).values.Pairwise fun a b => a.address < b.address := by
  have atKey : ∀ row ∈ (ofRewards rewards).rows, row.2.address = row.1 := by
    rintro ⟨address, t⟩ member
    have found := (Table.find?_eq_some_iff _ _ _).mpr member
    rw [find?_ofRewards] at found
    split at found
    · cases found
    · cases found
      exact RecipientTotal.address_ofEarned _ _
  refine List.pairwise_map.mpr ((ofRewards rewards).increasing.imp_of_mem ?_)
  intro a b isA isB less
  rw [atKey a isA, atKey b isB]
  exact Nat.compare_eq_lt.mp less

theorem payable_eq_ok {totals paid : List RecipientTotal} :
    payable totals = .ok paid ↔
      (∀ t ∈ totals, ¬ t.amount < 0) ∧ paid = totals.filter fun t => !t.amount.isZero := by
  induction totals generalizing paid with
  | nil => simp [payable, eq_comm]
  | cons t rest ih =>
      unfold payable
      by_cases negative : t.amount < 0
      · simp [negative]
      · rw [if_neg negative, Outcome.bind_eq_ok]
        constructor
        · rintro ⟨others, isOthers, equal⟩
          obtain ⟨positive, rfl⟩ := ih.mp isOthers
          refine ⟨List.forall_mem_cons.mpr ⟨negative, positive⟩, ?_⟩
          rw [← Except.ok.inj equal, List.filter_cons]
          by_cases zero : t.amount.isZero = true <;> simp [zero]
        · rintro ⟨positive, rfl⟩
          obtain ⟨-, positive⟩ := List.forall_mem_cons.mp positive
          refine ⟨_, ih.mpr ⟨positive, rfl⟩, ?_⟩
          rw [List.filter_cons]
          by_cases zero : t.amount.isZero = true <;> simp [zero, pure, Except.pure]

/-- What can be paid is refused only because of a negative sum. -/
theorem failsWith_payable (totals : List RecipientTotal) :
    Outcome.FailsWith (fun e => ∃ address amount, e = .negativeAggregate address amount ∧
      amount < 0) (payable totals) := by
  induction totals with
  | nil => exact Outcome.failsWith_ok _
  | cons total rest ih =>
      unfold payable
      split
      · next negative => exact Outcome.failsWith_error ⟨_, _, rfl, negative⟩
      · exact ih.bind fun _ => Outcome.failsWith_ok _

end Totals

/-! ## What is paid -/

/-- The units that some rewards come to for a recipient. -/
def DepositReward.unitsOf (recipient : Address) (rewards : List DepositReward) : Decimal :=
  Decimal.sum ((earnedBy recipient rewards).map (·.rewardUnits))

theorem Decimal.isZero_eq_false_iff {x : Decimal} (h : ¬ x < 0) : x.isZero = false ↔ 0 < x := by
  rw [lt_iff_value_lt, value_zero] at h ⊢
  rw [← Bool.not_eq_true, isZero_iff_value_eq]
  constructor
  · exact fun nonzero => lt_of_le_of_ne (not_lt.mp h) (Ne.symm nonzero)
  · exact fun positive => positive.ne'

namespace Totals

variable {rewards : List DepositReward} {paid : List RecipientTotal}

theorem unitsOf_of_finish (h : (ofRewards rewards).finish = .ok paid) (address : Address) :
    ¬ DepositReward.unitsOf address rewards < 0 := by
  obtain ⟨positive, -⟩ := payable_eq_ok.mp h
  by_cases none : DepositReward.earnedBy address rewards = []
  · rw [DepositReward.unitsOf, none]
    decide
  · have total := positive (.ofEarned address (DepositReward.earnedBy address rewards))
      (mem_values_ofRewards.mpr ⟨by simpa using none, by simp⟩)
    rw [RecipientTotal.amount_ofEarned] at total
    exact total

/-- A total is paid if it is the one over the rewards of a recipient with a positive sum. -/
theorem mem_of_finish (h : (ofRewards rewards).finish = .ok paid) {t : RecipientTotal} :
    t ∈ paid ↔ 0 < DepositReward.unitsOf t.address rewards ∧
      t = .ofEarned t.address (DepositReward.earnedBy t.address rewards) := by
  have positive := unitsOf_of_finish h t.address
  obtain ⟨-, rfl⟩ := payable_eq_ok.mp h
  have amount : t = .ofEarned t.address (DepositReward.earnedBy t.address rewards) →
      t.amount = DepositReward.unitsOf t.address rewards :=
    fun equal => (congrArg (·.amount) equal).trans (RecipientTotal.amount_ofEarned _ _)
  rw [List.mem_filter, mem_values_ofRewards, ← Decimal.isZero_eq_false_iff positive,
    Bool.not_eq_true']
  constructor
  · rintro ⟨⟨-, equal⟩, nonzero⟩
    rw [amount equal] at nonzero
    exact ⟨nonzero, equal⟩
  · rintro ⟨nonzero, equal⟩
    rw [amount equal]
    refine ⟨⟨fun none => ?_, equal⟩, nonzero⟩
    rw [DepositReward.unitsOf, none] at nonzero
    cases nonzero

theorem mem_map_address_of_finish (h : (ofRewards rewards).finish = .ok paid) {address : Address} :
    address ∈ paid.map (·.address) ↔ 0 < DepositReward.unitsOf address rewards := by
  constructor
  · intro member
    obtain ⟨t, isPaid, rfl⟩ := List.mem_map.mp member
    exact ((mem_of_finish h).mp isPaid).1
  · intro positive
    have isPaid := (mem_of_finish h).mpr (⟨by simpa using positive, by simp⟩ :
      0 < DepositReward.unitsOf (RecipientTotal.ofEarned address
        (DepositReward.earnedBy address rewards)).address rewards ∧ _)
    exact List.mem_map.mpr ⟨_, isPaid, RecipientTotal.address_ofEarned _ _⟩

theorem pairwise_address_of_finish (h : (ofRewards rewards).finish = .ok paid) :
    paid.Pairwise fun a b => a.address < b.address := by
  obtain ⟨-, rfl⟩ := payable_eq_ok.mp h
  exact (pairwise_address_values rewards).filter _

/-- The deposits of what is paid are those with a reward whose recipient is paid. -/
theorem mem_deposits_of_finish (h : (ofRewards rewards).finish = .ok paid) {key : DepositKey} :
    key ∈ paid.flatMap (·.deposits) ↔
      ∃ reward ∈ rewards, reward.deposit = key ∧
        0 < DepositReward.unitsOf reward.recipient rewards := by
  rw [List.mem_flatMap]
  constructor
  · rintro ⟨t, isPaid, member⟩
    obtain ⟨positive, equal⟩ := (mem_of_finish h).mp isPaid
    rw [equal, RecipientTotal.deposits_ofEarned] at member
    obtain ⟨reward, isReward, rfl⟩ := List.mem_map.mp member
    obtain ⟨isReward, recipient⟩ := List.mem_filter.mp isReward
    have recipient : reward.recipient = t.address := of_decide_eq_true recipient
    exact ⟨reward, isReward, rfl, recipient ▸ positive⟩
  · rintro ⟨reward, isReward, rfl, positive⟩
    refine ⟨.ofEarned reward.recipient (DepositReward.earnedBy reward.recipient rewards),
      (mem_of_finish h).mpr ⟨by simpa using positive, by simp⟩, ?_⟩
    rw [RecipientTotal.deposits_ofEarned]
    exact List.mem_map.mpr ⟨reward, List.mem_filter.mpr ⟨isReward, by simp⟩, rfl⟩

theorem nodup_deposits_of_finish (h : (ofRewards rewards).finish = .ok paid)
    (distinct : (rewards.map (·.deposit)).Nodup) : (paid.flatMap (·.deposits)).Nodup := by
  have source : ∀ t ∈ paid, t.deposits =
      (DepositReward.earnedBy t.address rewards).map (·.deposit) := by
    intro t isPaid
    rw [((mem_of_finish h).mp isPaid).2, RecipientTotal.deposits_ofEarned]
    simp
  refine List.nodup_flatMap.mpr ⟨fun t isPaid => ?_, ?_⟩
  · rw [source t isPaid]
    exact distinct.sublist (List.filter_sublist.map _)
  · refine (pairwise_address_of_finish h).imp_of_mem fun {a b} isA isB less => ?_
    change List.Disjoint a.deposits b.deposits
    rw [source a isA, source b isB]
    intro key inA inB
    obtain ⟨first, isFirst, rfl⟩ := List.mem_map.mp inA
    obtain ⟨second, isSecond, same⟩ := List.mem_map.mp inB
    obtain ⟨isFirst, toA⟩ := List.mem_filter.mp isFirst
    obtain ⟨isSecond, toB⟩ := List.mem_filter.mp isSecond
    obtain rfl := List.inj_on_of_nodup_map distinct isSecond isFirst same
    have equal : a.address = b.address := (of_decide_eq_true toA).symm.trans (of_decide_eq_true toB)
    exact Nat.lt_irrefl _ (equal ▸ less)

end Totals

end BridgeRewards
