import BridgeRewards.Proofs.Distributor.Rewards
import BridgeRewards.Proofs.Ledger.Claims

/-!
# After a window is written

A window that no one has claimed from does not change what referrers have brought, so rewards are
computed as before it was written (`context_eq_of_stamps`); only the deposits that are assigned to
it are no longer due (`due_eq_of_stamps`).
-/

set_option autoImplicit false

namespace BridgeRewards

/-- Some deposits of a ledger, none of which has a window of the kind, are assigned to a window;
other deposits and all claims stay. -/
structure Ledger.Stamps (before after : Ledger) (settled : Deposit → Bool) (kind : RewardType)
    (index : Nat) : Prop where
  free : ∀ d, settled d = true → d.windowFor kind = none
  deposits : after.deposits =
    before.deposits.mapValues fun d => if settled d then d.stamp kind index else d
  claims : after.claims = before.claims

namespace VolumeIndex

variable {claimed : ClaimedWindows} {kind : RewardType} {index : Nat} {deposits : List Deposit}

/-- A window that no one has claimed from counts as no window. -/
theorem counted?_stamp {d : Deposit} (free : d.windowFor kind = none)
    (unclaimed : ∀ account, index ∉ claimed.of account) :
    counted? claimed (d.stamp kind index) = counted? claimed d := by
  have unpaid : ∀ account, (d.stamp kind index).notPaidOut (claimed.of account) =
      d.notPaidOut (claimed.of account) := by
    intro account
    unfold Deposit.notPaidOut
    rw [Deposit.windowFor_stamp]
    by_cases same : RewardType.referral = kind
    · rw [if_pos same, same, free]
      simpa using unclaimed account
    · rw [if_neg same]
  have referrer : (d.stamp kind index).stickyReferralAddress = d.stickyReferralAddress := rfl
  have filled : (d.stamp kind index).isFilled = d.isFilled := rfl
  unfold counted?
  rw [referrer]
  cases d.stickyReferralAddress with
  | none => rfl
  | some referral =>
      dsimp only
      rw [unpaid, filled]
      rfl

theorem counted_map {change : Deposit → Deposit}
    (same : ∀ d ∈ deposits, counted? claimed (change d) = counted? claimed d) :
    counted claimed (deposits.map change) = counted claimed deposits := by
  induction deposits with
  | nil => rfl
  | cons d rest ih =>
      have later := ih fun e isLater => same e (List.mem_cons_of_mem _ isLater)
      rw [List.map_cons, counted, counted, same d List.mem_cons_self, later]

end VolumeIndex

namespace Ledger.Stamps

variable {before after : Ledger} {settled : Deposit → Bool} {kind : RewardType} {index : Nat}

theorem context_eq (stamps : Stamps before after settled kind index)
    (unclaimed : ∀ claim ∈ before.claims.values, claim.windowIndex ≠ index)
    (distributor : Distributor) (other : RewardType) :
    distributor.context after other = distributor.context before other := by
  have claimed : after.claimedWindows = before.claimedWindows := by
    unfold claimedWindows claimedBy claimsBy
    rw [stamps.claims]
  have absent : ∀ account, index ∉ before.claimedWindows.of account := by
    intro account
    rw [before.of_claimedWindows, ← List.contains_iff_mem]
    intro has
    obtain ⟨key, claim, found, -, isIndex⟩ := hasClaimed_iff.mp has
    exact unclaimed claim (Table.mem_values.mpr ⟨key, found⟩) isIndex
  have same : ∀ d ∈ before.deposits.values,
      VolumeIndex.counted? before.claimedWindows (if settled d then d.stamp kind index else d) =
        VolumeIndex.counted? before.claimedWindows d := by
    intro d _
    split
    · next isSettled => exact VolumeIndex.counted?_stamp (stamps.free d isSettled) absent
    · rfl
  unfold Distributor.context VolumeIndex.build
  rw [claimed, stamps.deposits, Table.values_mapValues, VolumeIndex.counted_map same]

/-- What is due afterwards is what was due before and is not assigned. -/
theorem due_eq (stamps : Stamps before after settled kind index) (cutoff : Instant) :
    after.due ⟨cutoff, kind⟩ = (before.due ⟨cutoff, kind⟩).filter fun d => !settled d := by
  have stays : ∀ d, (if settled d then d.stamp kind index else d).isEligible kind cutoff =
      (!settled d && d.isEligible kind cutoff) := by
    intro d
    cases isSettled : settled d with
    | true => simp [Deposit.isEligible, Deposit.isCandidate]
    | false => simp
  unfold due
  rw [stamps.deposits, Table.values_mapValues, List.filter_map, List.filter_filter]
  have same : ∀ d ∈ before.deposits.values.filter ((fun d => d.isEligible kind cutoff) ∘
      fun d => if settled d then d.stamp kind index else d),
      (if settled d then d.stamp kind index else d) = d := by
    intro d member
    have eligible := (List.mem_filter.mp member).2
    rw [Function.comp_apply, stays, Bool.and_eq_true, Bool.not_eq_true'] at eligible
    rw [if_neg (by simp [eligible.1])]
  rw [List.map_congr_left same, List.map_id']
  exact List.filter_congr fun d _ => stays d

theorem find?_eq (stamps : Stamps before after settled kind index) (keyed : before.Keyed)
    {d : Deposit} (member : d ∈ before.deposits.values) :
    after.deposits.find? d.key = some (if settled d then d.stamp kind index else d) := by
  rw [stamps.deposits, Table.find?_mapValues, Table.find?_of_mem_values keyed member]
  rfl

end Ledger.Stamps

end BridgeRewards
