import BridgeRewards.Proofs.Distributor.Build
import BridgeRewards.Proofs.Distributor.Stamps

/-!
# Windows of different kinds

A window that is entered into a ledger (`Ledger.enter`) changes nothing for another kind of reward.
The deposits that it is assigned to stay candidates and keep their rewards; and if it is a referral
window, by which referrers may have brought less, then the other kind does not ask what referrers
have brought.  So the same is prepared for the other kind (`prepare_enter`), and committing it comes
to the same as committing it first (`commit_enter`).
-/

set_option autoImplicit false

namespace BridgeRewards

variable {kind other : RewardType} {index : Nat}

/-! ## Deposits with windows of other kinds -/

theorem PerRewardType.set_comm {α : Type} (differ : kind ≠ other) (values : PerRewardType α)
    (first second : α) :
    (values.set kind first).set other second = (values.set other second).set kind first := by
  refine PerRewardType.ext fun third => ?_
  simp only [PerRewardType.get?_set]
  by_cases isOther : third = other
  · rw [if_pos isOther, if_pos isOther, if_neg fun same => differ (same.symm.trans isOther)]
  · rw [if_neg isOther, if_neg isOther]

namespace Deposit

variable {d : Deposit}

theorem windowFor_stamp_of_ne (differ : kind ≠ other) (index : Nat) (d : Deposit) :
    (d.stamp kind index).windowFor other = d.windowFor other := by
  rw [windowFor_stamp, if_neg differ.symm]

theorem stamp_comm (differ : kind ≠ other) (first second : Nat) (d : Deposit) :
    (d.stamp kind first).stamp other second = (d.stamp other second).stamp kind first := by
  unfold stamp
  dsimp only
  rw [PerRewardType.set_comm differ]

theorem isCandidate_stamp (differ : kind ≠ other) (index : Nat) (d : Deposit) (cutoff : Instant) :
    (d.stamp kind index).isCandidate other cutoff = d.isCandidate other cutoff := by
  unfold isCandidate
  rw [windowFor_stamp_of_ne differ]
  rfl

theorem assignWindow_stamp (differ : kind ≠ other) (first second : Nat) (d : Deposit) :
    (d.stamp kind first).assignWindow other second =
      (d.assignWindow other second).map (·.stamp kind first) := by
  have filled : (d.stamp kind first).isFilled = d.isFilled := rfl
  unfold assignWindow
  rw [windowFor_stamp_of_ne differ, filled]
  cases d.isFilled with
  | false => rfl
  | true =>
      cases d.windowFor other with
      | some existing => rfl
      | none => exact congrArg Except.ok (stamp_comm differ first second d)

end Deposit

/-- A deposit has the same reward of a kind whatever window of another kind it has. -/
theorem RewardContext.rewardOf?_stamp {context : RewardContext} (differ : kind ≠ context.kind)
    (index : Nat) (d : Deposit) : context.rewardOf? (d.stamp kind index) = context.rewardOf? d := by
  have standing : Standing.ofDeposit (d.stamp kind index) context.kind =
      Standing.ofDeposit d context.kind := by
    have filled : (d.stamp kind index).isFilled = d.isFilled := rfl
    unfold Standing.ofDeposit
    rw [Deposit.windowFor_stamp_of_ne differ, filled]
    rfl
  unfold rewardOf?
  rw [standing]
  rfl

namespace VolumeIndex

variable {claimed : ClaimedWindows}

/-- What counts for a referrer does not depend on windows of other kinds than that of referrals. -/
theorem counted?_stamp_of_ne (differ : kind ≠ .referral) (index : Nat) (d : Deposit) :
    counted? claimed (d.stamp kind index) = counted? claimed d := by
  have unpaid : ∀ windows, (d.stamp kind index).notPaidOut windows = d.notPaidOut windows := by
    intro windows
    unfold Deposit.notPaidOut
    rw [Deposit.windowFor_stamp_of_ne differ]
  have referrer : (d.stamp kind index).stickyReferralAddress = d.stickyReferralAddress := rfl
  have filled : (d.stamp kind index).isFilled = d.isFilled := rfl
  unfold counted?
  rw [referrer]
  cases d.stickyReferralAddress with
  | none => rfl
  | some referral =>
      dsimp only
      rw [unpaid, filled]
      rfl

theorem exists_counted?_stamp {d : Deposit} {first : Option (Address × PricedDeposit)}
    (isCounted : counted? claimed d = .ok first) (free : d.windowFor .referral = none)
    (kind : RewardType) (index : Nat) :
    ∃ other, counted? claimed (d.stamp kind index) = .ok other := by
  have referrer : (d.stamp kind index).stickyReferralAddress = d.stickyReferralAddress := rfl
  have filled : (d.stamp kind index).isFilled = d.isFilled := rfl
  unfold counted? at isCounted ⊢
  rw [referrer]
  cases isReferrer : d.stickyReferralAddress with
  | none => exact ⟨none, rfl⟩
  | some referral =>
      rw [isReferrer] at isCounted
      dsimp only at isCounted ⊢
      have unpaid : d.notPaidOut (claimed.of referral) = true := by
        unfold Deposit.notPaidOut
        rw [free]
      rw [unpaid, Bool.and_true] at isCounted
      rw [filled]
      split
      · next counts =>
          rw [if_pos (Bool.and_eq_true_iff.mp counts).1] at isCounted
          exact ⟨first, isCounted⟩
      · exact ⟨none, rfl⟩

/-- Where deposits can be counted, so can they with changes that leave them countable. -/
theorem exists_counted_map {change : Deposit → Deposit} {deposits : List Deposit}
    {all : List (Address × PricedDeposit)} (isCounted : counted claimed deposits = .ok all)
    (each : ∀ d ∈ deposits, ∀ first, counted? claimed d = .ok first →
      ∃ other, counted? claimed (change d) = .ok other) :
    ∃ others, counted claimed (deposits.map change) = .ok others := by
  induction deposits generalizing all with
  | nil => exact ⟨[], rfl⟩
  | cons d rest ih =>
      obtain ⟨first, isFirst, isCounted⟩ := Outcome.bind_eq_ok.mp isCounted
      obtain ⟨later, isLater, -⟩ := Outcome.bind_eq_ok.mp isCounted
      obtain ⟨other, isOther⟩ := each d List.mem_cons_self first isFirst
      obtain ⟨others, areOthers⟩ := ih isLater fun e member =>
        each e (List.mem_cons_of_mem _ member)
      exact ⟨other.toList ++ others, Outcome.bind_eq_ok.mpr ⟨other, isOther,
        Outcome.bind_eq_ok.mpr ⟨others, areOthers, rfl⟩⟩⟩

end VolumeIndex

namespace RewardContext

variable {context : RewardContext}

/-- Changes to deposits that keep candidates and rewards keep the rewards of a window. -/
theorem rewardsBy_map {change : Deposit → Deposit} {cutoff : Instant} {deposits : List Deposit}
    (candidates : ∀ d, (change d).isCandidate context.kind cutoff =
      d.isCandidate context.kind cutoff)
    (rewards : ∀ d, context.rewardOf? (change d) = context.rewardOf? d) :
    context.rewardsBy cutoff (deposits.map change) = context.rewardsBy cutoff deposits := by
  have same : (deposits.map change).filter (·.isCandidate context.kind cutoff) =
      (deposits.filter (·.isCandidate context.kind cutoff)).map change := by
    rw [List.filter_map]
    exact congrArg _ (List.filter_congr fun d _ => candidates d)
  unfold rewardsBy
  dsimp only
  rw [same, List.mapM_map, show context.rewardOf? ∘ change = context.rewardOf? from funext rewards]

/-- Only referral rewards ask what referrers have brought. -/
theorem rewardsBy_volumes (differ : context.kind ≠ .referral) (volumes : VolumeIndex)
    (cutoff : Instant) (deposits : List Deposit) :
    { context with volumes }.rewardsBy cutoff deposits = context.rewardsBy cutoff deposits := by
  have usd : ∀ recipient values, { context with volumes }.rewardUsd recipient values =
      context.rewardUsd recipient values := by
    intro recipient values
    obtain ⟨kind, rules, before, decimals⟩ := context
    cases kind with
    | referral => exact (differ rfl).elim
    | lpFee => rfl
    | bridgeFee => rfl
  have rewards : { context with volumes }.rewardOf? = context.rewardOf? := by
    funext d
    unfold rewardOf? compute
    simp only [usd]
  unfold rewardsBy
  rw [rewards]

end RewardContext

/-! ## Entering a window -/

/-- A deposit after a commit: with the window if it is one of those that the commit names. -/
def WindowCommit.stampOn (commit : WindowCommit) (d : Deposit) : Deposit :=
  if d.key ∈ commit.deposits then d.stamp commit.kind commit.window.windowIndex else d

namespace WindowCommit

theorem key_stampOn (commit : WindowCommit) (d : Deposit) : (commit.stampOn d).key = d.key := by
  unfold stampOn
  split
  · rfl
  · rfl

/-- A deposit can be assigned to a window of another kind before or after a commit. -/
theorem assignWindow_stampOn {commit : WindowCommit} (differ : commit.kind ≠ kind) (index : Nat)
    (d : Deposit) :
    (commit.stampOn d).assignWindow kind index =
      (d.assignWindow kind index).map commit.stampOn := by
  by_cases named : d.key ∈ commit.deposits
  · rw [stampOn, if_pos named, Deposit.assignWindow_stamp differ]
    cases assigned : d.assignWindow kind index with
    | error e => rfl
    | ok after =>
        obtain ⟨-, -, rfl⟩ := Deposit.assignWindow_eq_ok.mp assigned
        exact congrArg Except.ok (if_pos named).symm
  · rw [stampOn, if_neg named]
    cases assigned : d.assignWindow kind index with
    | error e => rfl
    | ok after =>
        obtain ⟨-, -, rfl⟩ := Deposit.assignWindow_eq_ok.mp assigned
        exact congrArg Except.ok (if_neg named).symm

end WindowCommit

namespace Ledger

variable {ledger : Ledger} {first second : WindowCommit}

/-- The ledger with a window entered: the deposits that are named are assigned to it, and it stands
at its place with its recipients. -/
def enter (ledger : Ledger) (commit : WindowCommit) : Ledger :=
  { ledger with
    deposits := ledger.deposits.mapValues commit.stampOn
    windows := ledger.windows.insert commit.place commit.window
    recipients := ledger.recipients.insert commit.place (byAccountIndex commit.recipients) }

theorem eq_enter_of_commit (keyed : ledger.Keyed) {written : Ledger}
    (committed : ledger.commit first = .ok written) : written = ledger.enter first := by
  obtain ⟨windows, recipients⟩ := tables_of_commit committed
  rw [eq_of_commit committed, deposits_of_commit keyed committed, windows, recipients]
  rfl

theorem assigned_enter (differ : first.kind ≠ kind) (index : Nat) (key : DepositKey) :
    (ledger.enter first).assigned kind index key =
      (ledger.assigned kind index key).map first.stampOn := by
  have found : (ledger.enter first).deposits.find? key =
      (ledger.deposits.find? key).map first.stampOn := Table.find?_mapValues _ _ _
  unfold assigned getDeposit
  rw [found]
  cases ledger.deposits.find? key with
  | none => rfl
  | some d =>
      change ((first.stampOn d).assignWindow kind index).mapError LedgerError.rejected =
        ((d.assignWindow kind index).mapError LedgerError.rejected).map first.stampOn
      rw [WindowCommit.assignWindow_stampOn differ]
      cases d.assignWindow kind index with
      | error e => rfl
      | ok after => rfl

/-- What is written for a commit can be written before or after a window of another kind and place
is entered. -/
theorem write_enter (places : first.place ≠ second.place) (deposits : List Deposit) :
    (ledger.enter first).write second (deposits.map first.stampOn) =
      (ledger.write second deposits).enter first := by
  have rows : ∀ table : Table DepositKey Deposit,
      (deposits.map first.stampOn).foldl (fun table d => table.insert d.key d)
          (table.mapValues first.stampOn) =
        (deposits.foldl (fun table d => table.insert d.key d) table).mapValues first.stampOn := by
    induction deposits with
    | nil => exact fun _ => rfl
    | cons d rest ih =>
        intro table
        rw [List.map_cons, List.foldl_cons, List.foldl_cons, ← ih, Table.mapValues_insert,
          WindowCommit.key_stampOn]
  unfold write enter
  dsimp only
  rw [rows]
  congr 1
  · exact Table.insert_comm places _ _ _
  · exact Table.insert_comm places _ _ _

/-- **A window of another kind and place** can be committed before or after one is entered. -/
theorem commit_enter (kinds : first.kind ≠ second.kind) (places : first.place ≠ second.place) :
    (ledger.enter first).commit second = (ledger.commit second).map (·.enter first) := by
  have taken : (ledger.enter first).hasWindow second.window.line second.window.windowIndex =
      ledger.hasWindow second.window.line second.window.windowIndex :=
    congrArg Option.isSome ((Table.find?_insert _ _ _ _).trans (if_neg places.symm))
  unfold Ledger.commit
  dsimp only
  rw [taken]
  cases ledger.hasWindow second.window.line second.window.windowIndex with
  | true => rfl
  | false =>
      cases checkRecipients second.window.line second.window.windowIndex [] second.recipients with
      | error e => rfl
      | ok _ =>
          change (second.deposits.mapM _ >>= _) = Except.map _ (second.deposits.mapM _ >>= _)
          rw [show (ledger.enter first).assigned second.kind second.window.windowIndex =
            fun key => (ledger.assigned second.kind second.window.windowIndex key).map
              first.stampOn from funext (assigned_enter kinds _), Outcome.mapM_map]
          cases second.deposits.mapM
              (ledger.assigned second.kind second.window.windowIndex) with
          | error e => rfl
          | ok deposits => exact congrArg Except.ok (write_enter places deposits)

end Ledger

/-! ## What is prepared -/

namespace Distributor

variable {distributor : Distributor} {ledger written : Ledger} {commit : WindowCommit}
  {config : JobConfig} {job : Job}

theorem exists_build_of_prepare (prepared : distributor.prepare ledger job = .ok commit) :
    ∃ volumes, VolumeIndex.build ledger.deposits.values ledger.claimedWindows = .ok volumes := by
  obtain ⟨totals, -, -, isTotals, -⟩ := prepare_eq_ok.mp prepared
  obtain ⟨context, isContext, -⟩ := Outcome.bind_eq_ok.mp isTotals
  obtain ⟨volumes, built, -⟩ := context_eq_ok.mp isContext
  exact ⟨volumes, built⟩

theorem exists_build_enter (keyed : ledger.Keyed) (committed : ledger.commit commit = .ok written)
    (referral : commit.kind = .referral) {volumes : VolumeIndex}
    (built : VolumeIndex.build ledger.deposits.values ledger.claimedWindows = .ok volumes) :
    ∃ others, VolumeIndex.build (ledger.enter commit).deposits.values
      (ledger.enter commit).claimedWindows = .ok others := by
  obtain ⟨all, isCounted, -⟩ := Outcome.bind_eq_ok.mp built
  have each : ∀ d ∈ ledger.deposits.values, ∀ first,
      VolumeIndex.counted? ledger.claimedWindows d = .ok first →
      ∃ other, VolumeIndex.counted? ledger.claimedWindows (commit.stampOn d) = .ok other := by
    intro d member first isFirst
    unfold WindowCommit.stampOn
    split
    · next named =>
        obtain ⟨same, isSame, -, free⟩ := Ledger.exists_of_mem_deposits committed named
        rw [Table.find?_of_mem_values keyed member] at isSame
        obtain rfl := Option.some.inj isSame
        exact VolumeIndex.exists_counted?_stamp isFirst (referral ▸ free) _ _
    · exact ⟨first, isFirst⟩
  obtain ⟨others, areOthers⟩ := VolumeIndex.exists_counted_map isCounted each
  have values : (ledger.enter commit).deposits.values = ledger.deposits.values.map commit.stampOn :=
    Table.values_mapValues _ _
  exact ⟨_, Outcome.bind_eq_ok.mpr ⟨others, values ▸ areOthers, rfl⟩⟩

theorem totals_enter (keyed : ledger.Keyed) (prepared : distributor.prepare ledger job = .ok commit)
    (committed : ledger.commit commit = .ok written) (differ : commit.kind ≠ config.kind) :
    distributor.totals (ledger.enter commit) config = distributor.totals ledger config := by
  have values : (ledger.enter commit).deposits.values = ledger.deposits.values.map commit.stampOn :=
    Table.values_mapValues _ _
  have rewards : ∀ context : RewardContext, context.kind = config.kind →
      context.rewardsBy config.maxDepositDate (ledger.enter commit).deposits.values =
        context.rewardsBy config.maxDepositDate ledger.deposits.values := by
    rintro context isKind
    rw [values]
    refine RewardContext.rewardsBy_map (fun d => ?_) fun d => ?_
    · unfold WindowCommit.stampOn
      split
      · exact Deposit.isCandidate_stamp (isKind ▸ differ) _ d _
      · rfl
    · unfold WindowCommit.stampOn
      split
      · exact RewardContext.rewardOf?_stamp (isKind ▸ differ) _ d
      · rfl
  by_cases referral : commit.kind = .referral
  · -- What referrers have brought may have changed, but the other kind does not ask.
    obtain ⟨volumes, built⟩ := exists_build_of_prepare prepared
    obtain ⟨others, areOthers⟩ := exists_build_enter keyed committed referral built
    have before : distributor.context ledger config.kind = .ok ⟨config.kind, distributor.rules,
        volumes, distributor.settings.rewardTokenDecimals⟩ :=
      context_eq_ok.mpr ⟨volumes, built, rfl⟩
    have after : distributor.context (ledger.enter commit) config.kind = .ok ⟨config.kind,
        distributor.rules, others, distributor.settings.rewardTokenDecimals⟩ :=
      context_eq_ok.mpr ⟨others, areOthers, rfl⟩
    have same := @RewardContext.rewardsBy_volumes ⟨config.kind, distributor.rules, volumes,
      distributor.settings.rewardTokenDecimals⟩ (fun same => differ (referral.trans same.symm))
      others config.maxDepositDate ledger.deposits.values
    unfold totals
    rw [before, after]
    change (RewardContext.rewardsBy _ _ _ >>= _) = (RewardContext.rewardsBy _ _ _ >>= _)
    rw [rewards _ rfl]
    exact congrArg (· >>= fun rewards => (Totals.ofRewards rewards).finish) same
  · have same : distributor.context (ledger.enter commit) config.kind =
        distributor.context ledger config.kind := by
      have countedAlike : ∀ d ∈ ledger.deposits.values,
          VolumeIndex.counted? ledger.claimedWindows (commit.stampOn d) =
            VolumeIndex.counted? ledger.claimedWindows d := by
        intro d _
        unfold WindowCommit.stampOn
        split
        · exact VolumeIndex.counted?_stamp_of_ne referral _ d
        · rfl
      unfold context VolumeIndex.build
      rw [values, ← VolumeIndex.counted_map countedAlike]
      rfl
    unfold totals
    rw [same]
    cases isContext : distributor.context ledger config.kind with
    | error e => rfl
    | ok context =>
        change (context.rewardsBy _ _ >>= _) = (context.rewardsBy _ _ >>= _)
        rw [rewards context (kind_of_context isContext)]

/-- **A window of a kind leaves what is prepared** for a job of another kind. -/
theorem prepare_enter {other : Job} (keyed : ledger.Keyed)
    (prepared : distributor.prepare ledger job = .ok commit)
    (committed : ledger.commit commit = .ok written) (differ : commit.kind ≠ other.config.kind) :
    distributor.prepare (ledger.enter commit) other = distributor.prepare ledger other := by
  unfold prepare
  rw [totals_enter keyed prepared committed differ]

end Distributor

end BridgeRewards
