import BridgeRewards.Proofs.Run.Conclusion

/-!
# Splitting a period

The deposits up to a date can be rewarded in one window, or first those up to an earlier date in
one window and then what is left in a second.  If no one has claimed from the first of the two
before, they pay together what the single window pays (`split_of_run`): the rewards of the deposits
stay the same, so what the first window has paid out is missing in the second.  Deposits whose
recipients come out at zero may be assigned only by the single window, as their recipients may come
out positive there; but they contribute nothing to it.
-/

set_option autoImplicit false

namespace BridgeRewards

/-- Whether a deposit that has no window of a kind has some window of this kind in a later
ledger. -/
def Deposit.assignedIn (d : Deposit) (after : Ledger) (kind : RewardType) (index : Nat) : Bool :=
  (d.windowFor kind).isNone &&
    (after.deposits.find? d.key).any fun later => later.windowFor kind == some index

/-- A job with an index and settings is run, and has then paid all that it had to pay. -/
def Distributor.Finishes (distributor : Distributor) (before : Ledger) (index : Nat)
    (config : JobConfig) (after : Ledger) : Prop :=
  ∃ job, distributor.Runs before index config job after ∧ job.Concluded

/-! ## What is due by two dates -/

section Dates

variable {d : Deposit} {kind : RewardType} {first second : Instant}

theorem Deposit.madeBy_mono (order : first ≤ second) (early : d.madeBy first = true) :
    d.madeBy second = true :=
  decide_eq_true (Int.le_trans (of_decide_eq_true early) order)

/-- What is eligible by a date is what is eligible by a later one and was made by that date. -/
theorem Deposit.isEligible_of_le (order : first ≤ second) :
    d.isEligible kind first = (d.madeBy first && d.isEligible kind second) := by
  unfold isEligible isCandidate
  cases early : d.madeBy first with
  | false => simp
  | true => simp [madeBy_mono order early]

theorem Ledger.due_of_le (ledger : Ledger) (order : first ≤ second) :
    ledger.due ⟨first, kind⟩ = (ledger.due ⟨second, kind⟩).filter (·.madeBy first) := by
  unfold due
  rw [List.filter_filter]
  exact List.filter_congr fun d _ => Deposit.isEligible_of_le order

theorem Deposit.settledBy_eq {context : RewardContext} (isKind : context.kind = kind)
    (payees : List Address) :
    d.settledBy ⟨first, kind⟩ payees = (d.isEligible kind first && context.pays payees d) := by
  subst isKind
  rfl

end Dates

/-! ## Where deposits are assigned -/

namespace Ledger.Stamps

variable {before between after : Ledger} {settled : Deposit → Bool} {kind : RewardType}
  {index : Nat} {d : Deposit}

theorem assignedIn_eq (stamps : Stamps before after settled kind index) (keyed : before.Keyed)
    (member : d ∈ before.deposits.values) : d.assignedIn after kind index = settled d := by
  unfold Deposit.assignedIn
  rw [stamps.find?_eq keyed member, Option.any_some]
  cases isSettled : settled d with
  | true => simp [stamps.free d isSettled, Deposit.windowFor_stamp]
  | false => cases free : d.windowFor kind <;> simp [free]

/-- Of two windows the first is assigned what it settles, and the second what it settles of the
rest. -/
theorem assignedIn_both {later : Nat} {settledLater : Deposit → Bool}
    (first : Stamps before between settled kind index)
    (second : Stamps between after settledLater kind later) (apart : index ≠ later)
    (keyed : before.Keyed) (stillKeyed : between.Keyed) (member : d ∈ before.deposits.values) :
    d.assignedIn after kind index = settled d ∧
      d.assignedIn after kind later = (!settled d && settledLater d) := by
  have found := first.find?_eq keyed member
  have stays : (if settled d then d.stamp kind index else d) ∈ between.deposits.values :=
    Table.mem_values.mpr ⟨_, found⟩
  have sameKey : (if settled d then d.stamp kind index else d).key = d.key := by split <;> rfl
  have foundLater := second.find?_eq stillKeyed stays
  unfold Deposit.assignedIn
  rw [sameKey] at foundLater
  rw [foundLater, Option.any_some, Option.any_some]
  cases isSettled : settled d with
  | true =>
      have taken : settledLater (d.stamp kind index) = false := by
        by_contra isLater
        have free := second.free _ (Bool.not_eq_false _ ▸ isLater)
        rw [Deposit.windowFor_stamp, if_pos rfl] at free
        cases free
      simp [taken, first.free d isSettled, Deposit.windowFor_stamp, apart]
  | false =>
      simp only [Bool.false_eq_true, if_false]
      cases isLater : settledLater d with
      | true => simp [second.free d isLater, Deposit.windowFor_stamp, apart.symm]
      | false => cases free : d.windowFor kind <;> simp [free]

end Ledger.Stamps

/-! ## One window and two -/

namespace Distributor

variable {distributor : Distributor} {ledger between split single : Ledger} {kind : RewardType}
  {first second : Instant} {earlier later : Nat} {context : RewardContext}
  {firstPayees secondPayees payees : List Address} {d : Deposit}

/-- What is due by a date is left over from what was due before an earlier window. -/
theorem Concludes.due_between
    (isFirst : distributor.Concludes ledger earlier ⟨first, kind⟩ context firstPayees between)
    (order : first ≤ second) :
    between.due ⟨second, kind⟩ =
      context.leftOver (·.madeBy first) firstPayees (ledger.due ⟨second, kind⟩) := by
  have stamps : ledger.Stamps between (Deposit.settledBy ⟨first, kind⟩ firstPayees) kind earlier :=
    isFirst.stamps
  rw [stamps.due_eq second, RewardContext.leftOver]
  refine List.filter_congr fun d isDue => ?_
  have eligible : d.isEligible kind second = true := (List.mem_filter.mp isDue).2
  rw [Deposit.settledBy_eq (kind_of_context isFirst.isContext), Deposit.isEligible_of_le order,
    eligible, Bool.and_true]

section ThreeRuns

variable (order : first ≤ second) (apart : earlier < later)
  (isFirst : distributor.Concludes ledger earlier ⟨first, kind⟩ context firstPayees between)
  (isSecond : distributor.Concludes between later ⟨second, kind⟩ context secondPayees split)
  (isSingle : distributor.Concludes ledger later ⟨second, kind⟩ context payees single)

include order isFirst

theorem Concludes.early_paysOut :
    context.PaysOut ((ledger.due ⟨second, kind⟩).filter (·.madeBy first)) firstPayees :=
  ledger.due_of_le order ▸ isFirst.paysOut

include isSecond

theorem Concludes.leftOver_paysOut :
    context.PaysOut (context.leftOver (·.madeBy first) firstPayees (ledger.due ⟨second, kind⟩))
      secondPayees :=
  isFirst.due_between order ▸ isSecond.paysOut

include apart isSingle

theorem paid_eq_add (address : Address) :
    single.paid distributor.line later address =
      split.paid distributor.line earlier address + split.paid distributor.line later address := by
  rw [isSingle.paid, isSecond.paid, isSecond.others earlier apart.ne, isFirst.paid,
    isFirst.due_between order, ledger.due_of_le order,
    RewardContext.unitsOver_add_leftOver (isFirst.early_paysOut order)]

variable (keyed : ledger.Keyed) (stillKeyed : between.Keyed)

include keyed stillKeyed

/-- What the three windows are assigned of what is due by the second date: the first window what
was made by the first date, the second window what is left over, and the single window all, each
with a recipient that it pays. -/
theorem assignedIn_windows (member : d ∈ ledger.deposits.values) :
    d.assignedIn split kind earlier =
        (d.isEligible kind second && (d.madeBy first && context.pays firstPayees d)) ∧
      d.assignedIn split kind later =
        (d.isEligible kind second && (!(d.madeBy first && context.pays firstPayees d) &&
          context.pays secondPayees d)) ∧
      d.assignedIn single kind later = (d.isEligible kind second && context.pays payees d) := by
  have isKind := kind_of_context isFirst.isContext
  have stamps : ledger.Stamps between (Deposit.settledBy ⟨first, kind⟩ firstPayees) kind earlier :=
    isFirst.stamps
  obtain ⟨inFirst, inSecond⟩ :=
    stamps.assignedIn_both isSecond.stamps apart.ne keyed stillKeyed member
  have inSingle := isSingle.stamps.assignedIn_eq keyed member
  rw [inFirst, inSecond, inSingle]
  simp only [Deposit.settledBy_eq isKind, Deposit.isEligible_of_le order]
  cases d.isEligible kind second <;> simp

theorem assignedIn_single (member : d ∈ ledger.deposits.values)
    (assigned : d.assignedIn split kind earlier = true ∨ d.assignedIn split kind later = true) :
    d.assignedIn single kind later = true := by
  obtain ⟨inFirst, inSecond, inSingle⟩ :=
    assignedIn_windows order apart isFirst isSecond isSingle keyed stillKeyed member
  have paid : context.pays firstPayees d = true ∨ context.pays secondPayees d = true →
      context.pays payees d = true :=
    RewardContext.pays_all (isFirst.early_paysOut order)
      (isFirst.leftOver_paysOut order isSecond) isSingle.paysOut
  rw [inFirst, inSecond] at assigned
  rw [inSingle]
  simp only [Bool.and_eq_true] at assigned ⊢
  rcases assigned with ⟨isDue, -, isPaid⟩ | ⟨isDue, -, isPaid⟩
  · exact ⟨isDue, paid (.inl isPaid)⟩
  · exact ⟨isDue, paid (.inr isPaid)⟩

/-- What is assigned in the single window only is what neither of the two pays. -/
theorem filter_assignedIn_single :
    (ledger.deposits.values.filter fun d => d.assignedIn single kind later &&
      !d.assignedIn split kind earlier && !d.assignedIn split kind later) =
    ((context.leftOver (·.madeBy first) firstPayees (ledger.due ⟨second, kind⟩)).filter
      fun d => !context.pays secondPayees d).filter (context.pays payees) := by
  unfold RewardContext.leftOver Ledger.due
  simp only [List.filter_filter]
  refine List.filter_congr fun d member => ?_
  obtain ⟨inFirst, inSecond, inSingle⟩ :=
    assignedIn_windows order apart isFirst isSecond isSingle keyed stillKeyed member
  rw [inFirst, inSecond, inSingle]
  cases d.isEligible kind second with
  | false => simp
  | true => cases d.madeBy first && context.pays firstPayees d <;> simp

/-- The rewards of what is assigned in the single window only sum to zero for every account. -/
theorem exists_rewards_single (sound : ledger.Sound) :
    ∃ rewards, List.Forall₂ (distributor.Earns ledger kind)
        (ledger.deposits.values.filter fun d => d.assignedIn single kind later &&
          !d.assignedIn split kind earlier && !d.assignedIn split kind later) rewards ∧
      ∀ address, (DepositReward.unitsOf address rewards).value = 0 := by
  rw [filter_assignedIn_single order apart isFirst isSecond isSingle keyed stillKeyed]
  have rewardable : ∀ d ∈ ((context.leftOver (·.madeBy first) firstPayees
      (ledger.due ⟨second, kind⟩)).filter fun d => !context.pays secondPayees d).filter
        (context.pays payees), ∃ reward, context.Rewards d reward := fun d member =>
    isSingle.rewarded d (List.mem_of_mem_filter (List.mem_of_mem_filter
      (List.mem_of_mem_filter member)))
  obtain ⟨rewards, rewarded⟩ := Outcome.exists_forall₂ rewardable
  refine ⟨rewards, rewarded.imp fun d reward => earns_of_context sound isSingle.isContext,
    fun address => ?_⟩
  rw [RewardContext.value_unitsOf rewarded]
  exact RewardContext.unitsOver_remainder (isFirst.leftOver_paysOut order isSecond) payees address

end ThreeRuns

end Distributor

namespace Ledger

/-- **Splitting a period.**  After any run, let no one have claimed from the window with the
earlier index.  If the deposits up to a first date are rewarded at the earlier index and then those
up to a second date at the later one, every account is paid what it is paid if only those up to
the second date are rewarded at the later index.  What is assigned in two steps is assigned in one,
and the rewards of what is assigned only in one step sum to zero for every account. -/
theorem split_of_run {operations : List Operation} {ledger : Ledger}
    (reached : Ledger.empty.run operations = ledger) {distributor : Distributor}
    {kind : RewardType} {first second : Instant} (order : first ≤ second) {earlier later : Nat}
    (apart : earlier < later)
    (unclaimed : ∀ claim ∈ ledger.claims.values, claim.windowIndex ≠ earlier)
    {between split single : Ledger}
    (firstRun : distributor.Finishes ledger earlier ⟨first, kind⟩ between)
    (secondRun : distributor.Finishes between later ⟨second, kind⟩ split)
    (singleRun : distributor.Finishes ledger later ⟨second, kind⟩ single) :
    (∀ address, single.paid distributor.line later address =
        split.paid distributor.line earlier address + split.paid distributor.line later address) ∧
      (∀ d ∈ ledger.deposits.values,
        d.assignedIn split kind earlier = true ∨ d.assignedIn split kind later = true →
          d.assignedIn single kind later = true) ∧
      ∃ rewards, List.Forall₂ (distributor.Earns ledger kind)
          (ledger.deposits.values.filter fun d => d.assignedIn single kind later &&
            !d.assignedIn split kind earlier && !d.assignedIn split kind later) rewards ∧
        ∀ address, (DepositReward.unitsOf address rewards).value = 0 := by
  have consistent : ledger.Consistent := reached ▸ consistent_run operations
  obtain ⟨firstJob, firstRuns, firstConcluded⟩ := firstRun
  obtain ⟨secondJob, secondRuns, secondConcluded⟩ := secondRun
  obtain ⟨singleJob, singleRuns, singleConcluded⟩ := singleRun
  have stillConsistent : between.Consistent := firstRuns.consistent consistent
  obtain ⟨context, firstPayees, isFirst⟩ :=
    Distributor.concludes_of_runs consistent firstRuns firstConcluded
  obtain ⟨secondContext, secondPayees, isSecond⟩ :=
    Distributor.concludes_of_runs stillConsistent secondRuns secondConcluded
  obtain ⟨singleContext, payees, isSingle⟩ :=
    Distributor.concludes_of_runs consistent singleRuns singleConcluded
  -- All three jobs compute rewards alike, as no one has claimed from the first window.
  have isContext : distributor.context ledger kind = .ok context := isFirst.isContext
  obtain rfl : secondContext = context := by
    have same := isFirst.stamps.context_eq unclaimed distributor kind
    exact Except.ok.inj (isSecond.isContext.symm.trans (same.trans isContext))
  obtain rfl : singleContext = secondContext :=
    Except.ok.inj (isSingle.isContext.symm.trans isContext)
  refine ⟨Distributor.paid_eq_add order apart isFirst isSecond isSingle, ?_, ?_⟩
  · exact fun d => Distributor.assignedIn_single order apart isFirst isSecond isSingle
      consistent.keyed stillConsistent.keyed
  · exact Distributor.exists_rewards_single order apart isFirst isSecond isSingle
      consistent.keyed stillConsistent.keyed consistent.sound

end Ledger

/-! ## A period with two deposits

A nanosecond after the deposit of the trial there is a second one of the same account.  The first
window rewards the one, the second window the other, and the single window both. -/

namespace Trial

/-- When the second deposit is made. -/
def nextInstant : Instant := ⟨1⟩

/-- What is done before a window is built. -/
def twoDeposits : List Operation :=
  operations ++
    [.deliver (.powerOfTen 18) (.deposit
      { deposit with eventMeta := ⟨.new 1 "0x" 3, 1, nextInstant⟩, depositId := 8 }),
     .deliver (.powerOfTen 18) (.fill { fill with eventMeta := writtenAt 4, depositId := 8 }),
     .pricePending .zero 10]

/-- The ledger before a window is built. -/
def whole : Ledger := Ledger.empty.run twoDeposits

/-- The ledger once the first deposit is assigned to the first window. -/
def rest : Ledger :=
  { whole with deposits := whole.deposits.mapValues fun d =>
      if d.key ∈ [⟨1, 7⟩] then d.stamp .lpFee 0 else d }

theorem consistent_whole : whole.Consistent := Ledger.consistent_run twoDeposits

theorem windows_whole : whole.windows = .empty := by
  have none : whole.windows.rows = [] := by decide +kernel
  refine Table.ext fun key => ?_
  rw [Table.find?, none]
  rfl

theorem checkIndex_whole (index : Nat) : distributor.checkIndex whole index = .ok () := by
  refine Distributor.checkIndex_of_le ?_ ?_
  · rw [windows_whole]
    rfl
  · unfold Ledger.windowsOn
    rw [windows_whole]
    exact List.forall_mem_nil _

theorem exists_between : ∃ between, distributor.Finishes whole 0 ⟨.epoch, .lpFee⟩ between ∧
    between.deposits = rest.deposits ∧ between.claims = rest.claims ∧
    (∃ window, window.windowIndex = 0 ∧
      between.windows = whole.windows.insert (distributor.line, 0) window) ∧
    ∃ done, done.status = .done ∧ done.jobId = "first" ∧ between.jobs = whole.jobs ++ [done] := by
  obtain ⟨t, totals, word, keys⟩ := @exists_total whole ⟨.epoch, .lpFee⟩ (300 * tenTo 18) [⟨1, 7⟩]
    (by decide +kernel)
  obtain ⟨commit, written, done, place, isKind, deposits, committed, isDone, sameId, executed⟩ :=
    Distributor.exists_execute_of_singleton consistent_whole nextInstant "first" rfl
      (checkIndex_whole 0) (by decide +kernel) (by decide +kernel) totals word
  have index : commit.window.windowIndex = 0 := congrArg (·.2) place
  refine ⟨_, ⟨done, .created executed, .inl isDone⟩, ?_, ?_, ⟨commit.window, index, ?_⟩,
    done, isDone, sameId, rfl⟩
  · have stamped := Ledger.deposits_of_commit consistent_whole.keyed committed
    rw [deposits, keys, isKind, index] at stamped
    exact stamped
  · have frame := congrArg Ledger.claims (Ledger.eq_of_commit committed)
    exact frame
  · rw [← place]
    exact (Ledger.tables_of_commit committed).1

theorem exists_split {between : Ledger} (isConsistent : between.Consistent)
    (deposits : between.deposits = rest.deposits) (claims : between.claims = rest.claims)
    (windows : ∃ window, window.windowIndex = 0 ∧
      between.windows = whole.windows.insert (distributor.line, 0) window)
    (jobs : ∃ done, done.status = .done ∧ done.jobId = "first" ∧
      between.jobs = whole.jobs ++ [done]) :
    ∃ split, distributor.Finishes between 1 ⟨nextInstant, .lpFee⟩ split := by
  obtain ⟨t, totals, word, -⟩ := @exists_total rest ⟨nextInstant, .lpFee⟩ (300 * tenTo 18) [⟨1, 8⟩]
    (by decide +kernel)
  rw [← Distributor.totals_congr deposits claims] at totals
  obtain ⟨window, index, written⟩ := windows
  obtain ⟨done, isDone, sameId, isJobs⟩ := jobs
  have free : distributor.checkIndex between 1 = .ok () := by
    refine Distributor.checkIndex_of_le ?_ fun other member => ?_
    · rw [written, Table.find?_insert, if_neg (by simp), windows_whole]
      rfl
    · obtain ⟨held, found⟩ := Ledger.mem_windowsOn.mp member
      rw [written, Table.find?_insert, windows_whole] at found
      split at found
      · rw [← Option.some.inj found, index]
        exact Nat.zero_le 1
      · cases found
  have idle : between.jobsIn .inProgress = [] := by
    have others : whole.jobsIn .inProgress = [] := by decide +kernel
    unfold Ledger.jobsIn at others ⊢
    rw [isJobs, List.filter_append, others]
    simp [isDone]
  have fresh : ∀ other ∈ between.jobs, other.jobId ≠ "second" := by
    have others : ∀ other ∈ whole.jobs, other.jobId ≠ "second" := by decide +kernel
    intro other member
    rw [isJobs, List.mem_append, List.mem_singleton] at member
    rcases member with old | rfl
    · exact others other old
    · rw [sameId]
      decide
  obtain ⟨_, _, final, -, -, -, -, isFinal, -, executed⟩ :=
    Distributor.exists_execute_of_singleton isConsistent nextInstant "second" rfl free idle fresh
      totals word
  exact ⟨_, final, .created executed, .inl isFinal⟩

theorem exists_single : ∃ single, distributor.Finishes whole 1 ⟨nextInstant, .lpFee⟩ single := by
  obtain ⟨t, totals, word, -⟩ := @exists_total whole ⟨nextInstant, .lpFee⟩ (600 * tenTo 18)
    [⟨1, 7⟩, ⟨1, 8⟩] (by decide +kernel)
  obtain ⟨_, _, done, -, -, -, -, isDone, -, executed⟩ :=
    Distributor.exists_execute_of_singleton consistent_whole nextInstant "single" rfl
      (checkIndex_whole 1) (by decide +kernel) (by decide +kernel) totals word
  exact ⟨_, done, .created executed, .inl isDone⟩

end Trial

namespace Ledger

/-- The first window pays for the first deposit, the second for the other, and the single window
for both. -/
theorem split_of_run_trial : ∃ between split single,
    Trial.distributor.Finishes Trial.whole 0 ⟨.epoch, .lpFee⟩ between ∧
      Trial.distributor.Finishes between 1 ⟨Trial.nextInstant, .lpFee⟩ split ∧
      Trial.distributor.Finishes Trial.whole 1 ⟨Trial.nextInstant, .lpFee⟩ single ∧
      ∀ address, single.paid Trial.distributor.line 1 address =
        split.paid Trial.distributor.line 0 address +
          split.paid Trial.distributor.line 1 address := by
  obtain ⟨between, first, deposits, claims, windows, jobs⟩ := Trial.exists_between
  obtain ⟨job, runs, concluded⟩ := first
  obtain ⟨split, second⟩ := Trial.exists_split (runs.consistent Trial.consistent_whole) deposits
    claims windows jobs
  obtain ⟨single, alone⟩ := Trial.exists_single
  refine ⟨between, split, single, ⟨job, runs, concluded⟩, second, alone, ?_⟩
  have reached : Ledger.empty.run Trial.twoDeposits = Trial.whole := rfl
  exact (split_of_run reached (by decide) (by decide) (by decide +kernel) ⟨job, runs, concluded⟩
    second alone).1

end Ledger

end BridgeRewards
