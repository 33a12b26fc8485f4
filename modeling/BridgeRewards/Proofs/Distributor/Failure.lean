import BridgeRewards.Distributor.Build
import BridgeRewards.Proofs.Reward.Total
import BridgeRewards.Proofs.Window.Tree
import Mathlib.Data.List.Infix

/-!
# Why a window cannot be built

Before there are totals, a number may be malformed, rules or prices may be missing, or a sum may
be negative (`failsWith_totals`).  That there is no one to pay is found out when the tree is
built, and only if there is no total (`totals_eq_nil_of_prepare`).  A job that fails for this
reason says so in its message, which is that of no other error.
-/

set_option autoImplicit false

namespace BridgeRewards

open Outcome (FailsWith failsWith_ok failsWith_error)

namespace RewardError

/-- Whether an error can occur before there are totals. -/
def precedesTotals : RewardError → Bool
  | invalidFixedPoint .. => true
  | nonIntegerAmount .. => true
  | noEffectiveVersion .. => true
  | missingRewardPrice .. => true
  | filledWithoutFees .. => true
  | rewardWithoutRecipient .. => true
  | negativeAggregate .. => true
  | _ => false

end RewardError

/-- A computation fails with none but the errors that can occur before there are totals. -/
abbrev FailsBeforeTotals {α : Type} (x : Except RewardError α) : Prop :=
  FailsWith (fun e => e.precedesTotals = true) x

/-! ## Errors before there are totals -/

theorem Decimal.failsWith_parse (field value : String) : FailsBeforeTotals (parse field value) := by
  unfold parse
  split
  · exact failsWith_ok _
  · exact failsWith_error rfl

theorem Decimal.failsWith_parseInteger (field value : String) :
    FailsBeforeTotals (parseInteger field value) := by
  refine (failsWith_parse field value).bind fun x => ?_
  split
  · exact failsWith_ok _
  · exact failsWith_error rfl

theorem PricedDeposit.failsWith_ofDeposit (d : Deposit) : FailsBeforeTotals (ofDeposit d) := by
  unfold ofDeposit
  split
  · split
    · exact ((Decimal.failsWith_parseInteger _ _).bind fun _ =>
        (Decimal.failsWith_parse _ _).bind fun _ => (Decimal.failsWith_parse _ _).bind fun _ =>
        (Decimal.failsWith_parseInteger _ _).bind fun _ =>
        (Decimal.failsWith_parseInteger _ _).bind fun _ => failsWith_ok _).map
    · exact failsWith_ok _
  · exact failsWith_ok _

theorem VolumeIndex.failsWith_counted (claimed : ClaimedWindows) (deposits : List Deposit) :
    FailsBeforeTotals (counted claimed deposits) := by
  induction deposits with
  | nil => exact failsWith_ok _
  | cons d rest ih =>
      have first : FailsBeforeTotals (counted? claimed d) := by
        unfold counted?
        split
        · exact failsWith_ok _
        · split
          · exact (PricedDeposit.failsWith_ofDeposit d).map
          · exact failsWith_ok _
      exact first.bind fun _ => ih.bind fun _ => failsWith_ok _

/-- No version of a schedule is in force at an instant. -/
def Schedule.SilentAt {α : Type} (schedule : Schedule α) (instant : Instant) : Prop :=
  ∀ version ∈ schedule.versions, ¬ version.effectiveFrom ≤ instant

/-- There is no version at an instant only if none is in force. -/
theorem Schedule.failsWith_silent {α : Type} (schedule : Schedule α) (instant : Instant) :
    FailsWith (fun e => e = .noEffectiveVersion instant ∧ schedule.SilentAt instant)
      (schedule.versionAt instant) := by
  intro e failed
  unfold versionAt at failed
  split at failed
  · cases failed
  · next none =>
      refine ⟨(Except.error.inj failed).symm, fun version member => ?_⟩
      have late := List.find?_eq_none.mp none version (List.mem_reverse.mpr member)
      simpa using late

/-- No version of the rules that a kind of reward needs is in force at an instant. -/
def RewardRules.SilentAt (rules : RewardRules) (kind : RewardType) (instant : Instant) : Prop :=
  rules.multipliers.SilentAt instant ∨ kind = .referral ∧ rules.tiers.SilentAt instant

theorem Standing.failsWith_ofDeposit (d : Deposit) (kind : RewardType) :
    FailsBeforeTotals (ofDeposit d kind) := by
  unfold ofDeposit
  split
  · split
    · exact failsWith_ok _
    · split
      · next e failed => exact failsWith_error (PricedDeposit.failsWith_ofDeposit d e failed)
      · exact failsWith_ok _
      · split
        · exact failsWith_error rfl
        · exact failsWith_ok _
  · exact failsWith_ok _

namespace RewardContext

variable (context : RewardContext) (d : Deposit) (values : PricedDeposit)

/-- A reward in dollars is missing only if no version of the rules is in force. -/
theorem failsWith_silent (recipient : Address) :
    FailsWith (fun e => e = .noEffectiveVersion values.depositDate ∧
      context.rules.SilentAt context.kind values.depositDate)
      (context.rewardUsd recipient values) := by
  have multipliers := Schedule.failsWith_silent context.rules.multipliers values.depositDate
  have tiers := Schedule.failsWith_silent context.rules.tiers values.depositDate
  refine FailsWith.bind (FailsWith.bind (multipliers.mono fun e cause => ?_) fun _ =>
    failsWith_ok _) fun _ => ?_
  · exact ⟨cause.1, .inl cause.2⟩
  dsimp only
  split
  · next isReferral =>
      refine FailsWith.bind (FailsWith.bind (tiers.mono fun e cause => ?_) fun _ =>
        failsWith_ok _) fun _ => failsWith_ok _
      exact ⟨cause.1, .inr ⟨isReferral, cause.2⟩⟩
  · exact failsWith_ok _
  · exact failsWith_ok _

theorem failsWith_rewardUsd (recipient : Address) :
    FailsBeforeTotals (context.rewardUsd recipient values) :=
  (context.failsWith_silent values recipient).mono fun _ cause => cause.1 ▸ rfl

theorem failsWith_compute : FailsBeforeTotals (context.compute d values) := by
  unfold compute
  split
  · exact failsWith_error rfl
  · refine (context.failsWith_rewardUsd values _).bind fun _ => ?_
    dsimp only
    split
    · exact failsWith_ok _
    · exact failsWith_error rfl

theorem failsWith_rewardOf? : FailsBeforeTotals (context.rewardOf? d) := by
  refine (Standing.failsWith_ofDeposit d context.kind).bind fun standing => ?_
  split
  · exact (context.failsWith_compute d _).map
  · exact failsWith_ok _

theorem failsWith_rewardsBy (cutoff : Instant) (deposits : List Deposit) :
    FailsBeforeTotals (context.rewardsBy cutoff deposits) :=
  (FailsWith.mapM context.failsWith_rewardOf? _).bind fun _ => failsWith_ok _

end RewardContext

theorem Distributor.failsWith_totals (distributor : Distributor) (ledger : Ledger)
    (config : JobConfig) : FailsBeforeTotals (distributor.totals ledger config) := by
  have payable : ∀ totals, FailsBeforeTotals (Totals.payable totals) := fun totals =>
    (Totals.failsWith_payable totals).mono fun e cause => by
      obtain ⟨address, amount, rfl, -⟩ := cause
      rfl
  refine FailsWith.bind ?_ fun context => (context.failsWith_rewardsBy _ _).bind fun _ =>
    payable _
  exact ((VolumeIndex.failsWith_counted _ _).bind fun _ => failsWith_ok _).bind fun _ =>
    failsWith_ok _

/-! ## A window without recipients -/

/-- A computation fails for some other reason than that there is no one to pay. -/
abbrev FailsOtherwise {α : Type} (x : Except RewardError α) : Prop :=
  FailsWith (· ≠ RewardError.emptyWindow) x

theorem WindowTree.failsOtherwise_build {totals : List Total} (nonempty : totals ≠ []) :
    FailsOtherwise (build totals) := by
  refine (failsWith_build totals).mono fun e cause => ?_
  cases cause with
  | empty none => exact (nonempty none).elim
  | repeated twice => simp
  | unfit unfit => simp

theorem Recipient.failsOtherwise_ofLeaf (index : Nat) (kind : RewardType)
    (totals : List RecipientTotal) (proven : ProvenLeaf) :
    FailsOtherwise (ofLeaf index kind totals proven) := by
  unfold ofLeaf
  split
  · exact failsWith_error (by simp)
  · exact failsWith_ok _

/-- **A window has no recipients only if there are no totals to pay.** -/
theorem Distributor.totals_eq_nil_of_prepare {distributor : Distributor} {ledger : Ledger}
    {job : Job} (h : distributor.prepare ledger job = .error .emptyWindow) :
    distributor.totals ledger job.config = .ok [] := by
  unfold prepare at h
  cases isTotals : distributor.totals ledger job.config with
  | error e =>
      rw [isTotals] at h
      obtain rfl : e = .emptyWindow := Except.error.inj h
      cases distributor.failsWith_totals ledger job.config _ isTotals
  | ok totals =>
      by_cases none : totals = []
      · rw [none]
      · rw [isTotals] at h
        have otherwise : totals.map RecipientTotal.total ≠ [] := by simpa using none
        exact ((WindowTree.failsOtherwise_build otherwise).bind (fun tree =>
          (FailsWith.mapM (Recipient.failsOtherwise_ofLeaf _ _ totals) tree.leaves).bind
            fun _ => failsWith_ok _) _ h rfl).elim

/-! ## Telling the reason from the message -/

theorem Text.not_prefix_append {start first : String} (rest : String)
    (differs : start.toList.length ≤ first.toList.length ∧ ¬ start.toList <+: first.toList) :
    ¬ start.toList <+: (first ++ rest).toList := by
  rw [String.toList_append, List.isPrefix_append_of_length differs.1]
  exact differs.2

/-- The message that there is no one to pay is that of no other error: each message starts with the
code of its error. -/
theorem RewardError.eq_emptyWindow_of_message {e : RewardError}
    (h : e.message = emptyWindow.message) : e = .emptyWindow := by
  have start : "[RW-JOB-006]".toList <+: e.message.toList := by
    rw [h]
    decide +kernel
  clear h
  unfold message at start
  cases e with
  | emptyWindow => rfl
  | _ =>
      simp -failIfUnchanged only [String.append_assoc] at start
      exact absurd start (Text.not_prefix_append _ (by decide +kernel))

/-- The messages of other errors start without a bracket. -/
theorem RunError.eq_emptyWindow_of_message {e : RunError}
    (h : e.message = RewardError.emptyWindow.message) : e = .reward .emptyWindow := by
  have start : "[".toList <+: e.message.toList := by
    rw [h]
    decide +kernel
  rcases e with fault | refusal | error | (row | _ | _ | _ | _)
  case reward => exact congrArg _ (RewardError.eq_emptyWindow_of_message h)
  case ledger.unknown =>
    unfold message at start
    cases row <;> simp only [LedgerRow.tableName, String.append_assoc] at start <;>
      exact absurd start (Text.not_prefix_append _ (by decide +kernel))
  all_goals
    exact absurd start (Text.not_prefix_append _ (by decide +kernel))

end BridgeRewards
