import BridgeRewards.Proofs.Run.Frame

/-!
# Records that are not applied

After every run, a record that is refused, known already or too late leaves everything as it is,
apart from two traces (`unapplied_of_run`): one that is not refused is noted, and the record of a
deposit whose depositor had no referral address yet leaves the one that it came with.  The second
trace is there even when the deposit is refused because its fills cannot be applied, and when it
is known already from another record (`unapplied_leaves_referral`).
-/

set_option autoImplicit false

namespace BridgeRewards

namespace Ledger

/-- **Records that are not applied.**  A record that is refused leaves its referral address and
nothing else; one that is a duplicate or too late is noted besides, if it was not before. -/
theorem unapplied_of_run (operations : List Operation) (lpFeeCap : Decimal) (event : Event) :
    (∀ after e, (Ledger.empty.run operations).deliver lpFeeCap event = (after, .error e) →
      after = (Ledger.empty.run operations).touchedBy event) ∧
    ∀ after delivery, (Ledger.empty.run operations).deliver lpFeeCap event =
        (after, .ok delivery) → delivery = .duplicate ∨ delivery = .ignored →
      after = if (Ledger.empty.run operations).hasEvent event.key then Ledger.empty.run operations
        else ((Ledger.empty.run operations).touchedBy event).recordEvent event.key := by
  have leaves := leaves_receive (caughtUp_run operations) lpFeeCap event
  generalize Ledger.empty.run operations = ledger at leaves ⊢
  cases known : ledger.hasEvent event.key with
  | true =>
      rw [deliver_of_known known]
      refine ⟨fun after e h => ?_, fun after delivery h _ => ?_⟩
      · cases h
      · cases h
        rfl
  | false =>
      rcases received : ledger.receive lpFeeCap event with ⟨left, outcome⟩
      rw [received] at leaves
      cases outcome with
      | error e =>
          rw [deliver_of_refused known received]
          refine ⟨fun after other h => ?_, fun after delivery h _ => ?_⟩
          · cases h
            exact leaves.of_error
          · cases h
      | ok delivery =>
          rw [deliver_of_receive known received]
          refine ⟨fun after e h => ?_, fun after other h late => ?_⟩
          · cases h
          · cases h
            rw [leaves.of_late late]
            rfl

end Ledger

/-! ## Referral addresses of deposits that are not applied

The deposit of the trial comes once more, in another record and with a referral address. -/

namespace Trial

/-- The second record of the deposit. -/
def referred : DepositEvent :=
  { deposit with eventMeta := writtenAt 2, referralAddress := some .zero }

/-- The second record with an amount that is no number. -/
def unreadable : DepositEvent := { referred with inputAmount := "not-a-number" }

theorem deliver_unreadable :
    ((Ledger.empty.run [.deliver (.powerOfTen 18) (.fill fill)]).deliver (.powerOfTen 18)
      (.deposit unreadable)).2 = .error (.invalidFixedPoint "inputAmount" "not-a-number") := by
  decide +kernel

theorem deliver_referred :
    ((Ledger.empty.run [.deliver (.powerOfTen 18) (.deposit deposit)]).deliver (.powerOfTen 18)
      (.deposit referred)).2 = .ok .duplicate := by
  decide +kernel

end Trial

namespace Ledger

theorem unapplied_of_run_trial :
    ((Ledger.empty.run [.deliver (.powerOfTen 18) (.fill Trial.fill)]).deliver (.powerOfTen 18)
        (.deposit Trial.unreadable)).1 =
      (Ledger.empty.run [.deliver (.powerOfTen 18) (.fill Trial.fill)]).touchedBy
        (.deposit Trial.unreadable) ∧
    ((Ledger.empty.run [.deliver (.powerOfTen 18) (.deposit Trial.deposit)]).deliver
        (.powerOfTen 18) (.deposit Trial.referred)).1 =
      if (Ledger.empty.run [.deliver (.powerOfTen 18) (.deposit Trial.deposit)]).hasEvent
        (Event.deposit Trial.referred).key
      then Ledger.empty.run [.deliver (.powerOfTen 18) (.deposit Trial.deposit)]
      else ((Ledger.empty.run [.deliver (.powerOfTen 18) (.deposit Trial.deposit)]).touchedBy
        (.deposit Trial.referred)).recordEvent (Event.deposit Trial.referred).key :=
  ⟨(unapplied_of_run _ _ _).1 _ _ (Prod.ext rfl Trial.deliver_unreadable),
    (unapplied_of_run _ _ _).2 _ _ (Prod.ext rfl Trial.deliver_referred) (.inl rfl)⟩

/-- Neither a record that is refused nor a duplicate leaves everything as it is: both can leave a
referral address. -/
theorem unapplied_leaves_referral :
    (¬ ∀ (lpFeeCap : Decimal) (events : List Event) (event : Event) (after : Ledger)
        (e : RewardError),
      (Ledger.empty.run (events.map (.deliver lpFeeCap))).deliver lpFeeCap event =
          (after, .error e) →
        after = Ledger.empty.run (events.map (.deliver lpFeeCap))) ∧
    ¬ ∀ (lpFeeCap : Decimal) (events : List Event) (event : Event) (after : Ledger)
        (delivery : Delivery),
      (Ledger.empty.run (events.map (.deliver lpFeeCap))).deliver lpFeeCap event =
          (after, .ok delivery) → delivery = .duplicate ∨ delivery = .ignored →
        after = (Ledger.empty.run (events.map (.deliver lpFeeCap))).recordEvent event.key := by
  constructor
  · intro unchanged
    have same := unchanged (.powerOfTen 18) [.fill Trial.fill] (.deposit Trial.unreadable) _ _
      (Prod.ext rfl Trial.deliver_unreadable)
    have referral := congrArg (·.stickyReferral? .zero) same
    revert referral
    decide +kernel
  · intro unchanged
    have same := unchanged (.powerOfTen 18) [.deposit Trial.deposit] (.deposit Trial.referred) _ _
      (Prod.ext rfl Trial.deliver_referred) (.inl rfl)
    have referral := congrArg (·.stickyReferral? .zero) same
    revert referral
    decide +kernel

end Ledger

end BridgeRewards
