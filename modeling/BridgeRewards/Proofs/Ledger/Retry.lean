import BridgeRewards.Proofs.Ledger.Growth
import BridgeRewards.Proofs.Ledger.Reconciliation

/-!
# Batches that are delivered twice

A batch of records is delivered up to the first that is refused.  What was accepted before is known
when the batch is delivered again, and the record that was refused has left nothing that would let
it fare otherwise (`deliver_again_of_refused`).  So the second delivery changes nothing, and it
ends as the first one did: with every record a duplicate, or with the same refusal at the same
record (`deliverAll_again`).  This is so for every ledger.
-/

set_option autoImplicit false

namespace BridgeRewards.Ledger

variable {ledger after : Ledger} {lpFeeCap : Decimal} {event : Event} {events : List Event}
  {e : RewardError}

/-! ## A record that is refused -/

/-- The referral address that a refused deposit has left is the one with which its deposit was
made up already. -/
theorem reconcile_touched (lpFeeCap : Decimal) (ledger : Ledger) (event : DepositEvent) :
    (ledger.touched event).reconcile lpFeeCap event = ledger.reconcile lpFeeCap event := by
  rw [reconcile, touched_touched, parkedFor_touched, reconcile]

/-- **A refused record is refused again**, for the same reason, and leaves nothing more. -/
theorem deliver_again_of_refused (refused : ledger.deliver lpFeeCap event = (after, .error e)) :
    after.deliver lpFeeCap event = (after, .error e) := by
  have unknown : ledger.hasEvent event.key = false := by
    by_contra known
    rw [deliver_of_known (Bool.eq_true_of_not_eq_false known)] at refused
    cases refused
  have received : ledger.receive lpFeeCap event = (after, .error e) := by
    rcases result : ledger.receive lpFeeCap event with ⟨left, outcome⟩
    cases outcome with
    | error other =>
        rw [deliver_of_refused unknown result] at refused
        exact refused
    | ok delivery =>
        rw [deliver_of_receive unknown result] at refused
        cases refused
  have receives := ledger.receives lpFeeCap event
  rw [received] at receives
  cases receives with
  | @refused event _ fails =>
      -- The first try may have left a referral address, but it made the deposit up with it as well.
      rw [← reconcile_touched] at fails
      have again := receiveDeposit_of_error fails
      rw [touched_touched] at again
      refine deliver_of_refused ?_ again
      rw [touched_eq]
      exact unknown
  | unchanged stays => exact refused

/-! ## Batches -/

/-- A batch stops at a record: those before it are accepted, and it is refused. -/
def StopsAt (lpFeeCap : Decimal) (ledger : Ledger) (earlier : List Event) (event : Event)
    (e : RewardError) (after : Ledger) : Prop :=
  ∃ next, Delivers lpFeeCap ledger earlier next ∧ next.deliver lpFeeCap event = (after, .error e)

theorem Delivers.grows (delivers : Delivers lpFeeCap ledger events after) :
    Grows ledger after := by
  induction delivers with
  | nil => exact .refl _
  | @cons before _ _ event _ _ first _ ih =>
      have step := grows_deliver before lpFeeCap event
      rw [first] at step
      exact step.trans ih

theorem Delivers.known (delivers : Delivers lpFeeCap ledger events after) :
    ∀ event ∈ events, after.hasEvent event.key = true := by
  induction delivers with
  | nil => exact fun event member => (by cases member)
  | cons first later ih =>
      intro event member
      rcases List.mem_cons.mp member with rfl | isLater
      · exact later.grows.hasEvent (known_of_deliver first)
      · exact ih event isLater

theorem delivers_of_deliverFrom {count total : DeliveryCount}
    (accepted : deliverFrom lpFeeCap count ledger events = (after, .ok total)) :
    Delivers lpFeeCap ledger events after := by
  induction events generalizing ledger count with
  | nil =>
      obtain ⟨rfl, -⟩ := Prod.mk.inj accepted
      exact .nil
  | cons event rest ih =>
      rw [deliverFrom] at accepted
      split at accepted
      · cases accepted
      · next first => exact .cons first (ih accepted)

/-- A batch that is not accepted as a whole stops at one of its records. -/
theorem exists_stopsAt_of_deliverFrom {count : DeliveryCount}
    (stopped : deliverFrom lpFeeCap count ledger events = (after, .error e)) :
    ∃ earlier event later, events = earlier ++ event :: later ∧
      StopsAt lpFeeCap ledger earlier event e after := by
  induction events generalizing ledger count with
  | nil => cases stopped
  | cons event rest ih =>
      rw [deliverFrom] at stopped
      split at stopped
      · next refused =>
          cases stopped
          exact ⟨[], event, rest, rfl, ledger, .nil, refused⟩
      · next first =>
          obtain ⟨earlier, last, later, rfl, next, accepted, refused⟩ := ih stopped
          exact ⟨event :: earlier, last, later, rfl, next, .cons first accepted, refused⟩

/-- Known records at the head of a batch are duplicates, and the rest is delivered as it would be
without them. -/
theorem deliverFrom_of_known (known : ∀ event ∈ events, ledger.hasEvent event.key = true)
    (lpFeeCap : Decimal) (count : DeliveryCount) (rest : List Event) :
    deliverFrom lpFeeCap count ledger (events ++ rest) =
      deliverFrom lpFeeCap { count with duplicates := count.duplicates + events.length } ledger
        rest := by
  induction events generalizing count with
  | nil => rfl
  | cons event others ih =>
      rw [List.cons_append, deliverFrom, deliver_of_known (known event List.mem_cons_self)]
      dsimp only
      rw [ih fun other member => known other (List.mem_cons_of_mem _ member)]
      congr 1
      simp only [DeliveryCount.add, DeliveryCount.mk.injEq, List.length_cons, true_and, and_true]
      omega

theorem delivers_of_known (lpFeeCap : Decimal)
    (known : ∀ event ∈ events, ledger.hasEvent event.key = true) :
    Delivers lpFeeCap ledger events ledger := by
  induction events with
  | nil => exact .nil
  | cons event rest ih =>
      exact .cons (deliver_of_known (known event List.mem_cons_self))
        (ih fun other member => known other (List.mem_cons_of_mem _ member))

theorem StopsAt.again {earlier : List Event}
    (stops : StopsAt lpFeeCap ledger earlier event e after) :
    StopsAt lpFeeCap after earlier event e after ∧
      ∀ later, after.deliverAll lpFeeCap (earlier ++ event :: later) = (after, .error e) := by
  obtain ⟨next, accepted, refused⟩ := stops
  have again := deliver_again_of_refused refused
  have grown := grows_deliver next lpFeeCap event
  rw [refused] at grown
  have known : ∀ record ∈ earlier, after.hasEvent record.key = true :=
    fun record member => grown.hasEvent (accepted.known record member)
  refine ⟨⟨after, delivers_of_known lpFeeCap known, again⟩, fun later => ?_⟩
  rw [deliverAll, deliverFrom_of_known known, deliverFrom, again]

/-- **A batch can be delivered again.**  The second delivery leaves the ledger as the first one
left it.  If the first one accepted all records, the second one finds them all to be duplicates;
if it stopped at a record, the second one stops at the same record with the same error. -/
theorem deliverAll_again (lpFeeCap : Decimal) (ledger : Ledger) (events : List Event) :
    let once := ledger.deliverAll lpFeeCap events
    (∀ count, once.2 = .ok count →
      once.1.deliverAll lpFeeCap events = (once.1, .ok { duplicates := events.length })) ∧
    ∀ e, once.2 = .error e →
      once.1.deliverAll lpFeeCap events = (once.1, .error e) ∧
      ∃ earlier event later, events = earlier ++ event :: later ∧
        StopsAt lpFeeCap ledger earlier event e once.1 ∧
        StopsAt lpFeeCap once.1 earlier event e once.1 := by
  intro once
  rcases result : ledger.deliverAll lpFeeCap events with ⟨after, outcome⟩
  have isOnce : once = (after, outcome) := result
  rw [isOnce]
  refine ⟨fun count accepted => ?_, fun e stopped => ?_⟩
  · obtain rfl : outcome = .ok count := accepted
    have known := (delivers_of_deliverFrom result).known
    have again := deliverFrom_of_known known lpFeeCap {} []
    rw [List.append_nil] at again
    rw [deliverAll, again, deliverFrom]
    simp
  · obtain rfl : outcome = .error e := stopped
    obtain ⟨earlier, event, later, rfl, stops⟩ := exists_stopsAt_of_deliverFrom result
    obtain ⟨stopsAgain, again⟩ := stops.again
    exact ⟨again later, earlier, event, later, rfl, stops, stopsAgain⟩

end BridgeRewards.Ledger

/-! ## A batch that stops

A fill waits for a deposit that comes with an amount that is no number. -/

namespace BridgeRewards.Trial

/-- The record of the deposit, which comes with a referral address. -/
def unreadDeposit : DepositEvent :=
  { awaited with inputAmount := "a thousand", referralAddress := some .zero }

theorem deliverAll_unreadDeposit :
    (Ledger.empty.deliverAll (.powerOfTen 18) [.fill half, .deposit unreadDeposit]).2 =
      .error (.invalidFixedPoint "inputAmount" "a thousand") := by
  decide +kernel

theorem deliverAll_awaited :
    (Ledger.empty.deliverAll (.powerOfTen 18) [.fill half, .deposit awaited]).2 =
      .ok { applied := 1, parked := 1 } := by
  decide +kernel

end BridgeRewards.Trial

namespace BridgeRewards.Ledger

/-- The batch stops at the deposit whenever it is delivered; with the readable deposit in its place
it is accepted, and its records are duplicates from then on. -/
theorem deliverAll_again_trial :
    (∃ earlier event later,
      [.fill Trial.half, .deposit Trial.unreadDeposit] = earlier ++ event :: later ∧
      StopsAt (.powerOfTen 18) .empty earlier event
        (.invalidFixedPoint "inputAmount" "a thousand")
        (Ledger.empty.deliverAll (.powerOfTen 18)
          [.fill Trial.half, .deposit Trial.unreadDeposit]).1 ∧
      StopsAt (.powerOfTen 18)
        (Ledger.empty.deliverAll (.powerOfTen 18)
          [.fill Trial.half, .deposit Trial.unreadDeposit]).1 earlier event
        (.invalidFixedPoint "inputAmount" "a thousand")
        (Ledger.empty.deliverAll (.powerOfTen 18)
          [.fill Trial.half, .deposit Trial.unreadDeposit]).1) ∧
    ((Ledger.empty.deliverAll (.powerOfTen 18) [.fill Trial.half, .deposit Trial.awaited]).1
      |>.deliverAll (.powerOfTen 18) [.fill Trial.half, .deposit Trial.awaited]) =
      ((Ledger.empty.deliverAll (.powerOfTen 18) [.fill Trial.half, .deposit Trial.awaited]).1,
        .ok { duplicates := 2 }) :=
  ⟨((deliverAll_again (.powerOfTen 18) .empty _).2 _ Trial.deliverAll_unreadDeposit).2,
    (deliverAll_again (.powerOfTen 18) .empty _).1 _ Trial.deliverAll_awaited⟩

end BridgeRewards.Ledger
