import BridgeRewards.Ledger.Claims
import BridgeRewards.Proofs.Deposit.Change
import BridgeRewards.Proofs.Table

/-!
# What a delivery writes

Receiving a record comes to one of a few things (`Receives`): a deposit is inserted with the fills
that wait for it, a fill waits, a deposit changes, a row is added to another table, or the record
leaves nothing but the referral address of a depositor who had none.  So a delivery touches
neither tokens and prices nor windows and jobs, and it takes no claim away (`exists_deliver_eq`).
-/

set_option autoImplicit false

namespace BridgeRewards

namespace Ledger

variable {ledger : Ledger} {lpFeeCap : Decimal}

/-! ## Deposit records -/

/-- The ledger once it is known with which referral address the depositor of a record came. -/
def touched (ledger : Ledger) (event : DepositEvent) : Ledger :=
  ledger.firstTouch event.depositor event.referralAddress

/-- The referral addresses once a depositor came with one or without: the first one stays. -/
def referralsAfter (referrals : Table Address Address) (event : DepositEvent) :
    Table Address Address :=
  match event.referralAddress, referrals.find? event.depositor with
  | some referral, none => referrals.insert event.depositor referral
  | _, _ => referrals

/-- A depositor that comes with a referral address touches nothing but the referral addresses. -/
theorem touched_eq (ledger : Ledger) (event : DepositEvent) :
    ledger.touched event =
      { ledger with stickyReferrals := referralsAfter ledger.stickyReferrals event } := by
  unfold touched referralsAfter
  cases event.referralAddress with
  | none => rfl
  | some referral =>
      unfold firstTouch setStickyReferral stickyReferral?
      cases ledger.stickyReferrals.find? event.depositor with
      | none => rfl
      | some current => rfl

@[simp] theorem deposits_touched (ledger : Ledger) (event : DepositEvent) :
    (ledger.touched event).deposits = ledger.deposits := by
  rw [touched_eq]

@[simp] theorem parkedFills_touched (ledger : Ledger) (event : DepositEvent) :
    (ledger.touched event).parkedFills = ledger.parkedFills := by
  rw [touched_eq]

@[simp] theorem parkedFor_touched (ledger : Ledger) (event : DepositEvent) (key : DepositKey) :
    (ledger.touched event).parkedFor key = ledger.parkedFor key := by
  rw [parkedFor, parkedFills_touched, parkedFor]

/-- The deposit of a record after the fills that wait for it. -/
def reconcile (lpFeeCap : Decimal) (ledger : Ledger) (event : DepositEvent) :
    Except RewardError Deposit :=
  ((ledger.touched event).completed event).fillAll lpFeeCap (ledger.parkedFor event.key)

theorem key_of_reconcile {event : DepositEvent} {d : Deposit}
    (settled : ledger.reconcile lpFeeCap event = .ok d) : d.key = event.key :=
  (Deposit.fillAll_keeps settled).1.key

theorem receiveDeposit_eq (lpFeeCap : Decimal) (ledger : Ledger) (event : DepositEvent) :
    ledger.receiveDeposit lpFeeCap event =
      match ledger.reconcile lpFeeCap event with
      | .error e => (ledger.touched event, .error e)
      | .ok d => Delivery.ofInsert ((ledger.touched event).dropParked event.key)
          (((ledger.touched event).dropParked event.key).insertDeposit d).toOption := by
  rw [reconcile, ← parkedFor_touched ledger event event.key]
  rfl

theorem receiveDeposit_of_error {event : DepositEvent} {e : RewardError}
    (refused : ledger.reconcile lpFeeCap event = .error e) :
    ledger.receiveDeposit lpFeeCap event = (ledger.touched event, .error e) := by
  rw [receiveDeposit_eq, refused]

/-- A deposit record is applied with the fills that wait for its deposit if there is no deposit at
its key, and is a duplicate otherwise. -/
theorem receiveDeposit_of_ok {event : DepositEvent} {d : Deposit}
    (settled : ledger.reconcile lpFeeCap event = .ok d) :
    ledger.receiveDeposit lpFeeCap event =
      if (ledger.deposits.find? event.key).isSome
      then ((ledger.touched event).dropParked event.key, .ok .duplicate)
      else (((ledger.touched event).dropParked event.key).putDeposit d, .ok .applied) := by
  rw [receiveDeposit_eq, settled]
  change Delivery.ofInsert ((ledger.touched event).dropParked event.key)
    (if (((ledger.touched event).deposits.find? d.key).isSome = true) then _ else _ :
      Except LedgerError Ledger).toOption = _
  rw [deposits_touched, key_of_reconcile settled]
  by_cases taken : (ledger.deposits.find? event.key).isSome = true
  · rw [if_pos taken, if_pos taken]
    rfl
  · rw [if_neg taken, if_neg taken]
    rfl

theorem insertClaim_eq_some {claim : Claim} {after : Ledger} :
    ledger.insertClaim claim = some after ↔
      ledger.claims.find? claim.key = none ∧
        after = { ledger with claims := ledger.claims.insert claim.key claim } := by
  unfold insertClaim Table.contains
  cases ledger.claims.find? claim.key <;> simp [eq_comm]

theorem insertClaim_of_held {claim held : Claim}
    (found : ledger.claims.find? claim.key = some held) : ledger.insertClaim claim = none := by
  refine Option.eq_none_iff_forall_ne_some.mpr fun after inserted => ?_
  obtain ⟨free, -⟩ := insertClaim_eq_some.mp inserted
  cases found.symm.trans free

/-! ## All records -/

/-- What a record leaves behind whether it is applied or not: the referral address of a depositor
who had none, if it is the record of a deposit that came with one. -/
def touchedBy (ledger : Ledger) : Event → Ledger
  | .deposit event => ledger.touched event
  | _ => ledger

/-- What can come of receiving a record. -/
inductive Receives (lpFeeCap : Decimal) (ledger : Ledger) :
    Event → Ledger × Except RewardError Delivery → Prop
  /-- A deposit cannot take the fills that wait for it. -/
  | refused {event : DepositEvent} {e : RewardError}
      (refused : ledger.reconcile lpFeeCap event = .error e) :
      Receives lpFeeCap ledger (.deposit event) (ledger.touched event, .error e)
  /-- A deposit is there already; the fills that wait for it are dropped. -/
  | duplicate {event : DepositEvent} {d old : Deposit}
      (settled : ledger.reconcile lpFeeCap event = .ok d)
      (found : ledger.deposits.find? event.key = some old) :
      Receives lpFeeCap ledger (.deposit event)
        ((ledger.touched event).dropParked event.key, .ok .duplicate)
  | inserted {event : DepositEvent} {d : Deposit}
      (settled : ledger.reconcile lpFeeCap event = .ok d)
      (absent : ledger.deposits.find? event.key = none) :
      Receives lpFeeCap ledger (.deposit event)
        (((ledger.touched event).dropParked event.key).putDeposit d, .ok .applied)
  | parked {event : FillEvent} (absent : ledger.deposits.find? event.key = none) :
      Receives lpFeeCap ledger (.fill event) (ledger.parkFill event.toRecord, .ok .parked)
  /-- A fill or a faster fee changes a deposit that is there. -/
  | changed {event : Event} {key : DepositKey} {d after : Deposit}
      (found : ledger.deposits.find? key = some d) (change : d.Change lpFeeCap after) :
      Receives lpFeeCap ledger event (ledger.putDeposit after, .ok .applied)
  /-- A record that is not of a deposit is refused, known, or too late. -/
  | unchanged {event : Event} {outcome : Except RewardError Delivery}
      (stays : ledger.touchedBy event = ledger) : Receives lpFeeCap ledger event (ledger, outcome)
  | refund {refund : Refund} :
      Receives lpFeeCap ledger (.refund refund)
        ({ ledger with refunds := ledger.refunds.insert refund.eventMeta.key refund },
          .ok .applied)
  | claim {event : ClaimEvent} (free : ledger.claims.find? event.toClaim.key = none) :
      Receives lpFeeCap ledger (.claim event)
        ({ ledger with claims := ledger.claims.insert event.toClaim.key event.toClaim },
          .ok .applied)
  | route {route : Route} :
      Receives lpFeeCap ledger (.route route) (ledger.putRoute route, .ok .applied)

theorem receives_deposit (ledger : Ledger) (lpFeeCap : Decimal) (event : DepositEvent) :
    Receives lpFeeCap ledger (.deposit event) (ledger.receiveDeposit lpFeeCap event) := by
  cases settled : ledger.reconcile lpFeeCap event with
  | error e =>
      rw [receiveDeposit_of_error settled]
      exact .refused settled
  | ok d =>
      rw [receiveDeposit_of_ok settled]
      cases found : ledger.deposits.find? event.key with
      | some old => exact .duplicate settled found
      | none => exact .inserted settled found

theorem receives_fill (ledger : Ledger) (lpFeeCap : Decimal) (event : FillEvent) :
    Receives lpFeeCap ledger (.fill event) (ledger.receiveFill lpFeeCap event) := by
  unfold receiveFill
  split
  · next absent => exact .parked absent
  · next d found =>
      split
      · exact .unchanged rfl
      · exact .unchanged rfl
      · next filled => exact .changed found (.fill filled)

theorem receives_speedUp (ledger : Ledger) (lpFeeCap : Decimal) (event : SpeedUpEvent) :
    Receives lpFeeCap ledger (.speedUp event) (ledger.receiveSpeedUp event) := by
  unfold receiveSpeedUp
  split
  · exact .unchanged rfl
  · next d found =>
      split
      · exact .unchanged rfl
      · exact .unchanged rfl
      · next faster => exact .changed found (.speedUp faster)

/-- **What can come of receiving a record.** -/
theorem receives (ledger : Ledger) (lpFeeCap : Decimal) (event : Event) :
    Receives lpFeeCap ledger event (ledger.receive lpFeeCap event) := by
  cases event with
  | deposit event => exact receives_deposit ledger lpFeeCap event
  | fill event => exact receives_fill ledger lpFeeCap event
  | speedUp event => exact receives_speedUp ledger lpFeeCap event
  | refund refund =>
      unfold receive insertRefund
      dsimp only
      split
      · exact .unchanged rfl
      · exact .refund
  | claim event =>
      unfold receive
      dsimp only
      cases inserted : ledger.insertClaim event.toClaim with
      | none => exact .unchanged rfl
      | some after =>
          obtain ⟨free, rfl⟩ := insertClaim_eq_some.mp inserted
          exact .claim free
  | route route => exact .route

/-- What a record changes when it is received. -/
theorem exists_receive_eq (ledger : Ledger) (lpFeeCap : Decimal) (event : Event) :
    ∃ deposits parkedFills stickyReferrals routes refunds claims,
      claims.Extends ledger.claims ∧
        (ledger.receive lpFeeCap event).1 =
          { ledger with deposits, parkedFills, stickyReferrals, routes, refunds, claims } := by
  have same := Table.Extends.refl ledger.claims
  have received := ledger.receives lpFeeCap event
  generalize ledger.receive lpFeeCap event = result at received ⊢
  cases received with
  | refused refused =>
      rw [touched_eq]
      exact ⟨_, _, _, _, _, _, same, rfl⟩
  | duplicate settled found =>
      rw [touched_eq]
      exact ⟨_, _, _, _, _, _, same, rfl⟩
  | inserted settled absent =>
      rw [touched_eq]
      exact ⟨_, _, _, _, _, _, same, rfl⟩
  | parked absent => exact ⟨_, _, _, _, _, _, same, rfl⟩
  | changed found change => exact ⟨_, _, _, _, _, _, same, rfl⟩
  | unchanged stays => exact ⟨_, _, _, _, _, _, same, rfl⟩
  | refund => exact ⟨_, _, _, _, _, _, same, rfl⟩
  | claim free => exact ⟨_, _, _, _, _, _, Table.extends_insert free, rfl⟩
  | route => exact ⟨_, _, _, _, _, _, same, rfl⟩

theorem deliver_of_known {event : Event} (known : ledger.hasEvent event.key = true) :
    ledger.deliver lpFeeCap event = (ledger, .ok .duplicate) := by
  rw [deliver, if_pos known]

theorem deliver_of_receive {event : Event} {after : Ledger} {delivery : Delivery}
    (unknown : ledger.hasEvent event.key = false)
    (received : ledger.receive lpFeeCap event = (after, .ok delivery)) :
    ledger.deliver lpFeeCap event = (after.recordEvent event.key, .ok delivery) := by
  rw [deliver, if_neg (Bool.eq_false_iff.mp unknown), received]

theorem deliver_of_refused {event : Event} {after : Ledger} {e : RewardError}
    (unknown : ledger.hasEvent event.key = false)
    (refused : ledger.receive lpFeeCap event = (after, .error e)) :
    ledger.deliver lpFeeCap event = (after, .error e) := by
  rw [deliver, if_neg (Bool.eq_false_iff.mp unknown), refused]

/-- A delivery leaves the ledger as it was, or as receiving the record leaves it, with the record
noted or not. -/
theorem fst_deliver (ledger : Ledger) (lpFeeCap : Decimal) (event : Event) :
    (ledger.deliver lpFeeCap event).1 = ledger ∨
      (ledger.deliver lpFeeCap event).1 = (ledger.receive lpFeeCap event).1 ∨
      (ledger.deliver lpFeeCap event).1 =
        (ledger.receive lpFeeCap event).1.recordEvent event.key := by
  cases known : ledger.hasEvent event.key with
  | true =>
      rw [deliver_of_known known]
      exact .inl rfl
  | false =>
      rcases received : ledger.receive lpFeeCap event with ⟨after, outcome⟩
      cases outcome with
      | error e =>
          rw [deliver_of_refused known received]
          exact .inr (.inl rfl)
      | ok delivery =>
          rw [deliver_of_receive known received]
          exact .inr (.inr rfl)

/-- **What the delivery of a record changes**: the records, the deposits and what else is told of
by records; no claim is taken away. -/
theorem exists_deliver_eq (ledger : Ledger) (lpFeeCap : Decimal) (event : Event) :
    ∃ events deposits parkedFills stickyReferrals routes refunds claims,
      claims.Extends ledger.claims ∧
        (ledger.deliver lpFeeCap event).1 =
          { ledger with
            events, deposits, parkedFills, stickyReferrals, routes, refunds, claims } := by
  obtain ⟨deposits, parkedFills, stickyReferrals, routes, refunds, claims, more, received⟩ :=
    ledger.exists_receive_eq lpFeeCap event
  rcases ledger.fst_deliver lpFeeCap event with same | left | noted
  · rw [same]
    exact ⟨_, _, _, _, _, _, _, .refl _, rfl⟩
  · rw [left]
    exact ⟨_, _, _, _, _, _, _, more, received⟩
  · rw [noted]
    exact ⟨_, _, _, _, _, _, _, more, congrArg (recordEvent · event.key) received⟩

end Ledger

end BridgeRewards
