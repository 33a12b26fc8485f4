import BridgeRewards.Proofs.Ledger.Commit
import BridgeRewards.Proofs.Ledger.Delivery

/-!
# Fills that wait

A fill waits for its deposit only as long as there is no deposit at its key, so a ledger in which
no fill waits for a deposit that is there is left as such a ledger by every delivery
(`CaughtUp.deliver`).  In such a ledger a record that is neither applied nor parked changes
nothing but the referral address of a depositor who had none (`leaves_receive`).
-/

set_option autoImplicit false

namespace BridgeRewards.Ledger

variable {ledger : Ledger} {lpFeeCap : Decimal}

/-- No fill waits for a deposit that is there. -/
def CaughtUp (ledger : Ledger) : Prop :=
  ∀ key d, ledger.deposits.find? key = some d → ledger.parkedFills.find? key = none

/-! ## Deliveries -/

theorem caughtUp_empty : CaughtUp .empty := fun key d found => by cases found

theorem CaughtUp.of_eq {after : Ledger} (caughtUp : CaughtUp ledger)
    (deposits : ∀ key, after.deposits.find? key = none ↔ ledger.deposits.find? key = none)
    (parked : after.parkedFills = ledger.parkedFills) : CaughtUp after := by
  intro key d found
  cases before : ledger.deposits.find? key with
  | none =>
      rw [(deposits key).mpr before] at found
      cases found
  | some old =>
      rw [parked]
      exact caughtUp key old before

theorem CaughtUp.dropParked (caughtUp : CaughtUp ledger) (key : DepositKey) :
    CaughtUp (ledger.dropParked key) := by
  intro other d found
  change (ledger.parkedFills.erase key).find? other = none
  rw [Table.find?_erase]
  split
  · rfl
  · exact caughtUp other d found

theorem CaughtUp.putDeposit (caughtUp : CaughtUp ledger) {d : Deposit}
    (none : ledger.parkedFills.find? d.key = none) : CaughtUp (ledger.putDeposit d) := by
  intro other old found
  change (ledger.deposits.insert d.key d).find? other = some old at found
  rw [Table.find?_insert] at found
  by_cases here : other = d.key
  · rw [here]
    exact none
  · rw [if_neg here] at found
    exact caughtUp other old found

theorem CaughtUp.parkFill (caughtUp : CaughtUp ledger) {record : FillRecord}
    (absent : ledger.deposits.find? record.deposit = none) :
    CaughtUp (ledger.parkFill record) := by
  intro other d found
  have elsewhere : other ≠ record.deposit := by
    rintro rfl
    change ledger.deposits.find? record.deposit = some d at found
    rw [absent] at found
    cases found
  change (ledger.parkedFills.insert record.deposit _).find? other = none
  rw [Table.find?_insert, if_neg elsewhere]
  exact caughtUp other d found

theorem CaughtUp.receive (caughtUp : CaughtUp ledger) (keyed : ledger.Keyed) (lpFeeCap : Decimal)
    (event : Event) : CaughtUp (ledger.receive lpFeeCap event).1 := by
  have touched : ∀ event, CaughtUp (ledger.touched event) := fun event =>
    caughtUp.of_eq (fun key => by rw [deposits_touched]) (parkedFills_touched ledger event)
  have received := ledger.receives lpFeeCap event
  generalize ledger.receive lpFeeCap event = result at received ⊢
  cases received with
  | refused refused => exact touched _
  | duplicate settled found => exact (touched _).dropParked _
  | inserted settled absent =>
      refine ((touched _).dropParked _).putDeposit ?_
      change (Table.erase _ _).find? _ = none
      rw [key_of_reconcile settled, Table.find?_erase, if_pos rfl]
  | parked absent => exact caughtUp.parkFill absent
  | changed found change =>
      refine caughtUp.putDeposit ?_
      rw [change.keeps.key, keyed _ _ found]
      exact caughtUp _ _ found
  | unchanged stays => exact caughtUp
  | refund => exact caughtUp
  | claim free => exact caughtUp
  | route => exact caughtUp

theorem CaughtUp.deliver (caughtUp : CaughtUp ledger) (keyed : ledger.Keyed) (lpFeeCap : Decimal)
    (event : Event) : CaughtUp (ledger.deliver lpFeeCap event).1 := by
  have received := caughtUp.receive keyed lpFeeCap event
  rcases ledger.fst_deliver lpFeeCap event with same | left | noted
  · rw [same]
    exact caughtUp
  · rw [left]
    exact received
  · rw [noted]
    exact received

/-- A deposit that is there already is a duplicate, as no fill waits for it. -/
theorem CaughtUp.receiveDeposit_of_found (caughtUp : CaughtUp ledger) {event : DepositEvent}
    {old : Deposit} (found : ledger.deposits.find? event.key = some old) :
    ledger.receiveDeposit lpFeeCap event = (ledger.touched event, .ok .duplicate) := by
  have absent : ledger.parkedFills.find? event.key = none := caughtUp _ _ found
  have settled : ledger.reconcile lpFeeCap event =
      .ok ((ledger.touched event).completed event) := by
    unfold reconcile parkedFor
    rw [absent]
    rfl
  have received := receiveDeposit_of_ok settled
  rw [found, if_pos Option.isSome_some] at received
  rw [← parkedFills_touched ledger event] at absent
  rw [received, Ledger.dropParked, Table.erase_of_find?_eq_none absent]

/-! ## Fills go on waiting -/

/-- At a key at which there is no deposit yet there was none before, and the fills that waited there
go on waiting, before those that came later. -/
structure StillWaiting (key : DepositKey) (before after : Ledger) : Prop where
  absent : before.deposits.find? key = none
  grown : before.parkedFor key <+: after.parkedFor key

theorem StillWaiting.of_eq {key : DepositKey} {after : Ledger}
    (absent : ledger.deposits.find? key = none)
    (parked : after.parkedFills.find? key = ledger.parkedFills.find? key) :
    StillWaiting key ledger after := by
  have same : after.parkedFor key = ledger.parkedFor key := congrArg (Option.getD · []) parked
  exact ⟨absent, same ▸ List.prefix_refl _⟩

theorem StillWaiting.trans {key : DepositKey} {first second third : Ledger}
    (earlier : StillWaiting key first second) (later : StillWaiting key second third) :
    StillWaiting key first third :=
  ⟨earlier.absent, earlier.grown.trans later.grown⟩

theorem stillWaiting_receive (lpFeeCap : Decimal) (event : Event) {key : DepositKey}
    (absent : (ledger.receive lpFeeCap event).1.deposits.find? key = none) :
    StillWaiting key ledger (ledger.receive lpFeeCap event).1 := by
  have received := ledger.receives lpFeeCap event
  generalize ledger.receive lpFeeCap event = result at received absent ⊢
  cases received with
  | @refused event _ _ =>
      rw [deposits_touched] at absent
      exact .of_eq absent (by rw [parkedFills_touched])
  | @duplicate event _ _ _ found =>
      change (ledger.touched event).deposits.find? key = none at absent
      rw [deposits_touched] at absent
      have elsewhere : key ≠ event.key := by
        rintro rfl
        rw [found] at absent
        cases absent
      refine .of_eq absent ?_
      change (Table.erase _ _).find? key = _
      rw [Table.find?_erase, if_neg elsewhere, parkedFills_touched]
  | @inserted event d settled _ =>
      change ((ledger.touched event).deposits.insert d.key d).find? key = none at absent
      rw [Table.find?_insert, deposits_touched, key_of_reconcile settled] at absent
      by_cases here : key = event.key
      · rw [if_pos here] at absent
        cases absent
      · rw [if_neg here] at absent
        refine .of_eq absent ?_
        change (Table.erase _ _).find? key = _
        rw [Table.find?_erase, if_neg here, parkedFills_touched]
  | @parked event _ =>
      refine ⟨absent, ?_⟩
      have parked : (ledger.parkFill event.toRecord).parkedFills.find? key =
          if key = event.toRecord.deposit then
            some (ledger.parkedFor event.toRecord.deposit ++ [event.toRecord])
          else ledger.parkedFills.find? key := Table.find?_insert _ _ _ _
      unfold parkedFor at parked ⊢
      rw [parked]
      split
      · next here =>
          rw [here]
          exact List.prefix_append _ _
      · exact List.prefix_refl _
  | @changed _ itsKey d after found change =>
      change (ledger.deposits.insert after.key after).find? key = none at absent
      rw [Table.find?_insert] at absent
      split at absent
      · cases absent
      · exact .of_eq absent rfl
  | unchanged stays => exact .of_eq absent rfl
  | refund => exact .of_eq absent rfl
  | claim free => exact .of_eq absent rfl
  | route => exact .of_eq absent rfl

theorem stillWaiting_deliver (lpFeeCap : Decimal) (event : Event) {key : DepositKey}
    (absent : (ledger.deliver lpFeeCap event).1.deposits.find? key = none) :
    StillWaiting key ledger (ledger.deliver lpFeeCap event).1 := by
  have received := @stillWaiting_receive ledger lpFeeCap event key
  rcases ledger.fst_deliver lpFeeCap event with same | left | noted
  · rw [same] at absent ⊢
    exact .of_eq absent rfl
  · rw [left] at absent ⊢
    exact received absent
  · rw [noted] at absent ⊢
    obtain ⟨before, grown⟩ := received absent
    exact ⟨before, grown⟩

/-! ## Records that are not applied -/

/-- The result of receiving a record: it is applied, or it waits, or it leaves some ledger. -/
def LeavesUnless (left : Ledger) (result : Ledger × Except RewardError Delivery) : Prop :=
  result.2 = .ok .applied ∨ result.2 = .ok .parked ∨ result.1 = left

theorem LeavesUnless.of_error {left after : Ledger} {e : RewardError}
    (leaves : LeavesUnless left (after, .error e)) : after = left := by
  rcases leaves with applied | parked | same
  · cases applied
  · cases parked
  · exact same

/-- A duplicate and a record that comes too late are neither applied nor parked. -/
theorem LeavesUnless.of_late {left after : Ledger} {delivery : Delivery}
    (leaves : LeavesUnless left (after, .ok delivery))
    (late : delivery = .duplicate ∨ delivery = .ignored) : after = left := by
  rcases leaves with applied | parked | same
  · obtain rfl : delivery = .applied := Except.ok.inj applied
    rcases late with duplicate | ignored
    · cases duplicate
    · cases ignored
  · obtain rfl : delivery = .parked := Except.ok.inj parked
    rcases late with duplicate | ignored
    · cases duplicate
    · cases ignored
  · exact same

/-- A record that is neither applied nor parked leaves its referral address and nothing else. -/
theorem leaves_receive (caughtUp : CaughtUp ledger) (lpFeeCap : Decimal) (event : Event) :
    LeavesUnless (ledger.touchedBy event) (ledger.receive lpFeeCap event) := by
  have received := ledger.receives lpFeeCap event
  generalize ledger.receive lpFeeCap event = result at received ⊢
  cases received with
  | refused refused => exact .inr (.inr rfl)
  | duplicate settled found =>
      have none := caughtUp _ _ found
      rw [← parkedFills_touched] at none
      rw [dropParked, Table.erase_of_find?_eq_none none]
      exact .inr (.inr rfl)
  | inserted settled absent => exact .inl rfl
  | parked absent => exact .inr (.inl rfl)
  | changed found change => exact .inl rfl
  | unchanged stays => exact .inr (.inr stays.symm)
  | refund => exact .inl rfl
  | claim free => exact .inl rfl
  | route => exact .inl rfl

end BridgeRewards.Ledger
