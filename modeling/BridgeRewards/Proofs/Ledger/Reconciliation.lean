import BridgeRewards.Proofs.Deposit.Fill
import BridgeRewards.Proofs.Ledger.Parking

/-!
# When a deposit comes among its fills

The record of a deposit may come before, between or after the records of its fills.  Two records
that follow one another, a fill and its deposit, lead to the same ledger in either order
(`deliver_swap`), so the deposit may as well come first (`delivers_moved`).  Then its fills reach
it one by one, and what they come to is known (`Deposit.reconciled_afterFills`).
-/

set_option autoImplicit false

namespace BridgeRewards.Ledger

variable {ledger after : Ledger} {lpFeeCap : Decimal}

/-! ## Records that are not known yet -/

/-- Some records are all different, and none of them has been dealt with. -/
structure Fresh (ledger : Ledger) (keys : List EventKey) : Prop where
  distinct : keys.Nodup
  unknown : ∀ key ∈ keys, ledger.events.find? key = none

theorem Fresh.head {key : EventKey} {keys : List EventKey} (fresh : Fresh ledger (key :: keys)) :
    ledger.hasEvent key = false := by
  rw [hasEvent, Table.contains, fresh.unknown key List.mem_cons_self]
  rfl

theorem Fresh.tail {key : EventKey} {keys : List EventKey} (fresh : Fresh ledger (key :: keys))
    (events : after.events = ledger.events.insert key ()) : Fresh after keys where
  distinct := (List.nodup_cons.mp fresh.distinct).2
  unknown other member := by
    have differ : other ≠ key := by
      rintro rfl
      exact (List.nodup_cons.mp fresh.distinct).1 member
    rw [events, Table.find?_insert, if_neg differ]
    exact fresh.unknown other (List.mem_cons_of_mem _ member)

theorem Fresh.perm {keys others : List EventKey} (fresh : Fresh ledger keys)
    (perm : keys.Perm others) : Fresh ledger others where
  distinct := perm.nodup_iff.mp fresh.distinct
  unknown key member := fresh.unknown key (perm.mem_iff.mpr member)

/-! ## One fill -/

/-- The ledger with one more fill that waits. -/
def parked (ledger : Ledger) (event : FillEvent) : Ledger :=
  { ledger with
    events := ledger.events.insert event.eventMeta.key ()
    parkedFills := ledger.parkedFills.insert event.key
      (ledger.parkedFor event.key ++ [event.toRecord]) }

theorem parkedFor_parked (ledger : Ledger) (event : FillEvent) :
    (ledger.parked event).parkedFor event.key =
      ledger.parkedFor event.key ++ [event.toRecord] := by
  rw [parkedFor, parked, Table.find?_insert, if_pos rfl]
  rfl

theorem deliver_fill_of_absent {event : FillEvent}
    (unknown : ledger.hasEvent event.eventMeta.key = false)
    (absent : ledger.deposits.find? event.key = none) :
    ledger.deliver lpFeeCap (.fill event) = (ledger.parked event, .ok .parked) := by
  have received : ledger.receive lpFeeCap (.fill event) =
      (ledger.parkFill event.toRecord, .ok .parked) := by
    change ledger.receiveFill lpFeeCap event = _
    rw [receiveFill, absent]
  exact deliver_of_receive unknown received

/-- The ledger after a fill has reached its deposit. -/
def reached (lpFeeCap : Decimal) (ledger : Ledger) (event : FillEvent) (d : Deposit) : Ledger :=
  { ledger with
    events := ledger.events.insert event.eventMeta.key ()
    deposits := ledger.deposits.insert event.key (d.afterFill lpFeeCap event.toRecord) }

/-- A fill whose numbers are integers reaches a deposit that is there. -/
theorem deliver_fill_of_found (lpFeeCap : Decimal) {event : FillEvent} {d : Deposit}
    (unknown : ledger.hasEvent event.eventMeta.key = false)
    (found : ledger.deposits.find? event.key = some d) (atKey : d.key = event.key)
    (isInput : Decimal.isIntegerText d.inputAmount = true)
    (whole : event.toRecord.isWhole = true) :
    ∃ delivery, ledger.deliver lpFeeCap (.fill event) =
      (ledger.reached lpFeeCap event d, .ok delivery) := by
  have filled : d.fill event.toRecord lpFeeCap =
      .ok (d.outcomeOf event.toRecord, d.afterFill lpFeeCap event.toRecord) :=
    Deposit.fill_iff.mpr ⟨fun _ => ⟨isInput, whole⟩, rfl, rfl⟩
  have key := (Deposit.afterFill_keeps lpFeeCap d event.toRecord).2.trans atKey
  have put : ((ledger.putDeposit (d.afterFill lpFeeCap event.toRecord)).recordEvent
      event.eventMeta.key) = ledger.reached lpFeeCap event d := by
    rw [putDeposit, key]
    rfl
  have received : ∃ delivery, ledger.receiveFill lpFeeCap event =
      (ledger.putDeposit (d.afterFill lpFeeCap event.toRecord), .ok delivery) := by
    rw [receiveFill, found]
    dsimp only
    rw [filled]
    cases outcome : d.outcomeOf event.toRecord with
    | partially => exact ⟨.applied, rfl⟩
    | filled => exact ⟨.applied, rfl⟩
    | alreadyFilled =>
        have isFilled : d.isFilled = true := by
          by_contra pending
          rw [Deposit.outcomeOf, if_neg pending] at outcome
          split at outcome
          · cases outcome
          · cases outcome
        refine ⟨.ignored, ?_⟩
        rw [putDeposit, key, Deposit.afterFill_of_filled isFilled, Table.insert_of_find? found]
  obtain ⟨delivery, received⟩ := received
  exact ⟨delivery, put ▸ deliver_of_receive unknown received⟩

/-! ## The deposit -/

/-- The deposit of a record after the fills that wait for it. -/
def arriving (lpFeeCap : Decimal) (ledger : Ledger) (event : DepositEvent) : Deposit :=
  ((ledger.touched event).completed event).afterFills lpFeeCap (ledger.parkedFor event.key)

/-- The ledger after a deposit has arrived. -/
def arrived (lpFeeCap : Decimal) (ledger : Ledger) (event : DepositEvent) : Ledger :=
  { ledger with
    events := ledger.events.insert event.eventMeta.key ()
    deposits := ledger.deposits.insert event.key (ledger.arriving lpFeeCap event)
    parkedFills := ledger.parkedFills.erase event.key
    stickyReferrals := referralsAfter ledger.stickyReferrals event }

/-- A deposit arrives where there is none, if its amount and the numbers of the fills that wait
for it are integers. -/
theorem deliver_deposit_of_absent {event : DepositEvent}
    (unknown : ledger.hasEvent event.eventMeta.key = false)
    (absent : ledger.deposits.find? event.key = none)
    (isInput : Decimal.isIntegerText event.inputAmount = true)
    (whole : ∀ record ∈ ledger.parkedFor event.key, record.isWhole = true) :
    ledger.deliver lpFeeCap (.deposit event) = (ledger.arrived lpFeeCap event, .ok .applied) := by
  have settled : ledger.reconcile lpFeeCap event = .ok (ledger.arriving lpFeeCap event) :=
    Deposit.fillAll_eq_ok isInput whole
  have received : ledger.receive lpFeeCap (.deposit event) =
      (((ledger.touched event).dropParked event.key).putDeposit
        (ledger.arriving lpFeeCap event), .ok .applied) := by
    change ledger.receiveDeposit lpFeeCap event = _
    rw [receiveDeposit_of_ok settled, absent]
    rfl
  have put : ((((ledger.touched event).dropParked event.key).putDeposit
      (ledger.arriving lpFeeCap event)).recordEvent event.eventMeta.key) =
        ledger.arrived lpFeeCap event := by
    rw [putDeposit, key_of_reconcile settled, touched_eq]
    rfl
  exact put ▸ deliver_of_receive unknown received

/-! ## A deposit and its fills -/

/-- A deposit that is not there yet and some of its fills, none of them delivered yet, whose
numbers are integers like those of the fills that wait already. -/
structure Awaits (ledger : Ledger) (event : DepositEvent) (fills : List FillEvent) : Prop where
  absent : ledger.deposits.find? event.key = none
  isInput : Decimal.isIntegerText event.inputAmount = true
  waiting : ∀ record ∈ ledger.parkedFor event.key, record.isWhole = true
  ours : ∀ fill ∈ fills, fill.key = event.key
  whole : ∀ fill ∈ fills, fill.toRecord.isWhole = true
  fresh : Fresh ledger (event.eventMeta.key :: fills.map (·.eventMeta.key))

variable {event : DepositEvent} {fill : FillEvent} {fills : List FillEvent}

theorem Awaits.unknown (awaits : Awaits ledger event (fill :: fills)) :
    ledger.hasEvent fill.eventMeta.key = false :=
  (awaits.fresh.perm (List.Perm.swap _ _ _)).head

theorem Awaits.parked (awaits : Awaits ledger event (fill :: fills)) :
    Awaits (ledger.parked fill) event fills where
  absent := awaits.absent
  isInput := awaits.isInput
  waiting record member := by
    rw [← awaits.ours fill List.mem_cons_self, parkedFor_parked,
      awaits.ours fill List.mem_cons_self] at member
    rcases List.mem_append.mp member with earlier | last
    · exact awaits.waiting record earlier
    · obtain rfl := List.mem_singleton.mp last
      exact awaits.whole fill List.mem_cons_self
  ours other member := awaits.ours other (List.mem_cons_of_mem _ member)
  whole other member := awaits.whole other (List.mem_cons_of_mem _ member)
  fresh := (awaits.fresh.perm (List.Perm.swap _ _ _)).tail rfl

/-- A fill that waits is the last of those that the deposit takes when it arrives. -/
theorem arriving_parked (lpFeeCap : Decimal) (ours : fill.key = event.key) :
    (ledger.parked fill).arriving lpFeeCap event =
      (ledger.arriving lpFeeCap event).afterFill lpFeeCap fill.toRecord := by
  have completed : ((ledger.parked fill).touched event).completed event =
      (ledger.touched event).completed event := by
    rw [touched_eq, touched_eq]
    rfl
  have waiting := parkedFor_parked ledger fill
  rw [ours] at waiting
  rw [arriving, completed, waiting, Deposit.afterFills_append]
  rfl

/-- **Either order.**  A fill that waits for its deposit and one that finds it there leave the same
ledger behind. -/
theorem deliver_swap (lpFeeCap : Decimal) (awaits : Awaits ledger event (fill :: fills)) :
    (ledger.parked fill).arrived lpFeeCap event =
      (ledger.arrived lpFeeCap event).reached lpFeeCap fill (ledger.arriving lpFeeCap event) := by
  have ours := awaits.ours fill List.mem_cons_self
  have differ : event.eventMeta.key ≠ fill.eventMeta.key := by
    intro same
    apply (List.nodup_cons.mp awaits.fresh.distinct).1
    rw [same]
    exact List.mem_cons_self
  have events : (ledger.events.insert fill.eventMeta.key ()).insert event.eventMeta.key () =
      (ledger.events.insert event.eventMeta.key ()).insert fill.eventMeta.key () :=
    Table.insert_comm differ.symm ledger.events () ()
  have parked : (ledger.parkedFills.insert fill.key
      (ledger.parkedFor fill.key ++ [fill.toRecord])).erase event.key =
        ledger.parkedFills.erase event.key := by
    rw [ours, Table.erase_insert]
  have deposits : ledger.deposits.insert event.key ((ledger.parked fill).arriving lpFeeCap event) =
      (ledger.deposits.insert event.key (ledger.arriving lpFeeCap event)).insert fill.key
        ((ledger.arriving lpFeeCap event).afterFill lpFeeCap fill.toRecord) := by
    rw [ours, Table.insert_insert, arriving_parked lpFeeCap ours]
  change { ledger with
    events := (ledger.events.insert fill.eventMeta.key ()).insert event.eventMeta.key ()
    deposits := ledger.deposits.insert event.key ((ledger.parked fill).arriving lpFeeCap event)
    parkedFills := (ledger.parkedFills.insert fill.key
      (ledger.parkedFor fill.key ++ [fill.toRecord])).erase event.key
    stickyReferrals := referralsAfter ledger.stickyReferrals event } = _
  rw [events, deposits, parked]
  rfl

/-! ## A deposit anywhere among its fills -/

/-- Some records are delivered, all of them, and this is the ledger that they lead to. -/
inductive Delivers (lpFeeCap : Decimal) : Ledger → List Event → Ledger → Prop
  | nil {ledger : Ledger} : Delivers lpFeeCap ledger [] ledger
  | cons {ledger next after : Ledger} {event : Event} {rest : List Event} {delivery : Delivery}
      (first : ledger.deliver lpFeeCap event = (next, .ok delivery))
      (later : Delivers lpFeeCap next rest after) : Delivers lpFeeCap ledger (event :: rest) after

theorem Delivers.exists_count {events : List Event}
    (delivers : Delivers lpFeeCap ledger events after) (count : DeliveryCount) :
    ∃ total, deliverFrom lpFeeCap count ledger events = (after, .ok total) := by
  induction delivers generalizing count with
  | nil => exact ⟨count, rfl⟩
  | cons first later ih =>
      obtain ⟨total, rest⟩ := ih (count.add _)
      refine ⟨total, ?_⟩
      rw [deliverFrom, first]
      exact rest

/-- A deposit is there with the fills that have reached it, and no fill waits for it. -/
structure Holds (ledger : Ledger) (key : DepositKey) (d : Deposit) : Prop where
  found : ledger.deposits.find? key = some d
  atKey : d.key = key
  settled : ledger.parkedFills.find? key = none

theorem delivers_fills (lpFeeCap : Decimal) {key : DepositKey} {d : Deposit}
    (holds : Holds ledger key d) (isInput : Decimal.isIntegerText d.inputAmount = true)
    (ours : ∀ fill ∈ fills, fill.key = key)
    (whole : ∀ fill ∈ fills, fill.toRecord.isWhole = true)
    (fresh : Fresh ledger (fills.map (·.eventMeta.key))) :
    ∃ after, Delivers lpFeeCap ledger (fills.map .fill) after ∧
      Holds after key (d.afterFills lpFeeCap (fills.map (·.toRecord))) := by
  induction fills generalizing ledger d with
  | nil => exact ⟨ledger, .nil, holds⟩
  | cons fill rest ih =>
      obtain rfl := ours fill List.mem_cons_self
      obtain ⟨delivery, first⟩ := deliver_fill_of_found lpFeeCap fresh.head holds.found
        holds.atKey isInput (whole fill List.mem_cons_self)
      obtain ⟨sameAmount, sameKey⟩ := Deposit.afterFill_keeps lpFeeCap d fill.toRecord
      have next : Holds (ledger.reached lpFeeCap fill d) fill.key
          (d.afterFill lpFeeCap fill.toRecord) :=
        ⟨by rw [reached, Table.find?_insert, if_pos rfl], sameKey.trans holds.atKey, holds.settled⟩
      obtain ⟨after, later, held⟩ := ih next (sameAmount ▸ isInput)
        (fun other member => ours other (List.mem_cons_of_mem _ member))
        (fun other member => whole other (List.mem_cons_of_mem _ member)) (fresh.tail rfl)
      exact ⟨after, .cons first later, held⟩

theorem inputAmount_arriving (lpFeeCap : Decimal) (ledger : Ledger) (event : DepositEvent) :
    (ledger.arriving lpFeeCap event).inputAmount = event.inputAmount :=
  (Deposit.afterFills_keeps lpFeeCap _ _).1

theorem holds_arrived (lpFeeCap : Decimal) (ledger : Ledger) (event : DepositEvent) :
    Holds (ledger.arrived lpFeeCap event) event.key (ledger.arriving lpFeeCap event) where
  found := by rw [arrived, Table.find?_insert, if_pos rfl]
  atKey := (Deposit.afterFills_keeps lpFeeCap _ _).2
  settled := by rw [arrived, Table.find?_erase, if_pos rfl]

/-- A deposit may as well come before its fills. -/
theorem delivers_moved {before later : List FillEvent}
    (awaits : Awaits ledger event (before ++ later))
    (delivers : Delivers lpFeeCap (ledger.arrived lpFeeCap event)
      ((before ++ later).map .fill) after) :
    Delivers lpFeeCap ledger (before.map .fill ++ .deposit event :: later.map .fill) after := by
  induction before generalizing ledger with
  | nil =>
      exact .cons (deliver_deposit_of_absent awaits.fresh.head awaits.absent awaits.isInput
        awaits.waiting) delivers
  | cons fill rest ih =>
      have ours := awaits.ours fill List.mem_cons_self
      have holds := holds_arrived lpFeeCap ledger event
      have isInput := awaits.isInput
      rw [← inputAmount_arriving lpFeeCap ledger event] at isInput
      -- The deposit is there, so the fill reaches it; by the swap it may wait for it as well.
      obtain ⟨delivery, reaches⟩ := deliver_fill_of_found lpFeeCap
        (awaits.fresh.tail rfl).head (ours ▸ holds.found) (ours ▸ holds.atKey) isInput
        (awaits.whole fill List.mem_cons_self)
      cases delivers with
      | cons first remaining =>
          rw [reaches, ← deliver_swap lpFeeCap awaits] at first
          obtain ⟨rfl, -⟩ := Prod.mk.inj first
          exact .cons (deliver_fill_of_absent awaits.unknown (ours ▸ awaits.absent))
            (ih awaits.parked remaining)

/-- **When a deposit comes among its fills does not matter.**  Wherever the record of a deposit
comes among the records of its fills, all of them are accepted and lead to the same ledger.  In it
the deposit is reconciled with the fills that waited for it and those that came, and no fill waits
for it any more. -/
theorem exists_reconciled_anywhere (lpFeeCap : Decimal) (awaits : Awaits ledger event fills) :
    ∃ after d,
      (∀ before later, before ++ later = fills → ∃ count, ledger.deliverAll lpFeeCap
        (before.map .fill ++ .deposit event :: later.map .fill) = (after, .ok count)) ∧
      after.deposits.find? event.key = some d ∧ d.inputAmount = event.inputAmount ∧
      d.Reconciled lpFeeCap (ledger.parkedFor event.key ++ fills.map (·.toRecord)) ∧
      after.parkedFills.find? event.key = none := by
  have isInput := awaits.isInput
  rw [← inputAmount_arriving lpFeeCap ledger event] at isInput
  obtain ⟨after, delivers, holds⟩ := delivers_fills lpFeeCap (holds_arrived lpFeeCap ledger event)
    isInput awaits.ours awaits.whole (awaits.fresh.tail rfl)
  rw [arriving, ← Deposit.afterFills_append] at holds
  refine ⟨after, _, ?_, holds.found, (Deposit.afterFills_keeps lpFeeCap _ _).1,
    Deposit.reconciled_afterFills rfl rfl rfl rfl rfl _, holds.settled⟩
  rintro before later rfl
  exact (delivers_moved awaits delivers).exists_count _

end BridgeRewards.Ledger

/-! ## A deposit with two fills

A fill of one half waits for a deposit; the rest is filled before or after the deposit arrives. -/

namespace BridgeRewards.Trial

/-- A deposit of a thousand. -/
def awaited : DepositEvent where
  eventMeta := ⟨.new 1 "0x" 2, 1, .epoch⟩
  originChainId := 1
  destinationChainId := 10
  depositId := 7
  depositor := .zero
  recipient := .zero
  inputToken := .zero
  inputAmount := "1000"
  outputToken := none
  outputAmount := none
  relayerFeePct := "0"
  referralAddress := none

/-- A fill of one half of the deposit. -/
def half : FillEvent where
  eventMeta := ⟨.new 1 "0x" 0, 1, .epoch⟩
  originChainId := 1
  depositId := 7
  relayer := .zero
  realizedLpFeePct := "0"
  relayerFeePct := "0"
  totalFilledAmount := "500"

/-- The fill of the rest. -/
def remainder : FillEvent :=
  { half with eventMeta := ⟨.new 1 "0x" 1, 1, .epoch⟩, totalFilledAmount := "1000" }

theorem awaits_remainder : (Ledger.empty.parked half).Awaits awaited [remainder] where
  absent := rfl
  isInput := by decide
  waiting record member := by
    have one : (Ledger.empty.parked half).parkedFor awaited.key = [half.toRecord] := rfl
    rw [one, List.mem_singleton] at member
    rw [member]
    decide
  ours fill member := by
    rw [List.mem_singleton.mp member]
    rfl
  whole fill member := by
    rw [List.mem_singleton.mp member]
    decide
  fresh := ⟨by decide, by decide⟩

end BridgeRewards.Trial

namespace BridgeRewards.Ledger

/-- Whether the deposit comes before the fill of the rest or after it, the ledger is the same. -/
theorem exists_reconciled_anywhere_trial : ∃ after d,
    (∀ before later, before ++ later = [Trial.remainder] → ∃ count,
      (Ledger.empty.parked Trial.half).deliverAll (.powerOfTen 18)
        (before.map .fill ++ .deposit Trial.awaited :: later.map .fill) = (after, .ok count)) ∧
    after.deposits.find? Trial.awaited.key = some d ∧ d.inputAmount = "1000" ∧
    d.Reconciled (.powerOfTen 18) [Trial.half.toRecord, Trial.remainder.toRecord] ∧
    after.parkedFills.find? Trial.awaited.key = none :=
  exists_reconciled_anywhere (.powerOfTen 18) Trial.awaits_remainder

end BridgeRewards.Ledger
