import BridgeRewards.Proofs.Ledger.Growth
import BridgeRewards.Proofs.Run.Frame

/-!
# The records of a run

A run delivers records, with other operations between them.  Neither kind of operation takes away
what records have left (`grows_run`), and what a ledger knows of keys it knows from the records
that were delivered to it (`exists_record_of_hasEvent`).
-/

set_option autoImplicit false

namespace BridgeRewards

namespace Operation

/-- The record that an operation delivers, if it delivers one. -/
def record? : Operation → Option Event
  | deliver _ event => some event
  | _ => none

/-- The records that some operations deliver, in order. -/
def records (operations : List Operation) : List Event := operations.filterMap record?

theorem records_append (earlier later : List Operation) :
    records (earlier ++ later) = records earlier ++ records later :=
  List.filterMap_append

theorem records_of_delivery (lpFeeCap : Decimal) (event : Event) :
    records [.deliver lpFeeCap event] = [event] := rfl

theorem records_of_other {operation : Operation} (other : operation.isDelivery = false) :
    records [operation] = [] := by
  cases operation with
  | deliver lpFeeCap event => cases other
  | _ => rfl

end Operation

/-- Among some records those with one key are one record. -/
def OneRecordPerKey (events : List Event) : Prop :=
  ∀ a ∈ events, ∀ b ∈ events, a.key = b.key → a = b

instance (events : List Event) : Decidable (OneRecordPerKey events) :=
  inferInstanceAs (Decidable (∀ a ∈ events, ∀ b ∈ events, a.key = b.key → a = b))

theorem OneRecordPerKey.of_append {earlier later : List Event}
    (oneRecord : OneRecordPerKey (earlier ++ later)) : OneRecordPerKey earlier :=
  fun a isA b isB => oneRecord a (List.mem_append_left _ isA) b (List.mem_append_left _ isB)

namespace Ledger

variable {ledger after : Ledger}

theorem Follows.events_eq (follows : Follows ledger after) : after.events = ledger.events := by
  obtain ⟨f, tokens, prices, windows, recipients, jobs, rfl⟩ := follows
  rfl

theorem Follows.claims_eq (follows : Follows ledger after) : after.claims = ledger.claims := by
  obtain ⟨f, tokens, prices, windows, recipients, jobs, rfl⟩ := follows
  rfl

/-! ## What is left for good -/

theorem Follows.grows (follows : Follows ledger after) : Grows ledger after := by
  obtain ⟨f, tokens, prices, windows, recipients, jobs, rfl⟩ := follows
  refine ⟨.refl _, .refl _, .refl _, fun key d found => ⟨f d, ?_⟩⟩
  rw [Table.find?_mapValues, found, Option.map_some]

theorem grows_after (keyed : ledger.Keyed) (operation : Operation) :
    Grows ledger (ledger.after operation) := by
  rcases delivers_or_follows keyed operation with ⟨lpFeeCap, event, rfl⟩ | ⟨-, follows⟩
  · exact grows_deliver ledger lpFeeCap event
  · exact follows.grows

/-- **No run takes away what records have left.** -/
theorem grows_run (consistent : Consistent ledger) (operations : List Operation) :
    Grows ledger (ledger.run operations) := by
  induction operations generalizing ledger with
  | nil => exact .refl ledger
  | cons operation rest ih =>
      exact (grows_after consistent.keyed operation).trans (ih (consistent.step operation))

theorem grows_run_append (operations more : List Operation) :
    Grows (Ledger.empty.run operations) (Ledger.empty.run (operations ++ more)) := by
  rw [run_append]
  exact grows_run (consistent_run operations) more

theorem grows_of_delivered (before more : List Operation) (lpFeeCap : Decimal) (event : Event) :
    Grows ((Ledger.empty.run before).deliver lpFeeCap event).1
      (Ledger.empty.run (before ++ .deliver lpFeeCap event :: more)) := by
  have grown := grows_run_append (before ++ [.deliver lpFeeCap event]) more
  rwa [← List.append_cons, run_append] at grown

/-! ## What is known -/

theorem events_receive (ledger : Ledger) (lpFeeCap : Decimal) (event : Event) :
    (ledger.receive lpFeeCap event).1.events = ledger.events := by
  obtain ⟨deposits, parkedFills, stickyReferrals, routes, refunds, claims, -, received⟩ :=
    ledger.exists_receive_eq lpFeeCap event
  rw [received]

theorem hasEvent_of_deliver {lpFeeCap : Decimal} {event : Event} {key : EventKey}
    (known : (ledger.deliver lpFeeCap event).1.hasEvent key = true) :
    ledger.hasEvent key = true ∨ key = event.key := by
  have received := ledger.events_receive lpFeeCap event
  rcases ledger.fst_deliver lpFeeCap event with same | left | noted
  · rw [same] at known
    exact .inl known
  · rw [left, hasEvent, received] at known
    exact .inl known
  · rw [noted] at known
    change ((Table.insert _ event.key ()).find? key).isSome = true at known
    rw [Table.find?_insert, received] at known
    split at known
    · next isKey => exact .inr isKey
    · exact .inl known

/-- **A key that is known is that of a record that was delivered.** -/
theorem exists_record_of_hasEvent (operations : List Operation) {key : EventKey}
    (known : (Ledger.empty.run operations).hasEvent key = true) :
    ∃ event ∈ Operation.records operations, event.key = key := by
  induction operations using List.reverseRecOn with
  | nil => cases known
  | append_singleton earlier operation ih =>
      rw [run_append] at known
      change ((Ledger.empty.run earlier).after operation).hasEvent key = true at known
      rw [Operation.records_append]
      have of_before : (Ledger.empty.run earlier).hasEvent key = true →
          ∃ event ∈ Operation.records earlier ++ Operation.records [operation],
            event.key = key := by
        intro before
        obtain ⟨event, member, isKey⟩ := ih before
        exact ⟨event, List.mem_append_left _ member, isKey⟩
      rcases delivers_or_follows (consistent_run earlier).keyed operation with
        ⟨lpFeeCap, event, rfl⟩ | ⟨-, follows⟩
      · rcases hasEvent_of_deliver known with before | isKey
        · exact of_before before
        · exact ⟨event, List.mem_append_right _ List.mem_cons_self, isKey.symm⟩
      · rw [hasEvent, follows.events_eq] at known
        exact of_before known

end Ledger

end BridgeRewards
