import BridgeRewards.Proofs.Run.Claims
import BridgeRewards.Proofs.Run.History

/-!
# Whose claim a place holds

A claim carries the index of its window and that of its account in it, and the place that these two
make up holds one claim: the first that is delivered (`find?_claims_run`).  So a claim that is
delivered leaves its place held for good, by itself if it is applied, and by the claim that came
first if it is a duplicate (`claims_kept_of_run`).  Claims of two accounts can meet at one place, as
the place does not name the account; the later one is then lost (`later_claimant_is_lost`).
-/

set_option autoImplicit false

namespace BridgeRewards

/-- The place of the claim that a record tells of: the window and the index of the account. -/
def ClaimEvent.place (event : ClaimEvent) : Nat × Nat := (event.windowIndex, event.accountIndex)

namespace Event

/-- The claim for a place that a record tells of, if it tells of one. -/
def claimAt? (place : Nat × Nat) : Event → Option ClaimEvent
  | claim event => if event.place = place then some event else none
  | _ => none

/-- The first claim for a place among some records. -/
def firstClaim? (place : Nat × Nat) (events : List Event) : Option ClaimEvent :=
  events.findSome? (claimAt? place)

theorem claimAt?_eq_some {place : Nat × Nat} {event : Event} {claimed : ClaimEvent} :
    event.claimAt? place = some claimed ↔ event = .claim claimed ∧ claimed.place = place := by
  cases event with
  | claim other =>
      rw [claimAt?]
      split
      · next here =>
          refine ⟨fun same => ?_, fun ⟨same, _⟩ => congrArg some (Event.claim.inj same)⟩
          obtain rfl := Option.some.inj same
          exact ⟨rfl, here⟩
      · next elsewhere =>
          refine ⟨fun none => (by cases none), fun ⟨same, here⟩ => ?_⟩
          obtain rfl := Event.claim.inj same
          exact absurd here elsewhere
  | _ => exact ⟨fun none => (by cases none), fun ⟨same, _⟩ => (by cases same)⟩

theorem mem_of_firstClaim? {place : Nat × Nat} {events : List Event} {first : ClaimEvent}
    (isFirst : firstClaim? place events = some first) :
    .claim first ∈ events ∧ first.place = place := by
  obtain ⟨event, member, isClaim⟩ := List.exists_of_findSome?_eq_some isFirst
  obtain ⟨rfl, here⟩ := claimAt?_eq_some.mp isClaim
  exact ⟨member, here⟩

theorem exists_firstClaim?_of_mem {place : Nat × Nat} {events : List Event} {event : Event}
    {claimed : ClaimEvent} (member : event ∈ events)
    (isClaim : event.claimAt? place = some claimed) :
    ∃ first, firstClaim? place events = some first := by
  refine Option.isSome_iff_exists.mp (List.findSome?_isSome_iff.mpr ⟨event, member, ?_⟩)
  rw [isClaim, Option.isSome_some]

/-- A further record counts only if there was no claim for the place before. -/
theorem firstClaim?_concat (place : Nat × Nat) (events : List Event) (event : Event) :
    firstClaim? place (events ++ [event]) =
      (firstClaim? place events).or (event.claimAt? place) := by
  unfold firstClaim?
  rw [List.findSome?_append, List.findSome?_singleton]

/-- With a claim for its place among the records there is a first one, which is that claim if there
was none before. -/
theorem exists_firstClaim?_concat (events : List Event) (event : ClaimEvent) :
    ∃ first, firstClaim? event.place (events ++ [.claim event]) = some first ∧
      (firstClaim? event.place events = none → first = event) := by
  have here : (Event.claim event).claimAt? event.place = some event :=
    claimAt?_eq_some.mpr ⟨rfl, rfl⟩
  rw [firstClaim?_concat, here]
  cases firstClaim? event.place events with
  | none => exact ⟨event, rfl, fun _ => rfl⟩
  | some first => exact ⟨first, rfl, fun none => by cases none⟩

end Event

namespace Ledger

variable {ledger : Ledger} {lpFeeCap : Decimal}

/-! ## One delivery -/

theorem claims_receive_of_other {event : Event} (other : ∀ claimed, event ≠ .claim claimed) :
    (ledger.receive lpFeeCap event).1.claims = ledger.claims := by
  have touched : ∀ event, (ledger.touched event).claims = ledger.claims :=
    fun event => congrArg (·.claims) (touched_eq ledger event)
  have received := ledger.receives lpFeeCap event
  generalize ledger.receive lpFeeCap event = result at received ⊢
  cases received with
  | refused refused => exact touched _
  | duplicate settled found => exact touched _
  | inserted settled absent => exact touched _
  | claim free => exact absurd rfl (other _)
  | _ => rfl

theorem find?_claims_receive (lpFeeCap : Decimal) (event : Event) (place : Nat × Nat) :
    (ledger.receive lpFeeCap event).1.claims.find? place =
      (ledger.claims.find? place).or ((event.claimAt? place).map ClaimEvent.toClaim) := by
  cases event with
  | claim event =>
      change (Delivery.ofInsert ledger (ledger.insertClaim event.toClaim)).1.claims.find? place = _
      rw [Event.claimAt?]
      cases held : ledger.claims.find? event.place with
      | some old =>
          rw [insertClaim_of_held held]
          change ledger.claims.find? place = _
          split
          · next here => rw [← here, held, Option.some_or]
          · rw [Option.map_none, Option.or_none]
      | none =>
          rw [insertClaim_eq_some.mpr ⟨held, rfl⟩]
          change (ledger.claims.insert event.place event.toClaim).find? place = _
          rw [Table.find?_insert]
          by_cases here : place = event.place
          · rw [if_pos here, if_pos here.symm, here, held, Option.none_or, Option.map_some]
          · rw [if_neg here, if_neg (Ne.symm here), Option.map_none, Option.or_none]
  | _ =>
      rw [claims_receive_of_other fun claimed => Event.noConfusion]
      exact (Option.or_none ..).symm

theorem ClaimsPlaced.deliver (placed : ledger.ClaimsPlaced) (lpFeeCap : Decimal) (event : Event) :
    ClaimsPlaced (ledger.deliver lpFeeCap event).1 := by
  have received : ClaimsPlaced (ledger.receive lpFeeCap event).1 := by
    intro place claim found
    rw [find?_claims_receive, Option.or_eq_some_iff, Option.map_eq_some_iff] at found
    rcases found with before | ⟨-, claimed, isClaim, rfl⟩
    · exact placed place claim before
    · exact (Event.claimAt?_eq_some.mp isClaim).2
  rcases ledger.fst_deliver lpFeeCap event with same | left | noted
  · rw [same]
    exact placed
  · rw [left]
    exact received
  · rw [noted]
    exact received

/-- A record that is delivered adds its claim where there is none, provided that it is not known
without its claim. -/
theorem find?_claims_deliver (event : Event) (place : Nat × Nat)
    (counted : ledger.hasEvent event.key = true → ∀ claimed, event.claimAt? place = some claimed →
      ∃ held, ledger.claims.find? place = some held) :
    (ledger.deliver lpFeeCap event).1.claims.find? place =
      (ledger.claims.find? place).or ((event.claimAt? place).map ClaimEvent.toClaim) := by
  cases known : ledger.hasEvent event.key with
  | true =>
      rw [deliver_of_known known]
      cases isClaim : event.claimAt? place with
      | none => rw [Option.map_none, Option.or_none]
      | some claimed =>
          obtain ⟨held, isHeld⟩ := counted known claimed isClaim
          rw [isHeld, Option.some_or]
  | false =>
      rw [← find?_claims_receive lpFeeCap]
      rcases received : ledger.receive lpFeeCap event with ⟨after, outcome⟩
      cases outcome with
      | error e => rw [deliver_of_refused known received]
      | ok delivery =>
          rw [deliver_of_receive known received]
          rfl

/-- A claim is applied, which it can be only if its place is free, or it is a duplicate. -/
theorem outcome_of_claim (ledger : Ledger) (lpFeeCap : Decimal) (event : ClaimEvent) :
    (ledger.deliver lpFeeCap (.claim event)).2 = .ok .applied ∧
        ledger.claims.find? event.place = none ∨
      (ledger.deliver lpFeeCap (.claim event)).2 = .ok .duplicate := by
  cases known : ledger.hasEvent (Event.claim event).key with
  | true =>
      rw [deliver_of_known known]
      exact .inr rfl
  | false =>
      have received : ledger.receive lpFeeCap (.claim event) =
          Delivery.ofInsert ledger (ledger.insertClaim event.toClaim) := rfl
      cases inserted : ledger.insertClaim event.toClaim with
      | some after =>
          rw [inserted] at received
          rw [deliver_of_receive known received]
          exact .inl ⟨rfl, (insertClaim_eq_some.mp inserted).1⟩
      | none =>
          rw [inserted] at received
          rw [deliver_of_receive known received]
          exact .inr rfl

/-! ## Runs -/

theorem claimsPlaced_run (operations : List Operation) :
    ClaimsPlaced (Ledger.empty.run operations) := by
  induction operations using List.reverseRecOn with
  | nil => exact fun place claim found => by cases found
  | append_singleton earlier operation ih =>
      rw [run_append]
      rcases delivers_or_follows (consistent_run earlier).keyed operation with
        ⟨lpFeeCap, event, rfl⟩ | ⟨-, follows⟩
      · exact ih.deliver lpFeeCap event
      · change ClaimsPlaced ((Ledger.empty.run earlier).after operation)
        rw [ClaimsPlaced, follows.claims_eq]
        exact ih

/-- **A place holds the first claim that was delivered for it**, if records with one key are one
record. -/
theorem find?_claims_run {operations : List Operation}
    (oneRecord : OneRecordPerKey (Operation.records operations)) (place : Nat × Nat) :
    (Ledger.empty.run operations).claims.find? place =
      (Event.firstClaim? place (Operation.records operations)).map ClaimEvent.toClaim := by
  induction operations using List.reverseRecOn with
  | nil => rfl
  | append_singleton earlier operation ih =>
      rw [Operation.records_append] at oneRecord ⊢
      have before := ih oneRecord.of_append
      rw [run_append]
      rcases delivers_or_follows (consistent_run earlier).keyed operation with
        ⟨lpFeeCap, event, rfl⟩ | ⟨other, follows⟩
      · rw [Operation.records_of_delivery] at oneRecord ⊢
        rw [Event.firstClaim?_concat, Option.map_or, ← before]
        refine find?_claims_deliver event place fun known claimed isClaim => ?_
        obtain ⟨same, member, sameKey⟩ := exists_record_of_hasEvent earlier known
        obtain rfl : same = event := oneRecord same (List.mem_append_left _ member) event
          (List.mem_append_right _ List.mem_cons_self) sameKey
        obtain ⟨first, isFirst⟩ := Event.exists_firstClaim?_of_mem member isClaim
        exact ⟨first.toClaim, by rw [before, isFirst, Option.map_some]⟩
      · rw [Operation.records_of_other other, List.append_nil, ← before, ← follows.claims_eq]
        rfl

theorem claimKnown_run {operations : List Operation}
    (oneRecord : OneRecordPerKey (Operation.records operations)) {place : Nat × Nat}
    {first : ClaimEvent}
    (isFirst : Event.firstClaim? place (Operation.records operations) = some first)
    (more : List Operation) :
    (Ledger.empty.run (operations ++ more)).claims.find? place = some first.toClaim ∧
      (Ledger.empty.run (operations ++ more)).ClaimKnown first.account place.1 := by
  have held : (Ledger.empty.run (operations ++ more)).claims.find? place =
      some first.toClaim := by
    refine (grows_run_append operations more).claims _ _ ?_
    rw [find?_claims_run oneRecord, isFirst, Option.map_some]
  have atPlace := (Event.mem_of_firstClaim? isFirst).2
  have claimed := hasClaimed_iff.mpr
    ⟨place, first.toClaim, held, rfl, congrArg Prod.fst atPlace⟩
  exact ⟨held, (claimsPlaced_run _).claimKnown claimed⟩

/-- **Claims that are delivered are kept.**  If records with one key are one record, a claim is
applied or a duplicate, and from then on its place holds the first claim that was delivered for
it, whatever follows; and the answer to all that is asked is that the account of that claim has
claimed from the window.  It is the claim in question itself if this was applied, and one of the
same account if no claim for the place names another. -/
theorem claims_kept_of_run (before more : List Operation) (lpFeeCap : Decimal) (event : ClaimEvent)
    (oneRecord : OneRecordPerKey
      (Operation.records (before ++ [.deliver lpFeeCap (.claim event)]))) :
    let delivered := Operation.records (before ++ [.deliver lpFeeCap (.claim event)])
    let outcome := ((Ledger.empty.run before).deliver lpFeeCap (.claim event)).2
    let ledger := Ledger.empty.run (before ++ .deliver lpFeeCap (.claim event) :: more)
    (outcome = .ok .applied ∨ outcome = .ok .duplicate) ∧
      ∃ first, Event.firstClaim? event.place delivered = some first ∧
        ledger.claim? event.windowIndex event.accountIndex = some first.toClaim ∧
        ledger.ClaimKnown first.account event.windowIndex ∧
        (outcome = .ok .applied → first = event) ∧
        ((∀ other, .claim other ∈ delivered → other.place = event.place →
          other.account = event.account) → first.account = event.account) := by
  intro delivered outcome ledger
  obtain ⟨first, isFirst, unlessBefore⟩ :=
    Event.exists_firstClaim?_concat (Operation.records before) event
  rw [← Operation.records_of_delivery lpFeeCap, ← Operation.records_append] at isFirst
  obtain ⟨held, known⟩ := claimKnown_run oneRecord isFirst more
  rw [← List.append_cons] at held known
  obtain ⟨member, atPlace⟩ := Event.mem_of_firstClaim? isFirst
  rw [Operation.records_append] at oneRecord
  have heldBefore := find?_claims_run oneRecord.of_append event.place
  rcases outcome_of_claim (Ledger.empty.run _) lpFeeCap event with ⟨applied, free⟩ | duplicate
  · rw [free, eq_comm, Option.map_eq_none_iff] at heldBefore
    exact ⟨.inl applied, first, isFirst, held, known, fun _ => unlessBefore heldBefore,
      fun agree => agree first member atPlace⟩
  · refine ⟨.inr duplicate, first, isFirst, held, known, fun applied => ?_,
      fun agree => agree first member atPlace⟩
    cases duplicate.symm.trans applied

end Ledger

/-! ## Two claims for one place -/

namespace Trial

/-- Another account than that of the claim. -/
def rival : Address := ⟨1, Nat.one_lt_two_pow (Nat.succ_ne_zero 159)⟩

/-- A claim of the other account for the same place. -/
def rivalClaim : ClaimEvent := { claim with eventMeta := writtenAt 3, account := rival }

end Trial

namespace Ledger

/-- The claim that came first is kept when the other one is delivered. -/
theorem claims_kept_of_run_trial :
    OneRecordPerKey (Operation.records (Trial.claiming ++
      [.deliver (.powerOfTen 18) (.claim Trial.rivalClaim)])) ∧
    ∃ first, Event.firstClaim? Trial.rivalClaim.place (Operation.records (Trial.claiming ++
        [.deliver (.powerOfTen 18) (.claim Trial.rivalClaim)])) = some first ∧
      (Ledger.empty.run (Trial.claiming ++ .deliver (.powerOfTen 18) (.claim Trial.rivalClaim) ::
        Trial.referring)).ClaimKnown first.account Trial.rivalClaim.windowIndex := by
  have oneRecord : OneRecordPerKey (Operation.records (Trial.claiming ++
      [.deliver (.powerOfTen 18) (.claim Trial.rivalClaim)])) := by decide +kernel
  obtain ⟨-, first, isFirst, -, known, -⟩ := claims_kept_of_run _ Trial.referring _ _ oneRecord
  exact ⟨oneRecord, first, isFirst, known⟩

/-- It is not always known that the account of a claim has claimed from the window once the claim
has been accepted: the claim can be a duplicate of another account's. -/
theorem later_claimant_is_lost :
    ¬ ∀ (before more : List Operation) (lpFeeCap : Decimal) (event : ClaimEvent),
      OneRecordPerKey
        (Operation.records (before ++ .deliver lpFeeCap (.claim event) :: more)) →
      ((Ledger.empty.run before).deliver lpFeeCap (.claim event)).2 = .ok .applied ∨
        ((Ledger.empty.run before).deliver lpFeeCap (.claim event)).2 = .ok .duplicate →
      (Ledger.empty.run (before ++ .deliver lpFeeCap (.claim event) :: more)).ClaimKnown
        event.account event.windowIndex := by
  intro kept
  have known := kept Trial.claiming [] (.powerOfTen 18) Trial.rivalClaim (by decide +kernel)
    (.inr (by decide +kernel))
  have lost : (Ledger.empty.run (Trial.claiming ++
      [.deliver (.powerOfTen 18) (.claim Trial.rivalClaim)])).hasClaimed
        Trial.rivalClaim.account Trial.rivalClaim.windowIndex = false := by decide +kernel
  exact absurd known.hasClaimed (Bool.eq_false_iff.mp lost)

end Ledger

end BridgeRewards
