import BridgeRewards.Proofs.Run.Claims
import BridgeRewards.Proofs.Run.History

/-!
# Records that are delivered again

A record that has been accepted is known by its key, which holds the hash of the transaction as it
was spelt.  So a copy with the same spelling does nothing, and if keys were written as
`EventKey.new` writes them, no copy would do anything.  But a record that is read from a document
keeps the case of its letters, and a copy in which it differs is received like a new record
(`copy_counts_again`).  It still does nothing if something other than the key stands in its way:
the deposit or the claim that is there already, or a deposit that is filled
(`redelivered_of_run`).
-/

set_option autoImplicit false

namespace BridgeRewards

/-! ## Copies -/

/-- The same place and time, with the hash of the transaction spelt in another way. -/
def EventMeta.spelt (m : EventMeta) (hash : String) : EventMeta :=
  { m with key := { m.key with transactionHash := hash } }

namespace Event

variable {event copy : Event}

/-- The same record, with the hash of its transaction spelt in another way. -/
def spelt (hash : String) : Event → Event
  | deposit event => .deposit { event with eventMeta := event.eventMeta.spelt hash }
  | fill event => .fill { event with eventMeta := event.eventMeta.spelt hash }
  | speedUp event => .speedUp { event with eventMeta := event.eventMeta.spelt hash }
  | refund r => .refund { r with eventMeta := r.eventMeta.spelt hash }
  | claim event => .claim { event with eventMeta := event.eventMeta.spelt hash }
  | route r => .route { r with eventMeta := r.eventMeta.spelt hash }

/-- The record with the key that `EventKey.new` gives it. -/
def lowered (event : Event) : Event := event.spelt (Text.lowerAscii event.key.transactionHash)

/-- A copy of a record, in which letters of the hash may be in another case. -/
def IsCopyOf (copy event : Event) : Prop :=
  ∃ hash, Text.lowerAscii hash = Text.lowerAscii event.key.transactionHash ∧
    copy = event.spelt hash

theorem key_spelt (event : Event) (hash : String) :
    (event.spelt hash).key = { event.key with transactionHash := hash } := by
  cases event <;> rfl

theorem spelt_spelt (event : Event) (first second : String) :
    (event.spelt first).spelt second = event.spelt second := by
  cases event <;> rfl

theorem IsCopyOf.lowered (isCopy : copy.IsCopyOf event) : copy.lowered = event.lowered := by
  obtain ⟨hash, same, rfl⟩ := isCopy
  rw [Event.lowered, key_spelt, spelt_spelt, same, Event.lowered]

end Event

namespace Ledger

variable {ledger after : Ledger} {lpFeeCap : Decimal} {event copy : Event}

/-! ## What a record leaves for good -/

/-- What a record that was received has left, whatever became of it: its deposit and a referral
address of the depositor, or a claim at its place. -/
def Reflects (ledger : Ledger) : Event → Prop
  | .deposit event =>
    (∃ d, ledger.deposits.find? event.key = some d) ∧ ledger.Referred event
  | .claim event => ∃ claim, ledger.claims.find? event.toClaim.key = some claim
  | _ => True

theorem Reflects.grows (reflects : ledger.Reflects event) (grows : Grows ledger after) :
    after.Reflects event := by
  cases event with
  | deposit event =>
      obtain ⟨⟨d, found⟩, referred⟩ := reflects
      exact ⟨grows.deposits _ _ found, referred.grows grows⟩
  | claim event =>
      obtain ⟨claim, found⟩ := reflects
      exact ⟨claim, grows.claims _ _ found⟩
  | _ => trivial

/-- What a record has left would be left by a copy of it. -/
theorem Reflects.of_isCopyOf (reflects : ledger.Reflects event) (isCopy : copy.IsCopyOf event) :
    ledger.Reflects copy := by
  obtain ⟨hash, -, rfl⟩ := isCopy
  cases event <;> exact reflects

/-- A deposit that is accepted is there, and its depositor has the referral address that it came
with, or an earlier one. -/
theorem reflects_of_receiveDeposit {event : DepositEvent} {delivery : Delivery}
    (received : ledger.receiveDeposit lpFeeCap event = (after, .ok delivery)) :
    after.Reflects (.deposit event) := by
  have referred := ledger.referred_touched event
  cases settled : ledger.reconcile lpFeeCap event with
  | error e =>
      rw [receiveDeposit_of_error settled] at received
      cases received
  | ok d =>
      rw [receiveDeposit_of_ok settled] at received
      cases found : ledger.deposits.find? event.key with
      | some old =>
          rw [found, if_pos Option.isSome_some] at received
          cases received
          refine ⟨⟨old, ?_⟩, referred⟩
          change (ledger.touched event).deposits.find? event.key = some old
          rw [deposits_touched, found]
      | none =>
          rw [found, if_neg (by simp)] at received
          cases received
          refine ⟨⟨d, ?_⟩, referred⟩
          rw [← key_of_reconcile settled]
          exact Table.find?_insert_self _ _ _

theorem reflects_of_receive {delivery : Delivery}
    (received : ledger.receive lpFeeCap event = (after, .ok delivery)) : after.Reflects event := by
  cases event with
  | deposit event => exact reflects_of_receiveDeposit received
  | claim event =>
      change Delivery.ofInsert ledger (ledger.insertClaim event.toClaim) = _ at received
      cases held : ledger.claims.find? event.toClaim.key with
      | none =>
          rw [insertClaim_eq_some.mpr ⟨held, rfl⟩] at received
          cases received
          exact ⟨event.toClaim, Table.find?_insert_self _ _ _⟩
      | some old =>
          have grown := ledger.grows_receive lpFeeCap (.claim event)
          rw [show ledger.receive lpFeeCap (.claim event) = (after, .ok delivery) from received]
            at grown
          exact ⟨old, grown.claims _ _ held⟩
  | _ => trivial

/-! ## Records that do nothing -/

/-- Something other than its key stands in the way of a record that is received once more: the
deposit or the claim that it has left, or a deposit that is filled, and for an offer of another fee
also that there is no deposit.  There is no such thing for a refund or a route. -/
def Absorbs (ledger : Ledger) : Event → Prop
  | .deposit _ => True
  | .fill event => ∃ d, ledger.deposits.find? event.key = some d ∧ d.isFilled = true
  | .speedUp event => ∀ d, ledger.deposits.find? event.key = some d → d.isFilled = true
  | .refund _ => False
  | .claim _ => True
  | .route _ => False

theorem fst_receiveFill_of_filled {event : FillEvent} {d : Deposit}
    (found : ledger.deposits.find? event.key = some d) (filled : d.isFilled = true) :
    (ledger.receiveFill lpFeeCap event).1 = ledger := by
  have passed : d.fill event.toRecord lpFeeCap = .ok (.alreadyFilled, d) :=
    Deposit.fill_eq_ok.mpr (.inl ⟨filled, rfl, rfl⟩)
  unfold receiveFill
  rw [found]
  dsimp only
  rw [passed]

theorem fst_receiveSpeedUp_of_filled {event : SpeedUpEvent}
    (filled : ∀ d, ledger.deposits.find? event.key = some d → d.isFilled = true) :
    (ledger.receiveSpeedUp event).1 = ledger := by
  unfold receiveSpeedUp
  split
  · rfl
  · next d found =>
      split
      · rfl
      · rfl
      · next faster =>
          have pending := (Deposit.speedUp_eq_some faster).1
          rw [filled d found] at pending
          cases pending

/-- A record that has left what it can leave does nothing if something stands in its way. -/
theorem fst_receive_of_absorbs (caughtUp : CaughtUp ledger) (reflects : ledger.Reflects event)
    (absorbs : ledger.Absorbs event) : (ledger.receive lpFeeCap event).1 = ledger := by
  cases event with
  | deposit event =>
      obtain ⟨⟨d, found⟩, referred⟩ := reflects
      change (ledger.receiveDeposit lpFeeCap event).1 = ledger
      rw [caughtUp.receiveDeposit_of_found found, referred.touched]
  | fill event =>
      obtain ⟨d, found, filled⟩ := absorbs
      exact fst_receiveFill_of_filled found filled
  | speedUp event => exact fst_receiveSpeedUp_of_filled absorbs
  | refund refund => exact absorbs.elim
  | claim event =>
      obtain ⟨claim, held⟩ := reflects
      change (Delivery.ofInsert ledger (ledger.insertClaim event.toClaim)).1 = ledger
      rw [insertClaim_of_held held]
      rfl
  | route route => exact absorbs.elim

theorem exists_deliver_eq_of_absorbs (caughtUp : CaughtUp ledger)
    (reflects : ledger.Reflects event) (absorbs : ledger.Absorbs event) :
    ∃ events, (ledger.deliver lpFeeCap event).1 = { ledger with events } := by
  have received : (ledger.receive lpFeeCap event).1 = ledger :=
    fst_receive_of_absorbs caughtUp reflects absorbs
  rcases ledger.fst_deliver lpFeeCap event with same | left | noted
  · exact ⟨ledger.events, same⟩
  · exact ⟨ledger.events, left.trans received⟩
  · exact ⟨ledger.events.insert event.key (), noted.trans (by rw [received]; rfl)⟩

/-! ## Runs -/

/-- What a record has left that was new and accepted is there after every longer run. -/
theorem reflects_of_run (before more : List Operation) {delivery : Delivery}
    (unknown : (Ledger.empty.run before).hasEvent event.key = false)
    (accepted : ((Ledger.empty.run before).deliver lpFeeCap event).2 = .ok delivery) :
    (Ledger.empty.run (before ++ .deliver lpFeeCap event :: more)).Reflects event := by
  refine Reflects.grows ?_ (grows_of_delivered before more lpFeeCap event)
  rcases received : (Ledger.empty.run before).receive lpFeeCap event with ⟨left, outcome⟩
  cases outcome with
  | error e =>
      rw [deliver_of_refused unknown received] at accepted
      cases accepted
  | ok other =>
      rw [deliver_of_receive unknown received]
      exact (reflects_of_receive received).grows (grows_recordEvent left event.key)

theorem hasEvent_of_run (before more : List Operation) {delivery : Delivery}
    (accepted : ((Ledger.empty.run before).deliver lpFeeCap event).2 = .ok delivery) :
    (Ledger.empty.run (before ++ .deliver lpFeeCap event :: more)).hasEvent event.key = true :=
  (grows_of_delivered before more lpFeeCap event).hasEvent
    (known_of_deliver (Prod.ext rfl accepted))

/-- **Copies of a record that was accepted**, whatever was done in between.  A copy with the key of
the record changes nothing, and if the key of the record is in lower case, as `EventKey.new` writes
it, then no copy changes anything whose key is written so too.  A copy with another key still
leaves nothing but its key if the record was new when it was accepted, and if something other than
the key stands in the way of the copy. -/
theorem redelivered_of_run (before more : List Operation) (lpFeeCap again : Decimal)
    {event copy : Event} {delivery : Delivery}
    (accepted : ((Ledger.empty.run before).deliver lpFeeCap event).2 = .ok delivery)
    (isCopy : copy.IsCopyOf event) :
    let ledger := Ledger.empty.run (before ++ .deliver lpFeeCap event :: more)
    (copy.key = event.key → ledger.deliver again copy = (ledger, .ok .duplicate)) ∧
    (event.lowered = event → ledger.deliver again copy.lowered = (ledger, .ok .duplicate)) ∧
    ((Ledger.empty.run before).hasEvent event.key = false → ledger.Absorbs copy →
      ∃ events, (ledger.deliver again copy).1 = { ledger with events }) := by
  intro ledger
  have known : ledger.hasEvent event.key = true := hasEvent_of_run before more accepted
  refine ⟨fun sameKey => ?_, fun isLowered => ?_, fun unknown absorbs => ?_⟩
  · exact deliver_of_known (sameKey ▸ known)
  · rw [isCopy.lowered, isLowered]
    exact deliver_of_known known
  · have reflects : ledger.Reflects event := reflects_of_run before more unknown accepted
    exact exists_deliver_eq_of_absorbs (caughtUp_run _) (reflects.of_isCopyOf isCopy) absorbs

end Ledger

/-! ## A refund and its copy

Two documents that differ in the case of one letter record the same refund.  A claim and its copy
differ in the same way. -/

namespace Trial

/-- The hash in another case. -/
def upperHash : String := "0X"

/-- A copy of the claim. -/
def claimCopy : Event := (Event.claim claim).spelt upperHash

/-- The document that records a refund, with some hash of its transaction. -/
def refundDocument (hash : String) : Json :=
  .object [("type", .string "refund"),
    ("meta", .object [("chainId", .nat 1), ("transactionHash", .string hash), ("logIndex", .nat 0),
      ("blockNumber", .nat 1), ("timestamp", .string Instant.epoch.text)]),
    ("rootBundleId", .nat 1), ("leafId", .nat 2), ("l2Token", .string Address.zero.text),
    ("relayer", .string Address.zero.text), ("amount", .string "5")]

/-- The refund. -/
def refund : Refund where
  eventMeta := ⟨⟨1, "0xab", 0⟩, 1, .epoch⟩
  rootBundleId := 1
  leafId := 2
  l2Token := .zero
  relayer := .zero
  amount := "5"

/-- A copy of the refund. -/
def refundCopy : Event := (Event.refund refund).spelt "0xAB"

theorem ofJson?_refundDocument :
    Event.ofJson? (refundDocument "0xab") = some (.refund refund) ∧
      Event.ofJson? (refundDocument "0xAB") = some refundCopy := by
  decide +kernel

end Trial

namespace Ledger

/-- The claim of the trial is in lower case, and a copy of it leaves nothing but its key. -/
theorem redelivered_of_run_trial :
    ((Ledger.empty.run []).deliver (.powerOfTen 18) (.claim Trial.claim)).2 = .ok .applied ∧
    Trial.claimCopy.IsCopyOf (.claim Trial.claim) ∧
    let ledger :=
      Ledger.empty.run (.deliver (.powerOfTen 18) (.claim Trial.claim) :: Trial.referring)
    ledger.deliver (.powerOfTen 18) Trial.claimCopy.lowered = (ledger, .ok .duplicate) ∧
      ∃ events,
        (ledger.deliver (.powerOfTen 18) Trial.claimCopy).1 = { ledger with events } := by
  have accepted : ((Ledger.empty.run []).deliver (.powerOfTen 18) (.claim Trial.claim)).2 =
      .ok .applied := by decide +kernel
  have isCopy : Trial.claimCopy.IsCopyOf (.claim Trial.claim) :=
    ⟨Trial.upperHash, by decide +kernel, rfl⟩
  obtain ⟨-, lowered, absorbed⟩ :=
    redelivered_of_run [] Trial.referring _ (.powerOfTen 18) accepted isCopy
  exact ⟨accepted, isCopy, lowered (by decide +kernel), absorbed (by decide +kernel) trivial⟩

/-- A copy of an accepted record, both read from documents, does not always leave what records tell
of as it was: the refund of the trial is counted twice. -/
theorem copy_counts_again :
    ¬ ∀ (before more : List Operation) (lpFeeCap again : Decimal) (event copy : Event)
        (delivery : Delivery),
      (∀ record ∈ Operation.records (before ++ .deliver lpFeeCap event :: more) ++ [copy],
        ∃ document, Event.ofJson? document = some record) →
      ((Ledger.empty.run before).deliver lpFeeCap event).2 = .ok delivery →
      copy.IsCopyOf event →
      let ledger := Ledger.empty.run (before ++ .deliver lpFeeCap event :: more)
      ∃ events, (ledger.deliver again copy).1 = { ledger with events } := by
  intro unchanged
  have documented : ∀ record ∈ [.refund Trial.refund, Trial.refundCopy],
      ∃ document, Event.ofJson? document = some record := by
    intro record member
    simp only [List.mem_cons, List.not_mem_nil, or_false] at member
    rcases member with rfl | rfl
    · exact ⟨_, Trial.ofJson?_refundDocument.1⟩
    · exact ⟨_, Trial.ofJson?_refundDocument.2⟩
  obtain ⟨events, same⟩ := unchanged [] [] (.powerOfTen 18) (.powerOfTen 18) (.refund Trial.refund)
    Trial.refundCopy .applied documented (by decide +kernel) ⟨"0xAB", by decide +kernel, rfl⟩
  have once : ((Ledger.empty.run
      [.deliver (.powerOfTen 18) (.refund Trial.refund)]).refundsFor .zero).length = 1 := by
    decide +kernel
  have twice : (((Ledger.empty.run [.deliver (.powerOfTen 18) (.refund Trial.refund)]).deliver
      (.powerOfTen 18) Trial.refundCopy).1.refundsFor .zero).length = 2 := by
    decide +kernel
  have counted := congrArg (fun ledger => (ledger.refundsFor .zero).length) same
  cases twice.symm.trans (counted.trans once)

end Ledger

end BridgeRewards
