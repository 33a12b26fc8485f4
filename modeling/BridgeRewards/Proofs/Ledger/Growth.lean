import BridgeRewards.Proofs.Ledger.Delivery

/-!
# What records leave for good

A delivery takes nothing away that an earlier one has left: noted records, the referral address
that a depositor first came with and the claim at a place stay as they are, and where there is a
deposit there will be one (`Grows`).  So a record that has been accepted is known ever after
(`known_of_deliver`), and a depositor who has come with a referral address has one ever after
(`Referred`).
-/

set_option autoImplicit false

namespace BridgeRewards.Ledger

variable {ledger after : Ledger} {lpFeeCap : Decimal} {event : Event} {delivery : Delivery}

/-- A ledger has what records have left in another, and may have more. -/
structure Grows (before after : Ledger) : Prop where
  events : after.events.Extends before.events
  stickyReferrals : after.stickyReferrals.Extends before.stickyReferrals
  claims : after.claims.Extends before.claims
  deposits : ∀ key d, before.deposits.find? key = some d →
    ∃ later, after.deposits.find? key = some later

theorem Grows.refl (ledger : Ledger) : Grows ledger ledger :=
  ⟨.refl _, .refl _, .refl _, fun _ d found => ⟨d, found⟩⟩

theorem Grows.trans {first second third : Ledger} (earlier : Grows first second)
    (later : Grows second third) : Grows first third where
  events := earlier.events.trans later.events
  stickyReferrals := earlier.stickyReferrals.trans later.stickyReferrals
  claims := earlier.claims.trans later.claims
  deposits key d found := by
    obtain ⟨between, found⟩ := earlier.deposits key d found
    exact later.deposits key between found

theorem Grows.hasEvent (grows : Grows ledger after) {key : EventKey}
    (known : ledger.hasEvent key = true) : after.hasEvent key = true := by
  obtain ⟨value, found⟩ := Option.isSome_iff_exists.mp known
  exact Option.isSome_iff_exists.mpr ⟨value, grows.events key value found⟩

/-! ## Referral addresses -/

/-- The depositor of a record has a referral address already, or the record comes without one. -/
def Referred (ledger : Ledger) (event : DepositEvent) : Prop :=
  event.referralAddress = none ∨
    ∃ referral, ledger.stickyReferrals.find? event.depositor = some referral

theorem Referred.grows {event : DepositEvent} (referred : ledger.Referred event)
    (grows : Grows ledger after) : after.Referred event :=
  referred.imp_right fun ⟨referral, found⟩ => ⟨referral, grows.stickyReferrals _ _ found⟩

/-- Once a depositor has come with a record, that record is of no more use. -/
theorem referred_touched (ledger : Ledger) (event : DepositEvent) :
    (ledger.touched event).Referred event := by
  rw [touched_eq]
  unfold Referred referralsAfter
  dsimp only
  cases event.referralAddress with
  | none => exact .inl rfl
  | some referral =>
      refine .inr ?_
      cases found : ledger.stickyReferrals.find? event.depositor with
      | some current => exact ⟨current, found⟩
      | none => exact ⟨referral, Table.find?_insert_self _ _ _⟩

theorem Referred.touched {event : DepositEvent} (referred : ledger.Referred event) :
    ledger.touched event = ledger := by
  have same : referralsAfter ledger.stickyReferrals event = ledger.stickyReferrals := by
    unfold referralsAfter
    rcases referred with none | ⟨referral, found⟩
    · rw [none]
    · rw [found]
      cases event.referralAddress with
      | none => rfl
      | some other => rfl
  rw [touched_eq, same]

theorem touched_touched (ledger : Ledger) (event : DepositEvent) :
    (ledger.touched event).touched event = ledger.touched event :=
  (referred_touched ledger event).touched

/-! ## One delivery -/

theorem extends_referralsAfter (referrals : Table Address Address) (event : DepositEvent) :
    (referralsAfter referrals event).Extends referrals := by
  unfold referralsAfter
  split
  · next absent => exact Table.extends_insert absent
  · exact .refl _

theorem grows_touched (ledger : Ledger) (event : DepositEvent) :
    Grows ledger (ledger.touched event) := by
  rw [touched_eq]
  exact ⟨.refl _, extends_referralsAfter _ _, .refl _, fun _ d found => ⟨d, found⟩⟩

theorem grows_putDeposit (ledger : Ledger) (d : Deposit) : Grows ledger (ledger.putDeposit d) := by
  refine ⟨.refl _, .refl _, .refl _, fun key old found => ?_⟩
  change ∃ later, (ledger.deposits.insert d.key d).find? key = some later
  rw [Table.find?_insert]
  split
  · exact ⟨d, rfl⟩
  · exact ⟨old, found⟩

theorem grows_recordEvent (ledger : Ledger) (key : EventKey) :
    Grows ledger (ledger.recordEvent key) := by
  refine ⟨fun other value found => ?_, .refl _, .refl _, fun _ d found => ⟨d, found⟩⟩
  change (ledger.events.insert key ()).find? other = some value
  rw [Table.find?_insert]
  split
  · rfl
  · exact found

/-- It does not matter which fills wait. -/
theorem Grows.dropParked (grows : Grows ledger after) (key : DepositKey) :
    Grows ledger (after.dropParked key) :=
  ⟨grows.events, grows.stickyReferrals, grows.claims, grows.deposits⟩

theorem grows_receive (ledger : Ledger) (lpFeeCap : Decimal) (event : Event) :
    Grows ledger (ledger.receive lpFeeCap event).1 := by
  have same := Grows.refl ledger
  have received := ledger.receives lpFeeCap event
  generalize ledger.receive lpFeeCap event = result at received ⊢
  cases received with
  | refused refused => exact grows_touched ledger _
  | duplicate settled found => exact (grows_touched ledger _).dropParked _
  | inserted settled absent =>
      exact ((grows_touched ledger _).dropParked _).trans (grows_putDeposit _ _)
  | parked absent => exact ⟨same.events, same.stickyReferrals, same.claims, same.deposits⟩
  | changed found change => exact grows_putDeposit ledger _
  | unchanged stays => exact same
  | refund => exact ⟨same.events, same.stickyReferrals, same.claims, same.deposits⟩
  | claim free =>
      exact ⟨same.events, same.stickyReferrals, Table.extends_insert free, same.deposits⟩
  | route => exact ⟨same.events, same.stickyReferrals, same.claims, same.deposits⟩

/-- **A delivery takes nothing away that records have left.** -/
theorem grows_deliver (ledger : Ledger) (lpFeeCap : Decimal) (event : Event) :
    Grows ledger (ledger.deliver lpFeeCap event).1 := by
  have received := ledger.grows_receive lpFeeCap event
  rcases ledger.fst_deliver lpFeeCap event with same | left | noted
  · rw [same]
    exact .refl ledger
  · rw [left]
    exact received
  · rw [noted]
    exact received.trans (grows_recordEvent _ _)

theorem known_of_deliver (accepted : ledger.deliver lpFeeCap event = (after, .ok delivery)) :
    after.hasEvent event.key = true := by
  cases known : ledger.hasEvent event.key with
  | true =>
      rw [deliver_of_known known] at accepted
      cases accepted
      exact known
  | false =>
      rcases received : ledger.receive lpFeeCap event with ⟨left, outcome⟩
      cases outcome with
      | error e =>
          rw [deliver_of_refused known received] at accepted
          cases accepted
      | ok other =>
          rw [deliver_of_receive known received] at accepted
          cases accepted
          change ((left.events.insert event.key ()).find? event.key).isSome = true
          rw [Table.find?_insert_self]
          rfl

end BridgeRewards.Ledger
