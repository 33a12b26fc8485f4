import BridgeRewards.Proofs.Run.Claimants
import BridgeRewards.Proofs.Run.Lifecycle

/-!
# Who brought a depositor

The first referral address that a depositor comes with is entered for good, and every deposit that
is inserted takes the entry of its depositor (`Attributed`).  Only the delivery of a deposit record
inserts a deposit, and nothing replaces the address that a deposit has.  So an address on a deposit
is always that of the entry (`stickyReferral?_of_run`), deposits of one depositor agree on it, and
once one of them has an address every later one has it (`referrals_stick`).  A deposit that was
inserted before there was an entry stays without an address.
-/

set_option autoImplicit false

namespace BridgeRewards

namespace Deposit

variable {d after : Deposit}

theorem Evolves.depositor (evolves : d.Evolves after) : after.depositor = d.depositor :=
  congrArg (·.depositor) evolves.terms

theorem Evolves.stickyReferralAddress (evolves : d.Evolves after) :
    after.stickyReferralAddress = d.stickyReferralAddress :=
  congrArg (·.stickyReferralAddress) evolves.terms

end Deposit

namespace Ledger

variable {ledger : Ledger} {lpFeeCap : Decimal} {key : DepositKey} {d : Deposit}

/-! ## Insertion -/

/-- Once a depositor has come with a record, the entry is the one from before or else the address
of the record. -/
theorem stickyReferral?_touched (ledger : Ledger) (event : DepositEvent) :
    (ledger.touched event).stickyReferral? event.depositor =
      (ledger.stickyReferral? event.depositor).or event.referralAddress := by
  rw [touched_eq]
  unfold stickyReferral? referralsAfter
  cases found : ledger.stickyReferrals.find? event.depositor with
  | some current =>
      cases event.referralAddress with
      | none => exact found
      | some referral => exact found
  | none =>
      cases event.referralAddress with
      | none => exact found
      | some referral => exact Table.find?_insert_self _ _ _

/-- A deposit as a record made it: with the entry of its depositor, which is the one from before
or else the address of the record. -/
structure Attributed (before after : Ledger) (event : DepositEvent) (d : Deposit) : Prop where
  key : d.key = event.key
  depositor : d.depositor = event.depositor
  entry : d.stickyReferralAddress = after.stickyReferral? d.depositor
  firstTouch : d.stickyReferralAddress =
    (before.stickyReferral? d.depositor).or event.referralAddress

theorem attributed_of_reconcile {event : DepositEvent} {after : Ledger}
    (settled : ledger.reconcile lpFeeCap event = .ok d)
    (entered : after.stickyReferrals = (ledger.touched event).stickyReferrals) :
    Attributed ledger after event d := by
  have keeps := (Deposit.fillAll_keeps settled).1
  have depositor : d.depositor = event.depositor := keeps.depositor
  have sticky : d.stickyReferralAddress = (ledger.touched event).stickyReferral? event.depositor :=
    keeps.stickyReferralAddress
  refine ⟨keeps.key, depositor, ?_, ?_⟩
  · rw [sticky, depositor, stickyReferral?, stickyReferral?, entered]
  · rw [sticky, depositor, stickyReferral?_touched]

theorem attributed_of_receive (keyed : ledger.Keyed) (lpFeeCap : Decimal) (event : Event)
    (absent : ledger.deposits.find? key = none)
    (found : (ledger.receive lpFeeCap event).1.deposits.find? key = some d) :
    ∃ record, event = .deposit record ∧
      Attributed ledger (ledger.receive lpFeeCap event).1 record d := by
  have received := ledger.receives lpFeeCap event
  generalize ledger.receive lpFeeCap event = result at received found ⊢
  have stays : ∀ deposits, deposits = ledger.deposits → deposits.find? key ≠ some d := by
    rintro _ rfl same
    cases same.symm.trans absent
  cases received with
  | refused refused => exact absurd found (stays _ (deposits_touched _ _))
  | duplicate settled isThere => exact absurd found (stays _ (deposits_touched _ _))
  | @inserted record made settled free =>
      refine ⟨record, rfl, ?_⟩
      change ((ledger.touched record).deposits.insert made.key made).find? key = some d at found
      rw [Table.find?_insert, deposits_touched] at found
      split at found
      · obtain rfl := Option.some.inj found
        exact attributed_of_reconcile settled rfl
      · cases found.symm.trans absent
  | parked free => exact absurd found (stays _ rfl)
  | @changed _ other old after isThere change =>
      have atPlace : after.key = other := change.keeps.key.trans (keyed other old isThere)
      change (ledger.deposits.insert after.key after).find? key = some d at found
      rw [Table.find?_insert, atPlace] at found
      split at found
      · next here =>
          rw [here, isThere] at absent
          cases absent
      · cases found.symm.trans absent
  | unchanged stays => cases found.symm.trans absent
  | refund => exact absurd found (stays _ rfl)
  | claim free => exact absurd found (stays _ rfl)
  | route => exact absurd found (stays _ rfl)

/-- **What inserts a deposit.**  An operation that inserts a deposit delivers the record that made
it. -/
theorem attributed_of_after (keyed : ledger.Keyed) {operation : Operation}
    (absent : ledger.deposits.find? key = none)
    (found : (ledger.after operation).deposits.find? key = some d) :
    ∃ lpFeeCap record, operation = .deliver lpFeeCap (.deposit record) ∧
      Attributed ledger (ledger.after operation) record d := by
  rcases delivers_or_follows keyed operation with ⟨lpFeeCap, event, rfl⟩ | ⟨-, follows⟩
  · change (ledger.deliver lpFeeCap event).1.deposits.find? key = some d at found
    rcases ledger.fst_deliver lpFeeCap event with same | left | noted
    · rw [same] at found
      cases found.symm.trans absent
    · rw [left] at found
      obtain ⟨record, rfl, attributed⟩ := attributed_of_receive keyed lpFeeCap event absent found
      rw [← left] at attributed
      exact ⟨lpFeeCap, record, rfl, attributed⟩
    · rw [noted] at found
      obtain ⟨record, rfl, attributed⟩ := attributed_of_receive keyed lpFeeCap event absent found
      have entry := attributed.entry
      refine ⟨lpFeeCap, record, rfl, attributed.key, attributed.depositor, ?_,
        attributed.firstTouch⟩
      change _ = (ledger.deliver lpFeeCap (.deposit record)).1.stickyReferral? d.depositor
      rw [noted]
      exact entry
  · obtain ⟨f, tokens, prices, windows, recipients, jobs, isAfter⟩ := follows
    rw [isAfter] at found
    change (ledger.deposits.mapValues f).find? key = some d at found
    rw [Table.find?_mapValues, absent] at found
    cases found

/-! ## Through runs -/

variable {referral : Address}

theorem run_concat (operations : List Operation) (operation : Operation) :
    Ledger.empty.run (operations ++ [operation]) =
      (Ledger.empty.run operations).after operation :=
  run_append _ _ _

/-- What one more operation does with the place of a deposit that is there afterwards: the deposit
was there before and evolved, or it was inserted by its record. -/
theorem evolved_or_attributed (operations : List Operation) (operation : Operation)
    (found : (Ledger.empty.run (operations ++ [operation])).deposits.find? key = some d) :
    (∃ old, (Ledger.empty.run operations).deposits.find? key = some old ∧ old.Evolves d) ∨
      (Ledger.empty.run operations).deposits.find? key = none ∧
        d.stickyReferralAddress =
          (Ledger.empty.run (operations ++ [operation])).stickyReferral? d.depositor := by
  cases before : (Ledger.empty.run operations).deposits.find? key with
  | some old =>
      obtain ⟨after, isAfter, evolves⟩ := exists_evolves_of_run operations [operation] before
      obtain rfl := Option.some.inj (found.symm.trans isAfter)
      exact .inl ⟨old, rfl, evolves⟩
  | none =>
      rw [run_concat] at found ⊢
      obtain ⟨lpFeeCap, record, -, attributed⟩ :=
        attributed_of_after (consistent_run operations).keyed before found
      exact .inr ⟨rfl, attributed.entry⟩

/-- **An address on a deposit is that of the entry** of its depositor. -/
theorem stickyReferral?_of_run (operations : List Operation)
    (found : (Ledger.empty.run operations).deposits.find? key = some d)
    (has : d.stickyReferralAddress = some referral) :
    (Ledger.empty.run operations).stickyReferral? d.depositor = some referral := by
  induction operations using List.reverseRecOn generalizing d with
  | nil => cases found
  | append_singleton earlier operation ih =>
      rcases evolved_or_attributed earlier operation found with ⟨old, isOld, evolves⟩ | ⟨-, entry⟩
      · rw [evolves.stickyReferralAddress] at has
        rw [evolves.depositor]
        exact (grows_run_append earlier [operation]).stickyReferrals _ _ (ih isOld has)
      · rw [← entry, has]

/-- A deposit that is inserted once its depositor has an entry has the address of the entry. -/
theorem stickyReferralAddress_of_later (earlier later : List Operation)
    (absent : (Ledger.empty.run earlier).deposits.find? key = none)
    (found : (Ledger.empty.run (earlier ++ later)).deposits.find? key = some d)
    (entered : (Ledger.empty.run earlier).stickyReferral? d.depositor = some referral) :
    d.stickyReferralAddress = some referral := by
  induction later using List.reverseRecOn generalizing d with
  | nil =>
      rw [List.append_nil] at found
      cases found.symm.trans absent
  | append_singleton more operation ih =>
      rw [← List.append_assoc] at found
      rcases evolved_or_attributed (earlier ++ more) operation found with
        ⟨old, isOld, evolves⟩ | ⟨-, entry⟩
      · rw [evolves.depositor] at entered
        rw [evolves.stickyReferralAddress]
        exact ih isOld entered
      · rw [entry, List.append_assoc]
        exact (grows_run_append earlier (more ++ [operation])).stickyReferrals _ _ entered

/-- **Referrals stick to the first touch.**  Whatever comes of the operations of a run: an entry is
kept for good; a deposit that is inserted has the entry of its depositor at that moment, which is
the one from before or else the address of its own record, and keeps it; all deposits of one
depositor that have an address have the same; and once one of them has an address, every deposit
of the depositor that is inserted later has it. -/
theorem referrals_stick (earlier later : List Operation) :
    (∀ depositor referral,
      (Ledger.empty.run earlier).stickyReferral? depositor = some referral →
      (Ledger.empty.run (earlier ++ later)).stickyReferral? depositor = some referral) ∧
    (∀ operation key d,
      (Ledger.empty.run earlier).deposits.find? key = none →
      (Ledger.empty.run (earlier ++ [operation])).deposits.find? key = some d →
      (∃ lpFeeCap record, operation = .deliver lpFeeCap (.deposit record) ∧
        Attributed (Ledger.empty.run earlier) (Ledger.empty.run (earlier ++ [operation])) record d) ∧
      ∃ now, (Ledger.empty.run (earlier ++ [operation] ++ later)).deposits.find? key = some now ∧
        now.depositor = d.depositor ∧ now.stickyReferralAddress = d.stickyReferralAddress) ∧
    (∀ key key' d d' referral referral',
      (Ledger.empty.run earlier).deposits.find? key = some d →
      (Ledger.empty.run (earlier ++ later)).deposits.find? key' = some d' →
      d'.depositor = d.depositor → d.stickyReferralAddress = some referral →
      d'.stickyReferralAddress = some referral' → referral' = referral) ∧
    (∀ key key' d d' referral,
      (Ledger.empty.run earlier).deposits.find? key = some d →
      (Ledger.empty.run earlier).deposits.find? key' = none →
      (Ledger.empty.run (earlier ++ later)).deposits.find? key' = some d' →
      d'.depositor = d.depositor → d.stickyReferralAddress = some referral →
      d'.stickyReferralAddress = some referral) := by
  have kept := (grows_run_append earlier later).stickyReferrals
  refine ⟨kept, fun operation key d absent found => ⟨?_, ?_⟩, ?_, ?_⟩
  · rw [run_concat] at found ⊢
    exact attributed_of_after (consistent_run earlier).keyed absent found
  · obtain ⟨now, isNow, evolves⟩ := exists_evolves_of_run (earlier ++ [operation]) later found
    exact ⟨now, isNow, evolves.depositor, evolves.stickyReferralAddress⟩
  · intro key key' d d' referral referral' found found' same has has'
    have entry := kept _ _ (stickyReferral?_of_run earlier found has)
    have entry' := stickyReferral?_of_run (earlier ++ later) found' has'
    rw [same] at entry'
    exact Option.some.inj (entry'.symm.trans entry)
  · intro key key' d d' referral found absent found' same has
    refine stickyReferralAddress_of_later earlier later absent found' ?_
    rw [same]
    exact stickyReferral?_of_run earlier found has

end Ledger

/-! ## A depositor who is brought twice -/

namespace Trial

/-- The deposit of the trial with a referral address. -/
def brought : DepositEvent := { deposit with referralAddress := some .zero }

/-- Another deposit of the same depositor, with another address. -/
def broughtAgain : DepositEvent :=
  { brought with eventMeta := writtenAt 1, depositId := 8, referralAddress := some rival }

/-- The deposit that a record makes, with the first address. -/
def ofZero (event : DepositEvent) : Deposit :=
  { event.toDeposit with stickyReferralAddress := some .zero }

end Trial

namespace Ledger

/-- The second deposit has the address that the depositor came with first. -/
theorem referrals_stick_trial :
    (Ledger.empty.run ([.deliver (.powerOfTen 18) (.deposit Trial.brought)] ++
      [.deliver (.powerOfTen 18) (.deposit Trial.broughtAgain)])).deposits.find?
        Trial.broughtAgain.key = some (Trial.ofZero Trial.broughtAgain) ∧
    (Trial.ofZero Trial.broughtAgain).stickyReferralAddress = some .zero := by
  have found : (Ledger.empty.run ([.deliver (.powerOfTen 18) (.deposit Trial.brought)] ++
      [.deliver (.powerOfTen 18) (.deposit Trial.broughtAgain)])).deposits.find?
        Trial.broughtAgain.key = some (Trial.ofZero Trial.broughtAgain) := by decide +kernel
  exact ⟨found, (referrals_stick [.deliver (.powerOfTen 18) (.deposit Trial.brought)]
    [.deliver (.powerOfTen 18) (.deposit Trial.broughtAgain)]).2.2.2 Trial.brought.key
    Trial.broughtAgain.key (Trial.ofZero Trial.brought) (Trial.ofZero Trial.broughtAgain) .zero
    (by decide +kernel) (by decide +kernel) found rfl rfl⟩

end Ledger

end BridgeRewards
