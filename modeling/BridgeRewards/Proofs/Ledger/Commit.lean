import BridgeRewards.Ledger.Commit
import BridgeRewards.Proofs.Deposit.Change
import BridgeRewards.Proofs.Table

/-!
# What a commit writes

A commit succeeds exactly if its index is free on the line, its recipients pass the check and
each of its deposits can be assigned.  Then the window and its recipients stand at their place,
every deposit of the commit carries the window, and every other row is as it was
(`find?_deposits_of_commit`).
-/

set_option autoImplicit false

namespace BridgeRewards

/-- Where a window to be written will stand. -/
def WindowCommit.place (commit : WindowCommit) : Line × Nat :=
  (commit.window.line, commit.window.windowIndex)

namespace Ledger

/-- Every deposit stands at its own key. -/
def Keyed (ledger : Ledger) : Prop := ∀ key d, ledger.deposits.find? key = some d → d.key = key

/-- Every deposit is sound. -/
def Sound (ledger : Ledger) : Prop := ∀ key d, ledger.deposits.find? key = some d → d.Sound

variable {ledger after : Ledger} {commit : WindowCommit}

theorem Sound.of_mem_values (sound : ledger.Sound) {d : Deposit}
    (member : d ∈ ledger.deposits.values) : d.Sound := by
  obtain ⟨key, found⟩ := Table.mem_values.mp member
  exact sound key d found

theorem Keyed.map_key_values (keyed : ledger.Keyed) :
    ledger.deposits.values.map (·.key) = ledger.deposits.keys := by
  unfold Table.values Table.keys
  rw [List.map_map]
  refine List.map_congr_left fun row member => ?_
  exact keyed row.1 row.2 ((Table.find?_eq_some_iff _ _ _).mpr member)

theorem Keyed.nodup_key (keyed : ledger.Keyed) : (ledger.deposits.values.map (·.key)).Nodup :=
  keyed.map_key_values ▸ ledger.deposits.nodup_keys

theorem getDeposit_eq_ok {key : DepositKey} {d : Deposit} :
    ledger.getDeposit key = .ok d ↔ ledger.deposits.find? key = some d := by
  unfold getDeposit
  cases ledger.deposits.find? key <;> simp

theorem assigned_eq_ok {kind : RewardType} {index : Nat} {key : DepositKey} {stamped : Deposit} :
    ledger.assigned kind index key = .ok stamped ↔
      ∃ d, ledger.deposits.find? key = some d ∧ d.isFilled = true ∧ d.windowFor kind = none ∧
        stamped = d.stamp kind index := by
  unfold assigned
  rw [Outcome.bind_eq_ok]
  refine exists_congr fun d => ?_
  rw [getDeposit_eq_ok, Outcome.mapError_eq_ok, Deposit.assignWindow_eq_ok]

/-- Recipients pass the check if all of them belong to the window, their addresses are all
different and none of them was seen before. -/
theorem checkRecipients_eq_ok {line : Line} {index : Nat} {seen : List Address}
    {recipients : List Recipient} :
    checkRecipients line index seen recipients = .ok () ↔
      (∀ recipient ∈ recipients, recipient.windowIndex = index) ∧
        (recipients.map (·.address)).Nodup ∧
        ∀ recipient ∈ recipients, recipient.address ∉ seen := by
  induction recipients generalizing seen with
  | nil => simp [checkRecipients]
  | cons recipient rest ih =>
      unfold checkRecipients
      by_cases own : recipient.windowIndex = index
      · rw [if_neg (not_not.mpr own)]
        by_cases taken : recipient.address ∈ seen
        · simp [taken]
        · rw [if_neg (by simpa using taken), ih, List.forall_mem_cons, List.forall_mem_cons,
            List.map_cons, List.nodup_cons]
          constructor
          · rintro ⟨others, distinct, fresh⟩
            refine ⟨⟨own, others⟩, ⟨fun again => ?_, distinct⟩, taken, ?_⟩
            · obtain ⟨other, member, same⟩ := List.mem_map.mp again
              exact fresh other member (same ▸ List.mem_cons_self)
            · exact fun other member before => fresh other member (List.mem_cons_of_mem _ before)
          · rintro ⟨⟨-, others⟩, ⟨once, distinct⟩, -, fresh⟩
            refine ⟨others, distinct, fun other member before => ?_⟩
            rcases List.mem_cons.mp before with same | before
            · exact once (List.mem_map.mpr ⟨other, member, same⟩)
            · exact fresh other member before
      · simp [own]

theorem commit_eq_ok :
    ledger.commit commit = .ok after ↔
      ledger.windows.find? commit.place = none ∧
        checkRecipients commit.window.line commit.window.windowIndex [] commit.recipients =
          .ok () ∧
        ∃ deposits, List.Forall₂ (fun key d =>
            ledger.assigned commit.kind commit.window.windowIndex key = .ok d)
          commit.deposits deposits ∧ after = ledger.write commit deposits := by
  unfold Ledger.commit hasWindow Table.contains
  change _ ↔ ledger.windows.find? (commit.window.line, commit.window.windowIndex) = none ∧ _
  rw [← Option.not_isSome_iff_eq_none]
  by_cases taken : (ledger.windows.find?
      (commit.window.line, commit.window.windowIndex)).isSome = true
  · rw [if_pos taken]
    simp [taken, throw, throwThe, MonadExceptOf.throw, bind, Except.bind]
  · rw [if_neg taken]
    change (checkRecipients _ _ _ _ >>= _) = _ ↔ _
    rw [Outcome.bind_eq_ok]
    constructor
    · rintro ⟨⟨⟩, checked, rest⟩
      obtain ⟨deposits, assigned, rest⟩ := Outcome.bind_eq_ok.mp rest
      exact ⟨taken, checked, deposits, Outcome.mapM_eq_ok.mp assigned, (Except.ok.inj rest).symm⟩
    · rintro ⟨-, checked, deposits, assigned, rfl⟩
      exact ⟨(), checked, Outcome.bind_eq_ok.mpr
        ⟨deposits, Outcome.mapM_eq_ok.mpr assigned, rfl⟩⟩

theorem exists_of_mem_deposits (h : ledger.commit commit = .ok after) {key : DepositKey}
    (member : key ∈ commit.deposits) :
    ∃ d, ledger.deposits.find? key = some d ∧ d.isFilled = true ∧
      d.windowFor commit.kind = none := by
  obtain ⟨-, -, deposits, assigned, -⟩ := commit_eq_ok.mp h
  obtain ⟨stamped, -, here⟩ := Outcome.exists_of_mem_left assigned member
  obtain ⟨d, found, filled, free, -⟩ := assigned_eq_ok.mp here
  exact ⟨d, found, filled, free⟩

/-- A commit puts its window into the deposits that it names and leaves the others alone. -/
theorem find?_deposits_of_commit (keyed : ledger.Keyed) (h : ledger.commit commit = .ok after)
    (key : DepositKey) :
    after.deposits.find? key = (ledger.deposits.find? key).map fun d =>
      if key ∈ commit.deposits then d.stamp commit.kind commit.window.windowIndex else d := by
  obtain ⟨-, -, deposits, assigned, rfl⟩ := commit_eq_ok.mp h
  have source : ∀ stamped ∈ deposits, ∃ d, stamped.key ∈ commit.deposits ∧
      ledger.deposits.find? stamped.key = some d ∧
      stamped = d.stamp commit.kind commit.window.windowIndex := by
    intro stamped member
    obtain ⟨other, isNamed, here⟩ := Outcome.exists_of_mem_right assigned member
    obtain ⟨d, found, -, -, rfl⟩ := assigned_eq_ok.mp here
    obtain rfl : d.key = other := keyed other d found
    exact ⟨d, isNamed, found, rfl⟩
  -- What is written at one key is one deposit, so the order of writing does not matter.
  have distinct : ∀ a ∈ deposits, ∀ b ∈ deposits, a.key = b.key → a = b := by
    intro a isA b isB same
    obtain ⟨d, -, found, rfl⟩ := source a isA
    obtain ⟨e, -, foundOther, rfl⟩ := source b isB
    rw [same, foundOther] at found
    rw [Option.some.inj found]
  have written := Table.find?_foldl_insert Deposit.key id distinct ledger.deposits key
  rw [Option.map_id_apply] at written
  refine written.trans ?_
  by_cases named : key ∈ commit.deposits
  · obtain ⟨stamped, isStamped, here⟩ := Outcome.exists_of_mem_left assigned named
    obtain ⟨d, found, -, -, rfl⟩ := assigned_eq_ok.mp here
    have atKey : d.key = key := keyed key d found
    have first : deposits.find? (fun d => decide (d.key = key)) =
        some (d.stamp commit.kind commit.window.windowIndex) := by
      cases search : deposits.find? (fun d => decide (d.key = key)) with
      | none => exact (List.find?_eq_none.mp search _ isStamped (decide_eq_true atKey)).elim
      | some other =>
          have same : other.key = key := by simpa using List.find?_some search
          rw [distinct other (List.mem_of_find?_eq_some search) _ isStamped
            (same.trans atKey.symm)]
    rw [first, found, Option.some_or, Option.map_some, if_pos named]
  · have none : deposits.find? (fun d => decide (d.key = key)) = none := by
      refine List.find?_eq_none.mpr fun stamped member same => named ?_
      obtain ⟨-, isNamed, -⟩ := source stamped member
      exact of_decide_eq_true same ▸ isNamed
    rw [none, Option.none_or]
    simp [named]

theorem deposits_of_commit (keyed : ledger.Keyed) (h : ledger.commit commit = .ok after) :
    after.deposits = ledger.deposits.mapValues fun d =>
      if d.key ∈ commit.deposits then d.stamp commit.kind commit.window.windowIndex else d := by
  refine Table.ext fun key => ?_
  rw [find?_deposits_of_commit keyed h, Table.find?_mapValues]
  refine Option.map_congr fun d found => ?_
  rw [keyed key d found]

theorem Keyed.of_commit (keyed : ledger.Keyed) (h : ledger.commit commit = .ok after) :
    after.Keyed := by
  intro key d found
  rw [find?_deposits_of_commit keyed h, Option.map_eq_some_iff] at found
  obtain ⟨old, isOld, rfl⟩ := found
  have atKey := keyed key old isOld
  split
  · exact atKey
  · exact atKey

/-- The window of a commit and its recipients stand at their place, beside the windows and
recipients that were there. -/
theorem tables_of_commit (h : ledger.commit commit = .ok after) :
    after.windows = ledger.windows.insert commit.place commit.window ∧
      after.recipients =
        ledger.recipients.insert commit.place (byAccountIndex commit.recipients) := by
  obtain ⟨-, -, deposits, -, rfl⟩ := commit_eq_ok.mp h
  exact ⟨rfl, rfl⟩

/-- A commit writes deposits, windows and recipients, and nothing else. -/
theorem eq_of_commit (h : ledger.commit commit = .ok after) :
    after = { ledger with
      deposits := after.deposits, windows := after.windows, recipients := after.recipients } := by
  obtain ⟨-, -, deposits, -, rfl⟩ := commit_eq_ok.mp h
  rfl

end Ledger

end BridgeRewards
