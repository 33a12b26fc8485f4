import BridgeRewards.Ledger.Delivery
import BridgeRewards.Proofs.Decimal.Number
import BridgeRewards.Proofs.Decimal.Sum
import BridgeRewards.Proofs.Deposit.Change

/-!
# What fills do

A fill whose numbers are integers charges a deposit that is not filled yet, and covers it if the
total that it reaches is the amount of the deposit at least (`fill_iff`).  A list of such fills
leaves a deposit filled exactly if one of them covers it, charged by the first that does; if none
does, the deposit stays pending, charged by the last (`Deposit.reconciled_afterFills`).  A fill with
another number stands in the way, unless one before it covers the deposit
(`Deposit.exists_fillAll_iff`).
-/

set_option autoImplicit false

namespace BridgeRewards

namespace FillRecord

/-- Whether the numbers of a fill are integers. -/
def isWhole (record : FillRecord) : Bool :=
  Decimal.isIntegerText record.totalFilledAmount &&
    Decimal.isIntegerText record.realizedLpFeePct && Decimal.isIntegerText record.relayerFeePct

/-- Whether the total that a fill reaches is some amount at least. -/
def covers (amount : String) (record : FillRecord) : Bool :=
  decide (Decimal.numberOf amount ≤ Decimal.numberOf record.totalFilledAmount)

/-- The total that a fill reaches, as a deposit keeps it. -/
def total (record : FillRecord) : String := (Decimal.integerOf record.totalFilledAmount).plain

/-- The percentages that a fill charges. -/
def fees (lpFeeCap : Decimal) (record : FillRecord) : FeeBreakdown :=
  let lpRaw := Decimal.integerOf record.realizedLpFeePct
  let lpCapped := lpRaw.clamp lpFeeCap
  let relayer := Decimal.integerOf record.relayerFeePct
  { realizedLpFeePctRaw := lpRaw.plain
    realizedLpFeePct := lpCapped.plain
    relayerFeePct := relayer.plain
    bridgeFeePct := (lpCapped + relayer).plain }

theorem isWhole_iff {record : FillRecord} :
    record.isWhole = true ↔ Decimal.isIntegerText record.totalFilledAmount = true ∧
      Decimal.isIntegerText record.realizedLpFeePct = true ∧
      Decimal.isIntegerText record.relayerFeePct = true := by
  rw [isWhole, Bool.and_eq_true, Bool.and_eq_true, and_assoc]

theorem integerOf_le_iff_covers {amount : String} {record : FillRecord}
    (isAmount : Decimal.isIntegerText amount = true)
    (isTotal : Decimal.isIntegerText record.totalFilledAmount = true) :
    Decimal.integerOf amount ≤ Decimal.integerOf record.totalFilledAmount ↔
      record.covers amount = true := by
  rw [Decimal.le_iff_value_le, Decimal.value_integerOf isAmount, Decimal.value_integerOf isTotal]
  exact decide_eq_true_iff.symm

end FillRecord

namespace Deposit

variable {lpFeeCap : Decimal} {d after : Deposit} {record : FillRecord} {records : List FillRecord}

/-! ## One fill -/

/-- The deposit with the percentages and the total of a fill. -/
def chargedBy (lpFeeCap : Decimal) (d : Deposit) (record : FillRecord) : Deposit :=
  { d with fees := some (record.fees lpFeeCap), filledAmount := record.total }

/-- The deposit after a fill that is accepted. -/
def afterFill (lpFeeCap : Decimal) (d : Deposit) (record : FillRecord) : Deposit :=
  if d.isFilled then d
  else if record.covers d.inputAmount then (d.chargedBy lpFeeCap record).covered record
  else d.chargedBy lpFeeCap record

/-- What an accepted fill does. -/
def outcomeOf (d : Deposit) (record : FillRecord) : FillOutcome :=
  if d.isFilled then .alreadyFilled
  else if record.covers d.inputAmount then .filled else .partially

/-- A fill is accepted by a filled deposit, which it leaves as it is, and otherwise exactly if the
numbers of the fill and the amount of the deposit are integers. -/
theorem fill_iff {outcome : FillOutcome} :
    d.fill record lpFeeCap = .ok (outcome, after) ↔
      (d.isFilled = false → Decimal.isIntegerText d.inputAmount = true ∧ record.isWhole = true) ∧
        outcome = d.outcomeOf record ∧ after = d.afterFill lpFeeCap record := by
  rw [fill_eq_ok]
  unfold outcomeOf afterFill
  cases filled : d.isFilled with
  | true => simp
  | false =>
      simp only [Bool.false_eq_true, false_and, false_or, true_and, if_false, forall_const,
        Decimal.parseInteger_iff, FillRecord.isWhole_iff]
      constructor
      · rintro ⟨input, total, lpRaw, relayer, ⟨isInput, rfl⟩, ⟨isTotal, rfl⟩, ⟨isLpRaw, rfl⟩,
          ⟨isRelayer, rfl⟩, h⟩
        refine ⟨⟨isInput, isTotal, isLpRaw, isRelayer⟩, ?_⟩
        simp only [FillRecord.integerOf_le_iff_covers isInput isTotal] at h
        by_cases enough : record.covers d.inputAmount = true
        · rw [if_pos enough] at h ⊢
          rw [if_pos enough]
          exact h
        · rw [if_neg enough] at h ⊢
          rw [if_neg enough]
          exact h
      · rintro ⟨⟨isInput, isTotal, isLpRaw, isRelayer⟩, rfl, rfl⟩
        refine ⟨_, _, _, _, ⟨isInput, rfl⟩, ⟨isTotal, rfl⟩, ⟨isLpRaw, rfl⟩, ⟨isRelayer, rfl⟩, ?_⟩
        simp only [FillRecord.integerOf_le_iff_covers isInput isTotal]
        split
        · exact ⟨rfl, rfl⟩
        · exact ⟨rfl, rfl⟩

theorem afterFill_of_filled (filled : d.isFilled = true) : d.afterFill lpFeeCap record = d := by
  rw [afterFill, if_pos filled]

theorem afterFill_of_pending (pending : d.isFilled = false) :
    d.afterFill lpFeeCap record = if record.covers d.inputAmount
      then (d.chargedBy lpFeeCap record).covered record else d.chargedBy lpFeeCap record := by
  rw [afterFill, if_neg (Bool.eq_false_iff.mp pending)]

theorem fees_afterFill (d : Deposit) (lpFeeCap : Decimal) (record : FillRecord) :
    (d.afterFill lpFeeCap record).fees =
      if d.isFilled then d.fees else some (record.fees lpFeeCap) := by
  cases filled : d.isFilled with
  | true => rw [afterFill_of_filled filled, if_pos rfl]
  | false =>
      rw [afterFill_of_pending filled, if_neg Bool.false_ne_true]
      split
      · rfl
      · rfl

/-- A fill does not change the amount that it has to cover, nor the key of the deposit. -/
theorem afterFill_keeps (lpFeeCap : Decimal) (d : Deposit) (record : FillRecord) :
    (d.afterFill lpFeeCap record).inputAmount = d.inputAmount ∧
      (d.afterFill lpFeeCap record).key = d.key := by
  cases filled : d.isFilled with
  | true =>
      rw [afterFill_of_filled filled]
      exact ⟨rfl, rfl⟩
  | false =>
      rw [afterFill_of_pending filled]
      by_cases enough : record.covers d.inputAmount = true
      · rw [if_pos enough]
        exact ⟨rfl, rfl⟩
      · rw [if_neg enough]
        exact ⟨rfl, rfl⟩

/-! ## Fills in a row -/

/-- The deposit after some fills that are accepted. -/
def afterFills (lpFeeCap : Decimal) (d : Deposit) (records : List FillRecord) : Deposit :=
  records.foldl (afterFill lpFeeCap) d

theorem afterFills_append (earlier later : List FillRecord) :
    d.afterFills lpFeeCap (earlier ++ later) =
      (d.afterFills lpFeeCap earlier).afterFills lpFeeCap later :=
  List.foldl_append

theorem afterFills_keeps (lpFeeCap : Decimal) (d : Deposit) (records : List FillRecord) :
    (d.afterFills lpFeeCap records).inputAmount = d.inputAmount ∧
      (d.afterFills lpFeeCap records).key = d.key := by
  induction records generalizing d with
  | nil => exact ⟨rfl, rfl⟩
  | cons record rest ih =>
      obtain ⟨amount, key⟩ := ih (d.afterFill lpFeeCap record)
      obtain ⟨sameAmount, sameKey⟩ := afterFill_keeps lpFeeCap d record
      exact ⟨amount.trans sameAmount, key.trans sameKey⟩

theorem fillAll_eq_ok (isInput : Decimal.isIntegerText d.inputAmount = true)
    (whole : ∀ record ∈ records, record.isWhole = true) :
    d.fillAll lpFeeCap records = .ok (d.afterFills lpFeeCap records) := by
  induction records generalizing d with
  | nil => rfl
  | cons record rest ih =>
      have first : d.fill record lpFeeCap = .ok (d.outcomeOf record, d.afterFill lpFeeCap record) :=
        fill_iff.mpr ⟨fun _ => ⟨isInput, whole record List.mem_cons_self⟩, rfl, rfl⟩
      have later := @ih (d.afterFill lpFeeCap record)
        ((afterFill_keeps lpFeeCap d record).1 ▸ isInput)
        fun other isLater => whole other (List.mem_cons_of_mem _ isLater)
      exact Outcome.bind_eq_ok.mpr ⟨_, first, later⟩

theorem afterFills_of_filled (filled : d.isFilled = true) : d.afterFills lpFeeCap records = d := by
  induction records with
  | nil => rfl
  | cons record rest ih =>
      rw [afterFills, List.foldl_cons, afterFill_of_filled filled]
      exact ih

theorem fillAll_of_filled (filled : d.isFilled = true) : d.fillAll lpFeeCap records = .ok d := by
  induction records with
  | nil => rfl
  | cons record rest ih =>
      have first : d.fill record lpFeeCap = .ok (d.outcomeOf record, d.afterFill lpFeeCap record) :=
        fill_iff.mpr ⟨fun pending => (by rw [filled] at pending; cases pending), rfl, rfl⟩
      rw [afterFill_of_filled filled] at first
      exact Outcome.bind_eq_ok.mpr ⟨_, first, ih⟩

/-- Whether fills block a deposit with an amount: there is one with a number that is no integer, and
none before it covers the amount. -/
def blockedBy (amount : String) (records : List FillRecord) : Bool :=
  (records.find? fun record => !record.isWhole || record.covers amount).any (!·.isWhole)

theorem blockedBy_cons (amount : String) (record : FillRecord) (rest : List FillRecord) :
    blockedBy amount (record :: rest) =
      if record.isWhole then !record.covers amount && blockedBy amount rest else true := by
  unfold blockedBy
  rw [List.find?_cons]
  cases whole : record.isWhole with
  | false => simp [whole]
  | true =>
      cases enough : record.covers amount with
      | true => simp [whole]
      | false => simp

/-- More fills after those that block a deposit do not help. -/
theorem blockedBy_of_grown {amount : String} {later : List FillRecord}
    (grown : records <+: later) (blocked : blockedBy amount records = true) :
    blockedBy amount later = true := by
  obtain ⟨more, rfl⟩ := grown
  unfold blockedBy at blocked ⊢
  rw [List.find?_append]
  cases found : records.find? fun record => !record.isWhole || record.covers amount with
  | none =>
      rw [found] at blocked
      cases blocked
  | some record =>
      rw [found] at blocked
      exact blocked

/-- A pending deposit takes some fills exactly if they do not block it. -/
theorem exists_fillAll_iff (isInput : Decimal.isIntegerText d.inputAmount = true)
    (pending : d.isFilled = false) :
    (∃ after, d.fillAll lpFeeCap records = .ok after) ↔
      blockedBy d.inputAmount records = false := by
  induction records generalizing d with
  | nil => exact ⟨fun _ => rfl, fun _ => ⟨d, rfl⟩⟩
  | cons record rest ih =>
      rw [blockedBy_cons]
      cases whole : record.isWhole with
      | false =>
          rw [if_neg (by simp)]
          refine ⟨fun ⟨after, taken⟩ => ?_, fun unblocked => (by cases unblocked)⟩
          obtain ⟨⟨outcome, between⟩, first, -⟩ := Outcome.bind_eq_ok.mp taken
          obtain ⟨-, isWhole⟩ := (fill_iff.mp first).1 pending
          rw [whole] at isWhole
          cases isWhole
      | true =>
          have first : d.fill record lpFeeCap =
              .ok (d.outcomeOf record, d.afterFill lpFeeCap record) :=
            fill_iff.mpr ⟨fun _ => ⟨isInput, whole⟩, rfl, rfl⟩
          have continues : (∃ after, d.fillAll lpFeeCap (record :: rest) = .ok after) ↔
              ∃ after, (d.afterFill lpFeeCap record).fillAll lpFeeCap rest = .ok after := by
            refine exists_congr fun after => ?_
            rw [fillAll, Outcome.bind_eq_ok, first]
            simp
          rw [if_pos rfl, continues, afterFill_of_pending pending]
          cases enough : record.covers d.inputAmount with
          | true => exact ⟨fun _ => rfl, fun _ => ⟨_, fillAll_of_filled rfl⟩⟩
          | false => exact @ih (d.chargedBy lpFeeCap record) isInput pending

/-- The first fill that covers a pending deposit decides, whatever comes before and after it. -/
theorem afterFills_of_find?_eq_some (pending : d.isFilled = false)
    (first : records.find? (·.covers d.inputAmount) = some record) :
    d.afterFills lpFeeCap records = (d.chargedBy lpFeeCap record).covered record := by
  induction records generalizing d with
  | nil => cases first
  | cons head rest ih =>
      rw [afterFills, List.foldl_cons, afterFill_of_pending pending]
      rw [List.find?_cons] at first
      cases enough : head.covers d.inputAmount with
      | true =>
          rw [enough] at first
          obtain rfl := Option.some.inj first
          exact afterFills_of_filled rfl
      | false =>
          rw [enough] at first
          exact @ih (d.chargedBy lpFeeCap head) pending first

/-- If no fill covers a pending deposit, it stays pending, and the last fill decides. -/
theorem afterFills_of_find?_eq_none (pending : d.isFilled = false)
    (short : records.find? (·.covers d.inputAmount) = none) :
    d.afterFills lpFeeCap records =
      (records.getLast?.map (d.chargedBy lpFeeCap)).getD d := by
  induction records generalizing d with
  | nil => rfl
  | cons head rest ih =>
      obtain ⟨notHead, notLater⟩ : ¬ head.covers d.inputAmount = true ∧
          rest.find? (·.covers d.inputAmount) = none := by
        simpa [List.find?_eq_none] using short
      rw [afterFills, List.foldl_cons, afterFill_of_pending pending, if_neg notHead,
        List.getLast?_cons]
      refine (@ih (d.chargedBy lpFeeCap head) pending notLater).trans ?_
      cases rest.getLast? with
      | none => rfl
      | some last => rfl

/-- What fills come to, in their order, for a deposit: it is filled if one of them covers it, and
then the first that does has decided; if none does, the last has. -/
structure Reconciled (lpFeeCap : Decimal) (records : List FillRecord) (d : Deposit) : Prop where
  filled : d.isFilled = true ↔ ∃ record ∈ records, record.covers d.inputAmount = true
  first : ∀ record, records.find? (·.covers d.inputAmount) = some record →
    d.fees = some (record.fees lpFeeCap) ∧ d.filledAmount = record.total ∧
      d.fillDate = some record.fillDate ∧ d.fillTx = some record.fillTx
  last : records.find? (·.covers d.inputAmount) = none →
    d.fees = records.getLast?.map (·.fees lpFeeCap) ∧
      d.filledAmount = (records.getLast?.map (·.total)).getD "0" ∧
      d.fillDate = none ∧ d.fillTx = none

/-- A deposit as a record makes it is reconciled with the fills that it takes. -/
theorem reconciled_afterFills (pending : d.isFilled = false) (fees : d.fees = none)
    (amount : d.filledAmount = "0") (date : d.fillDate = none) (tx : d.fillTx = none)
    (records : List FillRecord) : Reconciled lpFeeCap records (d.afterFills lpFeeCap records) := by
  have keeps := (afterFills_keeps lpFeeCap d records).1
  cases search : records.find? (·.covers d.inputAmount) with
  | some record =>
      have decided := @afterFills_of_find?_eq_some lpFeeCap d record records pending search
      constructor
      · rw [keeps, decided]
        exact ⟨fun _ => ⟨record, List.mem_of_find?_eq_some search, List.find?_some search⟩,
          fun _ => rfl⟩
      · intro other isFirst
        rw [keeps, search] at isFirst
        obtain rfl := Option.some.inj isFirst
        rw [decided]
        exact ⟨rfl, rfl, rfl, rfl⟩
      · intro none
        rw [keeps, search] at none
        cases none
  | none =>
      have decided := @afterFills_of_find?_eq_none lpFeeCap d records pending search
      have stays : (d.afterFills lpFeeCap records).isFilled = false := by
        rw [decided]
        cases records.getLast? with
        | none => exact pending
        | some last => exact pending
      constructor
      · rw [keeps, stays]
        constructor
        · intro filled
          cases filled
        · rintro ⟨record, member, enough⟩
          exact (List.find?_eq_none.mp search record member enough).elim
      · intro record isFirst
        rw [keeps, search] at isFirst
        cases isFirst
      · intro _
        rw [decided]
        cases records.getLast? with
        | none => exact ⟨fees, amount, date, tx⟩
        | some last => exact ⟨rfl, rfl, date, tx⟩

end Deposit

end BridgeRewards
