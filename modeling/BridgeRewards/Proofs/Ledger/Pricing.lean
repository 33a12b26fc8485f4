import BridgeRewards.Proofs.Ledger.Commit
import BridgeRewards.Proofs.Ledger.Quotes

/-!
# What pricing does

The deposits are taken one after the other in the order of their keys, and each one that is due is
either written with its prices or reported (`Ledger.priceInTurn`).  A write fails where there is no
deposit; but if every deposit stands at its own key, then each write meets the deposit that was
listed, and all of them together change exactly the deposits whose prices are known
(`Ledger.priceInTurn_eq_ok`).

A deposit is reported exactly if it is still due afterwards.  So to price again without new tokens
or prices changes nothing and reports the same (`Ledger.pricePending_again`), and after new ones
nothing is reported that was not reported before (`Ledger.exists_gap_of_later`).
-/

set_option autoImplicit false

namespace BridgeRewards.Ledger

variable {ledger : Ledger} {rewardToken : Address} {rewardChainId : Nat} {d : Deposit}

/-! ## A single deposit -/

/-- The report on a deposit that is due but cannot be priced. -/
def gap? (ledger : Ledger) (rewardToken : Address) (rewardChainId : Nat) (d : Deposit) :
    Option PricingGap :=
  if d.awaitsPrice then
    match ledger.pricesFor rewardToken rewardChainId d with
    | .ok _ => none
    | .error cause => some ⟨d.key, cause⟩
  else none

theorem awaitsPrice_setPrice (d : Deposit) (price : PriceSnapshot) :
    (d.setPrice price).awaitsPrice = false :=
  Bool.and_false _

theorem priced_of_quoted (due : d.awaitsPrice = true) {price : PriceSnapshot}
    (quoted : ledger.Quoted rewardToken rewardChainId d price) :
    ledger.priced rewardToken rewardChainId d = d.setPrice price ∧
      ledger.gap? rewardToken rewardChainId d = none := by
  unfold priced gap?
  rw [if_pos due, if_pos due, quoted.pricesFor_eq]
  exact ⟨rfl, rfl⟩

theorem priced_of_missing (due : d.awaitsPrice = true) {cause : GapCause}
    (missing : ledger.Missing rewardToken rewardChainId d cause) :
    ledger.priced rewardToken rewardChainId d = d ∧
      ledger.gap? rewardToken rewardChainId d = some ⟨d.key, cause⟩ := by
  unfold priced gap?
  rw [if_pos due, if_pos due, missing.pricesFor_eq]
  exact ⟨rfl, rfl⟩

theorem priced_of_settled (settled : d.awaitsPrice = false) :
    ledger.priced rewardToken rewardChainId d = d ∧
      ledger.gap? rewardToken rewardChainId d = none := by
  unfold priced gap?
  rw [if_neg (by simp [settled]), if_neg (by simp [settled])]
  exact ⟨rfl, rfl⟩

/-- A deposit is not due, or gets prices, or is reported. -/
theorem priced_cases (ledger : Ledger) (rewardToken : Address) (rewardChainId : Nat) (d : Deposit) :
    (d.awaitsPrice = false ∧ ledger.priced rewardToken rewardChainId d = d ∧
        ledger.gap? rewardToken rewardChainId d = none) ∨
      (d.awaitsPrice = true ∧ ∃ price, ledger.Quoted rewardToken rewardChainId d price ∧
        ledger.priced rewardToken rewardChainId d = d.setPrice price ∧
        ledger.gap? rewardToken rewardChainId d = none) ∨
      (d.awaitsPrice = true ∧ ∃ cause, ledger.Missing rewardToken rewardChainId d cause ∧
        ledger.priced rewardToken rewardChainId d = d ∧
        ledger.gap? rewardToken rewardChainId d = some ⟨d.key, cause⟩) := by
  cases due : d.awaitsPrice with
  | false => exact .inl ⟨rfl, priced_of_settled due⟩
  | true =>
      rcases ledger.quoted_or_missing rewardToken rewardChainId d with
        ⟨price, quoted⟩ | ⟨cause, missing⟩
      · exact .inr (.inl ⟨rfl, price, quoted, priced_of_quoted due quoted⟩)
      · exact .inr (.inr ⟨rfl, cause, missing, priced_of_missing due missing⟩)

theorem key_priced (ledger : Ledger) (rewardToken : Address) (rewardChainId : Nat) (d : Deposit) :
    (ledger.priced rewardToken rewardChainId d).key = d.key := by
  rcases ledger.priced_cases rewardToken rewardChainId d with
    ⟨-, same, -⟩ | ⟨-, price, -, isPriced, -⟩ | ⟨-, -, -, same, -⟩
  · rw [same]
  · rw [isPriced]
    rfl
  · rw [same]

theorem isSome_gap? (ledger : Ledger) (rewardToken : Address) (rewardChainId : Nat) (d : Deposit) :
    (ledger.gap? rewardToken rewardChainId d).isSome =
      (ledger.priced rewardToken rewardChainId d).awaitsPrice := by
  rcases ledger.priced_cases rewardToken rewardChainId d with
    ⟨settled, same, unreported⟩ | ⟨-, price, -, isPriced, unreported⟩ | ⟨due, _, -, same, reported⟩
  · rw [unreported, same, settled]
    rfl
  · rw [unreported, isPriced, awaitsPrice_setPrice]
    rfl
  · rw [reported, same, due]
    rfl

/-- A deposit that was priced or reported is not changed again, and is reported again if it was. -/
theorem priced_again (ledger : Ledger) (rewardToken : Address) (rewardChainId : Nat) (d : Deposit) :
    ledger.priced rewardToken rewardChainId (ledger.priced rewardToken rewardChainId d) =
        ledger.priced rewardToken rewardChainId d ∧
      ledger.gap? rewardToken rewardChainId (ledger.priced rewardToken rewardChainId d) =
        ledger.gap? rewardToken rewardChainId d := by
  rcases ledger.priced_cases rewardToken rewardChainId d with
    ⟨-, same, -⟩ | ⟨-, price, -, isPriced, unreported⟩ | ⟨-, -, -, same, -⟩
  · rw [same, same]
    exact ⟨rfl, rfl⟩
  · rw [isPriced, unreported]
    exact priced_of_settled (awaitsPrice_setPrice d price)
  · rw [same, same]
    exact ⟨rfl, rfl⟩

theorem gap?_eq_some {gap : PricingGap} :
    ledger.gap? rewardToken rewardChainId d = some gap ↔
      d.awaitsPrice = true ∧ gap.deposit = d.key ∧
        ledger.Missing rewardToken rewardChainId d gap.cause := by
  constructor
  · intro reported
    rcases ledger.priced_cases rewardToken rewardChainId d with
      ⟨-, -, unreported⟩ | ⟨-, -, -, -, unreported⟩ | ⟨due, cause, missing, -, isGap⟩
    · cases reported.symm.trans unreported
    · cases reported.symm.trans unreported
    · obtain rfl := Option.some.inj (isGap.symm.trans reported)
      exact ⟨due, rfl, missing⟩
  · rintro ⟨due, isKey, missing⟩
    rw [(priced_of_missing due missing).2, ← isKey]

/-! ## One deposit after the other -/

/-- What is done with a deposit in its turn: if it is due it is written with its prices, or
reported if they are not known. -/
def priceNext (rewardToken : Address) (rewardChainId : Nat) (state : Ledger × PricingReport)
    (d : Deposit) : Except LedgerError (Ledger × PricingReport) :=
  if d.awaitsPrice then
    match state.1.pricesFor rewardToken rewardChainId d with
    | .ok price => do
      match ← state.1.setDepositPrice d.key price with
      | some after => return (after, { state.2 with priced := state.2.priced + 1 })
      | none => return state
    | .error cause => return (state.1, { state.2 with gaps := state.2.gaps ++ [⟨d.key, cause⟩] })
  else return state

/-- Prices the deposits one after the other, in the order of their keys. -/
def priceInTurn (ledger : Ledger) (rewardToken : Address) (rewardChainId : Nat) :
    Except LedgerError (Ledger × PricingReport) :=
  ledger.deposits.values.foldlM (priceNext rewardToken rewardChainId) (ledger, ⟨0, []⟩)

theorem setDepositPrice_of_find? {key : DepositKey} (found : ledger.deposits.find? key = some d)
    (unpriced : d.price = none) (price : PriceSnapshot) :
    ledger.setDepositPrice key price =
      .ok (some { ledger with deposits := ledger.deposits.insert key (d.setPrice price) }) := by
  refine Outcome.bind_eq_ok.mpr ⟨d, getDeposit_eq_ok.mpr found, ?_⟩
  rw [if_neg (by simp [Deposit.isPriced, unpriced])]
  rfl

/-- A deposit that stands at its key is written there as it is priced, and it counts as priced or
is reported if it was due. -/
theorem priceNext_eq_ok {rows : Table DepositKey Deposit} (stands : rows.find? d.key = some d)
    (report : PricingReport) :
    ∃ noted : PricingReport,
      priceNext rewardToken rewardChainId ({ ledger with deposits := rows }, report) d =
        .ok ({ ledger with
          deposits := rows.insert d.key (ledger.priced rewardToken rewardChainId d) }, noted) ∧
      noted.gaps = report.gaps ++ [d].filterMap (ledger.gap? rewardToken rewardChainId) ∧
      noted.priced + ([d].filterMap (ledger.gap? rewardToken rewardChainId)).length =
        report.priced + [d].countP Deposit.awaitsPrice := by
  unfold priceNext
  rcases ledger.priced_cases rewardToken rewardChainId d with
    ⟨settled, same, unreported⟩ | ⟨due, price, quoted, isPriced, unreported⟩ |
    ⟨due, cause, missing, same, reported⟩
  · refine ⟨report, ?_, by simp [unreported], by simp [unreported, settled]⟩
    rw [same, Table.insert_of_find? stands, if_neg (by simp [settled])]
    rfl
  · have found : pricesFor { ledger with deposits := rows } rewardToken rewardChainId d =
        .ok price := quoted.pricesFor_eq
    have written := @setDepositPrice_of_find? { ledger with deposits := rows } d d.key stands
      (Deposit.awaitsPrice_iff.mp due).2 price
    refine ⟨{ report with priced := report.priced + 1 }, ?_, by simp [unreported],
      by simp [unreported, due]⟩
    rw [isPriced, if_pos due, found]
    dsimp only
    rw [written]
    rfl
  · have failed : pricesFor { ledger with deposits := rows } rewardToken rewardChainId d =
        .error cause := missing.pricesFor_eq
    refine ⟨{ report with gaps := report.gaps ++ [⟨d.key, cause⟩] }, ?_, by simp [reported],
      by simp [reported, due]⟩
    rw [same, Table.insert_of_find? stands, if_pos due, failed]
    rfl

/-- Deposits of different keys that stand at their keys are written there one after the other. -/
theorem foldlM_priceNext {deposits : List Deposit} (distinct : (deposits.map (·.key)).Nodup)
    {rows : Table DepositKey Deposit} (stand : ∀ d ∈ deposits, rows.find? d.key = some d)
    (report : PricingReport) :
    ∃ last : PricingReport,
      deposits.foldlM (priceNext rewardToken rewardChainId)
          ({ ledger with deposits := rows }, report) =
        .ok ({ ledger with
          deposits := deposits.foldl (fun rows d =>
            rows.insert d.key (ledger.priced rewardToken rewardChainId d)) rows }, last) ∧
      last.gaps = report.gaps ++ deposits.filterMap (ledger.gap? rewardToken rewardChainId) ∧
      last.priced + (deposits.filterMap (ledger.gap? rewardToken rewardChainId)).length =
        report.priced + deposits.countP Deposit.awaitsPrice := by
  induction deposits generalizing rows report with
  | nil => exact ⟨report, rfl, by simp, by simp⟩
  | cons d rest ih =>
      obtain ⟨once, distinctRest⟩ := List.nodup_cons.mp distinct
      obtain ⟨noted, isNoted, gapsNoted, countNoted⟩ :=
        @priceNext_eq_ok ledger rewardToken rewardChainId d rows (stand d List.mem_cons_self) report
      have standRest : ∀ e ∈ rest, (rows.insert d.key
          (ledger.priced rewardToken rewardChainId d)).find? e.key = some e := by
        intro e member
        have differ : e.key ≠ d.key := fun same => once (List.mem_map.mpr ⟨e, member, same⟩)
        rw [Table.find?_insert, if_neg differ]
        exact stand e (List.mem_cons_of_mem _ member)
      obtain ⟨last, isLast, gapsLast, countLast⟩ := ih distinctRest standRest noted
      rw [← List.singleton_append, List.filterMap_append, List.countP_append]
      refine ⟨last, ?_, ?_, ?_⟩
      · rw [List.singleton_append, List.foldlM_cons, List.foldl_cons]
        exact Outcome.bind_eq_ok.mpr ⟨_, isNoted, isLast⟩
      · rw [gapsLast, gapsNoted, List.append_assoc]
      · rw [List.length_append]
        omega

/-! ## All deposits -/

/-- What is reported are the deposits that are still due, in the order in which they are listed. -/
theorem gaps_pricePending (ledger : Ledger) (rewardToken : Address) (rewardChainId : Nat) :
    (ledger.pricePending rewardToken rewardChainId).2.gaps =
      ledger.deposits.values.filterMap (ledger.gap? rewardToken rewardChainId) :=
  List.filterMap_filter

/-- Of the deposits that are due each one is priced or reported. -/
theorem priced_add_gaps (ledger : Ledger) (rewardToken : Address) (rewardChainId : Nat) :
    (ledger.pricePending rewardToken rewardChainId).2.priced +
        (ledger.pricePending rewardToken rewardChainId).2.gaps.length =
      (ledger.deposits.values.filter Deposit.awaitsPrice).length :=
  Nat.sub_add_cancel (List.length_filterMap_le _ _)

/-- **No write fails**, and one after the other the deposits are priced as they are all at once. -/
theorem priceInTurn_eq_ok (keyed : ledger.Keyed) (rewardToken : Address) (rewardChainId : Nat) :
    ledger.priceInTurn rewardToken rewardChainId =
      .ok (ledger.pricePending rewardToken rewardChainId) := by
  have stand : ∀ d ∈ ledger.deposits.values, ledger.deposits.find? d.key = some d :=
    fun d member => Table.find?_of_mem_values keyed member
  obtain ⟨last, isLast, gaps, count⟩ :=
    @foldlM_priceNext ledger rewardToken rewardChainId _ keyed.nodup_key _ stand ⟨0, []⟩
  rw [Table.foldl_insert_values keyed] at isLast
  have sameGaps : last.gaps = (ledger.pricePending rewardToken rewardChainId).2.gaps := by
    rw [gaps, gaps_pricePending, List.nil_append]
  have samePriced : last.priced = (ledger.pricePending rewardToken rewardChainId).2.priced := by
    have total := ledger.priced_add_gaps rewardToken rewardChainId
    rw [← gaps_pricePending, List.countP_eq_length_filter, ← total] at count
    exact Nat.add_right_cancel (count.trans (Nat.zero_add _))
  have same : last = (ledger.pricePending rewardToken rewardChainId).2 :=
    congrArg₂ PricingReport.mk samePriced sameGaps
  rw [same] at isLast
  exact isLast

/-- A deposit is reported exactly if it is due and something is missing, together with what is
missing first. -/
theorem mem_gaps {gap : PricingGap} :
    gap ∈ (ledger.pricePending rewardToken rewardChainId).2.gaps ↔
      ∃ d ∈ ledger.deposits.values, d.awaitsPrice = true ∧ gap.deposit = d.key ∧
        ledger.Missing rewardToken rewardChainId d gap.cause := by
  rw [gaps_pricePending, List.mem_filterMap]
  exact exists_congr fun d => and_congr_right fun _ => gap?_eq_some

/-- What is reported is in the order of the keys, and nothing is reported twice. -/
theorem pairwise_gaps (keyed : ledger.Keyed) (rewardToken : Address) (rewardChainId : Nat) :
    (ledger.pricePending rewardToken rewardChainId).2.gaps.Pairwise fun a b =>
      compare a.deposit b.deposit = .lt := by
  have ordered : ledger.deposits.values.Pairwise fun a b => compare a.key b.key = .lt := by
    have keys : ledger.deposits.keys.Pairwise fun a b => compare a b = .lt :=
      List.pairwise_map.mpr ledger.deposits.increasing
    rw [← keyed.map_key_values] at keys
    exact List.pairwise_map.mp keys
  rw [gaps_pricePending, List.pairwise_filterMap]
  refine ordered.imp fun less gap isGap other isOther => ?_
  rw [(gap?_eq_some.mp isGap).2.1, (gap?_eq_some.mp isOther).2.1]
  exact less

theorem fst_pricePending_again (ledger : Ledger) (rewardToken : Address) (rewardChainId : Nat) :
    ((ledger.pricePending rewardToken rewardChainId).1.pricePending rewardToken rewardChainId).1 =
      (ledger.pricePending rewardToken rewardChainId).1 := by
  change { ledger with
    deposits := (ledger.deposits.mapValues (ledger.priced rewardToken rewardChainId)).mapValues
      (ledger.priced rewardToken rewardChainId) } = { ledger with deposits := _ }
  refine congrArg (fun deposits => { ledger with deposits }) (Table.ext fun key => ?_)
  rw [Table.find?_mapValues, Table.find?_mapValues, Option.map_map]
  refine congrArg (fun f => Option.map f _) (funext fun d => ?_)
  exact (ledger.priced_again rewardToken rewardChainId d).1

theorem gaps_pricePending_again (ledger : Ledger) (rewardToken : Address) (rewardChainId : Nat) :
    ((ledger.pricePending rewardToken rewardChainId).1.pricePending
        rewardToken rewardChainId).2.gaps =
      (ledger.pricePending rewardToken rewardChainId).2.gaps := by
  rw [gaps_pricePending, gaps_pricePending]
  change (ledger.deposits.mapValues _).values.filterMap
    (ledger.gap? rewardToken rewardChainId) = _
  rw [Table.values_mapValues, List.filterMap_map]
  exact List.filterMap_congr fun d _ => (ledger.priced_again rewardToken rewardChainId d).2

theorem length_gaps (ledger : Ledger) (rewardToken : Address) (rewardChainId : Nat) :
    ((ledger.pricePending rewardToken rewardChainId).1.deposits.values.filter
        Deposit.awaitsPrice).length =
      (ledger.pricePending rewardToken rewardChainId).2.gaps.length := by
  change ((ledger.deposits.mapValues _).values.filter Deposit.awaitsPrice).length = _
  rw [gaps_pricePending, List.length_filterMap_eq_countP, ← List.countP_eq_length_filter,
    Table.values_mapValues, List.countP_map]
  refine List.countP_congr fun d _ => ?_
  rw [isSome_gap?]
  rfl

/-- **To price again changes nothing** and reports the same, while tokens and prices stay. -/
theorem pricePending_again (ledger : Ledger) (rewardToken : Address) (rewardChainId : Nat) :
    (ledger.pricePending rewardToken rewardChainId).1.pricePending rewardToken rewardChainId =
      ((ledger.pricePending rewardToken rewardChainId).1,
        ⟨0, (ledger.pricePending rewardToken rewardChainId).2.gaps⟩) := by
  have gaps := ledger.gaps_pricePending_again rewardToken rewardChainId
  have total := (ledger.pricePending rewardToken rewardChainId).1.priced_add_gaps
    rewardToken rewardChainId
  rw [gaps, length_gaps] at total
  have none : ((ledger.pricePending rewardToken rewardChainId).1.pricePending
      rewardToken rewardChainId).2.priced = 0 := by omega
  exact Prod.ext (ledger.fst_pricePending_again rewardToken rewardChainId)
    (congrArg₂ PricingReport.mk none gaps)

/-- What is reported when there are the same deposits afterwards was reported before. -/
theorem exists_gap_of_later {later : Ledger}
    (same : later.deposits = (ledger.pricePending rewardToken rewardChainId).1.deposits)
    {gap : PricingGap} (member : gap ∈ (later.pricePending rewardToken rewardChainId).2.gaps) :
    ∃ earlier ∈ (ledger.pricePending rewardToken rewardChainId).2.gaps,
      earlier.deposit = gap.deposit := by
  obtain ⟨d, isDeposit, due, isKey, -⟩ := mem_gaps.mp member
  rw [same] at isDeposit
  change d ∈ (ledger.deposits.mapValues _).values at isDeposit
  rw [Table.values_mapValues] at isDeposit
  obtain ⟨e, isEarlier, rfl⟩ := List.mem_map.mp isDeposit
  rw [← isSome_gap?] at due
  obtain ⟨earlier, isGap⟩ := Option.isSome_iff_exists.mp due
  refine ⟨earlier, ?_, ?_⟩
  · rw [gaps_pricePending]
    exact List.mem_filterMap.mpr ⟨e, isEarlier, isGap⟩
  · rw [(gap?_eq_some.mp isGap).2.1, isKey, key_priced]

/-! ## What a call for prices comes to -/

/-- What it is to price the deposits that are due as far as their prices are known. -/
structure Prices (rewardToken : Address) (rewardChainId : Nat) (before after : Ledger)
    (report : PricingReport) : Prop where
  /-- Nothing but deposits changes. -/
  frame : after = { before with deposits := after.deposits }
  /-- No deposit comes or goes. -/
  keys : after.deposits.keys = before.deposits.keys
  /-- A deposit that is due gets the prices that are known. -/
  priced : ∀ key d price, before.deposits.find? key = some d → d.awaitsPrice = true →
    before.Quoted rewardToken rewardChainId d price →
      after.deposits.find? key = some (d.setPrice price)
  /-- Every other deposit stays as it is. -/
  kept : ∀ key d, before.deposits.find? key = some d →
    (d.awaitsPrice = true → ¬ ∃ price, before.Quoted rewardToken rewardChainId d price) →
      after.deposits.find? key = some d
  /-- Reports are in the order of the keys, and no deposit is reported twice. -/
  inOrder : report.gaps.Pairwise fun a b => compare a.deposit b.deposit = .lt
  /-- The deposits that are reported are those that are due and whose prices are not known. -/
  reported : ∀ key, (∃ gap ∈ report.gaps, gap.deposit = key) ↔
    ∃ d, before.deposits.find? key = some d ∧ d.awaitsPrice = true ∧
      ¬ ∃ price, before.Quoted rewardToken rewardChainId d price
  /-- A report says what is missing first. -/
  causes : ∀ gap ∈ report.gaps, ∀ d, before.deposits.find? gap.deposit = some d →
    before.Missing rewardToken rewardChainId d gap.cause
  /-- Every deposit that is due is priced or reported. -/
  total : report.priced + report.gaps.length =
    (before.deposits.values.filter Deposit.awaitsPrice).length

theorem find?_pricePending (ledger : Ledger) (rewardToken : Address) (rewardChainId : Nat)
    (key : DepositKey) :
    (ledger.pricePending rewardToken rewardChainId).1.deposits.find? key =
      (ledger.deposits.find? key).map (ledger.priced rewardToken rewardChainId) :=
  Table.find?_mapValues _ _ key

theorem keyed_pricePending (keyed : ledger.Keyed) (rewardToken : Address) (rewardChainId : Nat) :
    (ledger.pricePending rewardToken rewardChainId).1.Keyed := by
  intro key after found
  rw [find?_pricePending] at found
  obtain ⟨d, stands, rfl⟩ := Option.map_eq_some_iff.mp found
  rw [key_priced, keyed key d stands]

/-- **What pricing does.** -/
theorem prices_pricePending (keyed : ledger.Keyed) (rewardToken : Address) (rewardChainId : Nat) :
    Prices rewardToken rewardChainId ledger (ledger.pricePending rewardToken rewardChainId).1
      (ledger.pricePending rewardToken rewardChainId).2 where
  frame := rfl
  keys := by
    change (ledger.deposits.mapValues _).rows.map (·.1) = ledger.deposits.rows.map (·.1)
    rw [Table.mapValues, List.map_map]
    rfl
  priced key d price found due quoted := by
    rw [find?_pricePending, found, Option.map_some, (priced_of_quoted due quoted).1]
  kept key d found unknown := by
    rw [find?_pricePending, found, Option.map_some]
    rcases ledger.priced_cases rewardToken rewardChainId d with
      ⟨-, same, -⟩ | ⟨due, price, quoted, -⟩ | ⟨-, -, -, same, -⟩
    · rw [same]
    · exact (unknown due ⟨price, quoted⟩).elim
    · rw [same]
  inOrder := pairwise_gaps keyed rewardToken rewardChainId
  reported key := by
    constructor
    · rintro ⟨gap, member, rfl⟩
      obtain ⟨d, isDeposit, due, isKey, missing⟩ := mem_gaps.mp member
      exact ⟨d, isKey ▸ Table.find?_of_mem_values keyed isDeposit, due,
        not_quoted_iff.mpr ⟨_, missing⟩⟩
    · rintro ⟨d, found, due, unknown⟩
      obtain ⟨cause, missing⟩ := not_quoted_iff.mp unknown
      have isDeposit := Table.mem_values.mpr ⟨key, found⟩
      exact ⟨⟨key, cause⟩, mem_gaps.mpr ⟨d, isDeposit, due, (keyed key d found).symm, missing⟩, rfl⟩
  causes gap member d found := by
    obtain ⟨e, isDeposit, -, isKey, missing⟩ := mem_gaps.mp member
    rw [isKey, Table.find?_of_mem_values keyed isDeposit] at found
    exact Option.some.inj found ▸ missing
  total := ledger.priced_add_gaps rewardToken rewardChainId

end BridgeRewards.Ledger
