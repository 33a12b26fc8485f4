import BridgeRewards.Proofs.Decimal.Sum
import BridgeRewards.Proofs.Deposit.Valuation
import BridgeRewards.Proofs.Table
import BridgeRewards.Reward.Volume
import Mathlib.Data.Finset.Card
import Mathlib.Data.Finset.Dedup

/-!
# Volume by counting

An index answers a question about a referrer and an instant as one would by counting: it goes
through all deposits, keeps those that count for the referrer and were made no later, and takes
the number of their different depositors and the sum of their volumes (`upTo_of_build`).  Sorting
does not matter for either, and the running totals at the last point that is not later are those
over the deposits that are not later, because the points are in order of dates.
-/

set_option autoImplicit false

namespace BridgeRewards

/-- Whether a deposit counts for a referrer who has claimed from some windows. -/
def Deposit.countsFor (referral : Address) (claimed : List Nat) (d : Deposit) : Bool :=
  d.referredBy referral && d.isFilled && d.isPriced && d.notPaidOut claimed

/-- The different depositors of some deposits, and their volume in dollars. -/
def ReferralVolume.ofValues (values : List PricedDeposit) : ReferralVolume :=
  ⟨(values.map (·.depositor)).dedup.length, Decimal.sum (values.map (·.usdVolume))⟩

theorem Deposit.countsFor_and_charged {d : Deposit} (sound : d.Sound) (referral : Address)
    (claimed : List Nat) :
    (d.countsFor referral claimed && d.fees.isSome) = d.countsFor referral claimed := by
  cases filled : d.isFilled with
  | false => simp [countsFor, filled]
  | true => simp [sound.fees filled]

theorem ReferralVolume.ofValues_perm {values others : List PricedDeposit}
    (perm : values.Perm others) : ofValues values = ofValues others := by
  have count := (perm.map (·.depositor)).dedup.length_eq
  have volume := Decimal.sum_perm (perm.map (·.usdVolume))
  rw [ofValues, count, volume, ← ofValues]

namespace VolumeIndex

variable {claimed : ClaimedWindows} {deposits : List Deposit} {referral : Address}
  {pairs : List (Address × PricedDeposit)}

/-! ## Deposits that count -/

/-- A deposit goes into the totals of the referrer for whom it counts if it has fees, and into no
others. -/
theorem of_counted? {d : Deposit} {outcome : Option (Address × PricedDeposit)}
    (h : counted? claimed d = .ok outcome) (referral : Address) :
    ((d.countsFor referral (claimed.of referral) && d.fees.isSome) = true ∧
        ∃ values, outcome = some (referral, values) ∧ d.Valued values) ∨
      ((d.countsFor referral (claimed.of referral) && d.fees.isSome) = false ∧
        ∀ pair, outcome = some pair → pair.1 ≠ referral) := by
  unfold counted? at h
  unfold Deposit.countsFor Deposit.referredBy
  cases sticky : d.stickyReferralAddress with
  | none =>
      rw [sticky] at h
      cases h
      exact .inr ⟨rfl, fun pair none => by cases none⟩
  | some address =>
      rw [sticky] at h
      dsimp only at h
      by_cases same : address = referral
      · subst same
        by_cases counts : (d.isFilled && d.notPaidOut (claimed.of address)) = true
        · rw [if_pos counts] at h
          obtain ⟨valued, isValued, rfl⟩ := Outcome.map_eq_ok.mp h
          obtain ⟨filled, unpaid⟩ := Bool.and_eq_true_iff.mp counts
          cases valued with
          | none =>
              have incomplete := PricedDeposit.incomplete_of_ofDeposit filled isValued
              exact .inr ⟨by simpa [filled, unpaid] using incomplete,
                fun pair none => by cases none⟩
          | some values =>
              have priced := (PricedDeposit.of_ofDeposit isValued).2.1
              have charged := PricedDeposit.charged_of_ofDeposit isValued
              exact .inl ⟨by simp [filled, unpaid, priced, charged], values, rfl, isValued⟩
        · rw [if_neg counts] at h
          cases h
          refine .inr ⟨?_, fun pair none => by cases none⟩
          rw [Bool.and_eq_true_iff, not_and, Bool.not_eq_true] at counts
          by_cases filled : d.isFilled = true
          · simp [counts filled]
          · simp [filled]
      · refine .inr ⟨by simp [same], fun pair isPair => ?_⟩
        rw [isPair] at h
        split at h
        · obtain ⟨valued, -, isMapped⟩ := Outcome.map_eq_ok.mp h
          obtain ⟨values, -, rfl⟩ := Option.map_eq_some_iff.mp isMapped
          exact same
        · cases h

/-- In the totals of a referrer are the values of the deposits with fees that count for the
referrer, in their order. -/
theorem forall₂_counted (h : counted claimed deposits = .ok pairs) (referral : Address) :
    List.Forall₂ Deposit.Valued
      (deposits.filter fun d => d.countsFor referral (claimed.of referral) && d.fees.isSome)
      ((pairs.filter fun pair => decide (pair.1 = referral)).map (·.2)) := by
  induction deposits generalizing pairs with
  | nil =>
      cases h
      exact .nil
  | cons d rest ih =>
      obtain ⟨first, isFirst, h⟩ := Outcome.bind_eq_ok.mp h
      obtain ⟨others, isOthers, h⟩ := Outcome.bind_eq_ok.mp h
      obtain rfl := Except.ok.inj h
      have later := ih isOthers
      rw [List.filter_cons, List.filter_append, List.map_append]
      rcases of_counted? isFirst referral with ⟨counts, values, rfl, valued⟩ | ⟨counts, none⟩
      · rw [if_pos counts]
        simp only [Option.toList_some, List.filter_singleton, decide_true]
        exact .cons valued later
      · rw [if_neg (by simp [counts])]
        have skipped : first.toList.filter (fun pair => decide (pair.1 = referral)) = [] := by
          refine List.filter_eq_nil_iff.mpr fun pair member => ?_
          simpa using none pair (Option.mem_toList.mp member)
        rw [skipped]
        exact later

theorem find?_group (pairs : List (Address × PricedDeposit)) (referral : Address) :
    ((group pairs).find? referral).getD [] =
      (pairs.filter fun pair => decide (pair.1 = referral)).map (·.2) := by
  have append : ∀ (pairs : List (Address × PricedDeposit)) (before : List PricedDeposit),
      pairs.foldl (fun ds pair => ds ++ [pair.2]) before = before ++ pairs.map (·.2) := by
    intro pairs
    induction pairs with
    | nil => simp
    | cons pair rest ih => intro before; simp [ih]
  have grouped := Table.find?_foldl_group (fun pair : Address × PricedDeposit => pair.1)
    (fun _ => []) (fun ds pair => ds ++ [pair.2]) pairs .empty referral
  change (((pairs.foldl _ _) : Table Address (List PricedDeposit)).find? referral).getD [] = _
  refine (congrArg (·.getD []) grouped).trans ?_
  split
  · next none => rw [none]; rfl
  · exact append _ []

/-! ## Running totals -/

/-- The last of some running totals, or those before them if there are none. -/
def lastTotal (start : ReferralVolume) (points : List VolumePoint) : ReferralVolume :=
  (points.getLast?.map (·.total)).getD start

theorem lastTotal_cons (start : ReferralVolume) (point : VolumePoint) (points : List VolumePoint) :
    lastTotal start (point :: points) = lastTotal point.total points := by
  unfold lastTotal
  rw [List.getLast?_cons]
  cases points.getLast? with
  | none => rfl
  | some last => rfl

theorem upTo_eq_lastTotal (index : VolumeIndex) (referral : Address) (instant : Instant) :
    index.upTo referral instant = lastTotal ⟨0, 0⟩
      (((index.points.find? referral).getD []).takeWhile
        fun p => decide (p.instant ≤ instant)) := by
  unfold upTo lastTotal
  dsimp only
  split
  · next point last => rw [last]; rfl
  · next none => rw [none]; rfl

theorem lastTotal_runningTotals (values : List PricedDeposit) {seen : List Address}
    (distinct : seen.Nodup) (volume : Decimal) :
    lastTotal ⟨seen.length, volume⟩ (runningTotals seen volume values) =
      ⟨(seen.toFinset ∪ (values.map (·.depositor)).toFinset).card,
        (values.map (·.usdVolume)).foldl (· + ·) volume⟩ := by
  induction values generalizing seen volume with
  | nil => simp [runningTotals, lastTotal, List.toFinset_card_of_nodup distinct]
  | cons d rest ih =>
      have known : ∃ next : List Address, next.Nodup ∧
          (if seen.contains d.depositor then seen else d.depositor :: seen) = next ∧
          next.toFinset = insert d.depositor seen.toFinset := by
        by_cases old : d.depositor ∈ seen
        · exact ⟨seen, distinct, by simp [old], by simp [old]⟩
        · exact ⟨d.depositor :: seen, List.nodup_cons.mpr ⟨old, distinct⟩, by simp [old],
            List.toFinset_cons⟩
      obtain ⟨next, nextDistinct, isNext, members⟩ := known
      rw [runningTotals, isNext, lastTotal_cons, ih nextDistinct, members]
      simp [Finset.insert_union, Finset.union_insert]

/-- The running totals up to an instant are those over the deposits up to the instant. -/
theorem takeWhile_runningTotals (instant : Instant) (values : List PricedDeposit)
    (seen : List Address) (volume : Decimal) :
    (runningTotals seen volume values).takeWhile (fun p => decide (p.instant ≤ instant)) =
      runningTotals seen volume (values.takeWhile fun v => decide (v.depositDate ≤ instant)) := by
  induction values generalizing seen volume with
  | nil => rfl
  | cons d rest ih =>
      by_cases early : d.depositDate ≤ instant
      · simp [runningTotals, early, ih]
      · simp [runningTotals, early]

/-! ## Sorting -/

instance : Std.TransOrd Instant := inferInstanceAs (Std.TransCmp (compareOn Instant.nanos))

theorem notAfter_eq (a b : PricedDeposit) :
    notAfter a b = (compareLex (compareOn (·.depositDate)) (compareOn (·.key)) a b).isLE := by
  unfold notAfter compareLex compareOn
  cases compare a.depositDate b.depositDate <;> rfl

theorem notAfter_trans (a b c : PricedDeposit) (first : notAfter a b = true)
    (second : notAfter b c = true) : notAfter a c = true := by
  rw [notAfter_eq] at first second ⊢
  exact Std.TransCmp.isLE_trans first second

theorem notAfter_total (a b : PricedDeposit) : (notAfter a b || notAfter b a) = true := by
  rw [notAfter_eq, notAfter_eq, Bool.or_eq_true]
  cases order : compareLex (compareOn (·.depositDate)) (compareOn (·.key)) a b with
  | lt => exact .inl rfl
  | eq => exact .inl rfl
  | gt => exact .inr (by rw [Std.OrientedCmp.lt_of_gt order]; rfl)

theorem depositDate_le_of_notAfter {a b : PricedDeposit} (h : notAfter a b = true) :
    a.depositDate ≤ b.depositDate := by
  unfold notAfter at h
  cases order : compare a.depositDate b.depositDate with
  | lt => exact Int.le_of_lt (Int.compare_eq_lt.mp order)
  | eq => exact Int.le_of_eq (Int.compare_eq_eq.mp order)
  | gt => rw [order] at h; cases h

theorem takeWhile_mergeSort (instant : Instant) (values : List PricedDeposit) :
    ((values.mergeSort notAfter).takeWhile fun v => decide (v.depositDate ≤ instant)) =
      (values.mergeSort notAfter).filter fun v => decide (v.depositDate ≤ instant) := by
  have order := List.pairwise_mergeSort notAfter_trans notAfter_total values
  generalize values.mergeSort notAfter = sorted at order ⊢
  induction sorted with
  | nil => rfl
  | cons v rest ih =>
      obtain ⟨first, rest⟩ := List.pairwise_cons.mp order
      by_cases early : v.depositDate ≤ instant
      · rw [List.takeWhile_cons, List.filter_cons, if_pos (decide_eq_true early),
          if_pos (decide_eq_true early), ih rest]
      · rw [List.takeWhile_cons, if_neg (by simpa using early), eq_comm, List.filter_eq_nil_iff]
        intro other member isEarly
        refine early ?_
        rcases List.mem_cons.mp member with rfl | later
        · exact of_decide_eq_true isEarly
        · exact Int.le_trans (depositDate_le_of_notAfter (first other later))
            (of_decide_eq_true isEarly)

/-! ## The index -/

/-- The totals of a referrer up to an instant are those over the values that are paired with the
referrer and not later. -/
theorem upTo_eq_ofValues {index : VolumeIndex} (h : build deposits claimed = .ok index)
    (isCounted : counted claimed deposits = .ok pairs) (referral : Address) (instant : Instant) :
    index.upTo referral instant =
      .ofValues (((pairs.filter fun pair => decide (pair.1 = referral)).map (·.2)).filter
        fun v => decide (v.depositDate ≤ instant)) := by
  obtain ⟨others, isOthers, h⟩ := Outcome.bind_eq_ok.mp h
  obtain rfl : pairs = others := Except.ok.inj (isCounted.symm.trans isOthers)
  obtain rfl := Except.ok.inj h
  generalize values : (pairs.filter fun pair => decide (pair.1 = referral)).map (·.2) = vs
  have points : (((group pairs).mapValues fun ds =>
      runningTotals [] 0 (ds.mergeSort notAfter)).find? referral).getD [] =
      runningTotals [] 0 (vs.mergeSort notAfter) := by
    rw [← values, ← find?_group, Table.find?_mapValues]
    cases (group pairs).find? referral with
    | none => simp [runningTotals]
    | some ds => rfl
  have start : (⟨0, 0⟩ : ReferralVolume) = ⟨([] : List Address).length, 0⟩ := rfl
  rw [upTo_eq_lastTotal, points, takeWhile_runningTotals, start,
    lastTotal_runningTotals _ List.nodup_nil, takeWhile_mergeSort, List.toFinset_nil,
    Finset.empty_union, List.card_toFinset]
  exact ReferralVolume.ofValues_perm ((List.mergeSort_perm vs notAfter).filter _)

/-- **The index counts.**  Up to an instant a referrer has brought what one counts over the
deposits with fees that count for the referrer and were made no later. -/
theorem upTo_of_build {index : VolumeIndex} (h : build deposits claimed = .ok index)
    (referral : Address) (instant : Instant) :
    ∃ values, List.Forall₂ Deposit.Valued
        (deposits.filter fun d =>
          d.countsFor referral (claimed.of referral) && d.fees.isSome && d.madeBy instant) values ∧
      index.upTo referral instant = .ofValues values := by
  obtain ⟨pairs, isCounted, -⟩ := Outcome.bind_eq_ok.mp h
  refine ⟨_, ?_, upTo_eq_ofValues h isCounted referral instant⟩
  have all := forall₂_counted isCounted referral
  have dates : ∀ d values, Deposit.Valued d values →
      (d.madeBy instant = true ↔ decide (values.depositDate ≤ instant) = true) := by
    intro d values valued
    rw [(PricedDeposit.of_ofDeposit valued).2.2.2.2]
    rfl
  have early := List.rel_filter (fun d values valued => dates d values valued) all
  rw [List.filter_filter] at early
  simpa only [Bool.and_comm] using early

end VolumeIndex

end BridgeRewards
