import BridgeRewards.Proofs.Deposit.Readable
import BridgeRewards.Proofs.Reward.Volume

/-!
# The index as a definition

An index can be built over any list of deposits whose numbers are well formed where they matter,
that is in the filled deposits with prices and fees that count for a referrer
(`exists_counted_iff`).  It then answers every question about a referrer and an instant as the
definition does that goes through the list once (`VolumeIndex.Answers`), and the order of the list
does not matter (`upTo_eq_of_perm`).
-/

set_option autoImplicit false

namespace BridgeRewards

/-- What some deposits come to: the number of their different depositors and the exact sum of
their dollars. -/
def ReferralVolume.SumsUp (reached : ReferralVolume) (deposits : List Deposit) : Prop :=
  reached.count = (deposits.map (·.depositor)).dedup.length ∧
    reached.volume.value = (deposits.map Deposit.dollars).sum

namespace VolumeIndex

variable {claimed : ClaimedWindows} {deposits others : List Deposit}
  {pairs : List (Address × PricedDeposit)} {index : VolumeIndex}

/-! ## When an index can be built -/

/-- The outcome for a deposit is known unless it counts for a referrer and has a malformed
number. -/
theorem exists_counted?_iff {d : Deposit} :
    (∃ outcome, counted? claimed d = .ok outcome) ↔
      ∀ referral, d.countsFor referral (claimed.of referral) = true → d.fees.isSome = true →
        d.isReadable = true := by
  constructor
  · rintro ⟨outcome, h⟩ referral counts charged
    rcases of_counted? h referral with ⟨-, values, -, valued⟩ | ⟨uncounted, -⟩
    · obtain ⟨filled, priced, -⟩ := PricedDeposit.of_ofDeposit valued
      exact (PricedDeposit.exists_valued_iff filled priced charged).mp ⟨values, valued⟩
    · simp [counts, charged] at uncounted
  · intro readable
    unfold counted?
    cases sticky : d.stickyReferralAddress with
    | none => exact ⟨_, rfl⟩
    | some referral =>
        dsimp only
        split
        · next counts =>
            obtain ⟨filled, unpaid⟩ := Bool.and_eq_true_iff.mp counts
            by_cases complete : d.isPriced = true ∧ d.fees.isSome = true
            · obtain ⟨priced, charged⟩ := complete
              have counts : d.countsFor referral (claimed.of referral) = true := by
                simp [Deposit.countsFor, Deposit.referredBy, sticky, filled, priced, unpaid]
              obtain ⟨values, valued⟩ :=
                (PricedDeposit.exists_valued_iff filled priced charged).mpr
                  (readable referral counts charged)
              exact ⟨_, Outcome.map_eq_ok.mpr ⟨_, valued, rfl⟩⟩
            · exact ⟨_, Outcome.map_eq_ok.mpr
                ⟨none, PricedDeposit.ofDeposit_of_incomplete complete, rfl⟩⟩
        · exact ⟨_, rfl⟩

theorem exists_counted_iff :
    (∃ pairs, counted claimed deposits = .ok pairs) ↔
      ∀ d ∈ deposits, ∃ outcome, counted? claimed d = .ok outcome := by
  induction deposits with
  | nil => simp [counted]
  | cons d rest ih =>
      rw [List.forall_mem_cons, ← ih]
      constructor
      · rintro ⟨pairs, h⟩
        obtain ⟨first, isFirst, h⟩ := Outcome.bind_eq_ok.mp h
        obtain ⟨later, isLater, -⟩ := Outcome.bind_eq_ok.mp h
        exact ⟨⟨first, isFirst⟩, later, isLater⟩
      · rintro ⟨⟨first, isFirst⟩, later, isLater⟩
        exact ⟨_, Outcome.bind_eq_ok.mpr ⟨first, isFirst,
          Outcome.bind_eq_ok.mpr ⟨later, isLater, rfl⟩⟩⟩

/-- An index is built exactly from deposits whose numbers are well formed where they count. -/
theorem exists_build_iff :
    (∃ index, build deposits claimed = .ok index) ↔
      ∀ d ∈ deposits, ∀ referral, d.countsFor referral (claimed.of referral) = true →
        d.fees.isSome = true → d.isReadable = true := by
  simp only [← exists_counted?_iff]
  rw [← exists_counted_iff]
  unfold build
  constructor
  · rintro ⟨index, h⟩
    obtain ⟨pairs, isCounted, -⟩ := Outcome.bind_eq_ok.mp h
    exact ⟨pairs, isCounted⟩
  · rintro ⟨pairs, isCounted⟩
    exact ⟨_, Outcome.bind_eq_ok.mpr ⟨pairs, isCounted, rfl⟩⟩

/-! ## The order of the deposits -/

theorem counted_perm (perm : deposits.Perm others) (h : counted claimed deposits = .ok pairs) :
    ∃ otherPairs, counted claimed others = .ok otherPairs ∧ pairs.Perm otherPairs := by
  induction perm generalizing pairs with
  | nil => exact ⟨pairs, h, .refl pairs⟩
  | cons d _ ih =>
      obtain ⟨first, isFirst, h⟩ := Outcome.bind_eq_ok.mp h
      obtain ⟨later, isLater, h⟩ := Outcome.bind_eq_ok.mp h
      obtain rfl := Except.ok.inj h
      obtain ⟨otherLater, isOther, perm⟩ := ih isLater
      exact ⟨_, Outcome.bind_eq_ok.mpr ⟨first, isFirst,
        Outcome.bind_eq_ok.mpr ⟨otherLater, isOther, rfl⟩⟩, perm.append_left _⟩
  | swap d e rest =>
      obtain ⟨first, isFirst, h⟩ := Outcome.bind_eq_ok.mp h
      obtain ⟨tail, isTail, h⟩ := Outcome.bind_eq_ok.mp h
      obtain rfl := Except.ok.inj h
      obtain ⟨second, isSecond, h⟩ := Outcome.bind_eq_ok.mp isTail
      obtain ⟨later, isLater, h⟩ := Outcome.bind_eq_ok.mp h
      obtain rfl := Except.ok.inj h
      refine ⟨second.toList ++ (first.toList ++ later), ?_, ?_⟩
      · exact Outcome.bind_eq_ok.mpr ⟨second, isSecond, Outcome.bind_eq_ok.mpr
          ⟨_, Outcome.bind_eq_ok.mpr ⟨first, isFirst,
            Outcome.bind_eq_ok.mpr ⟨later, isLater, rfl⟩⟩, rfl⟩⟩
      · rw [← List.append_assoc, ← List.append_assoc]
        exact List.perm_append_comm.append_right later
  | trans _ _ first second =>
      obtain ⟨between, isBetween, perm⟩ := first h
      obtain ⟨otherPairs, isOther, otherPerm⟩ := second isBetween
      exact ⟨otherPairs, isOther, perm.trans otherPerm⟩

theorem upTo_eq_of_perm (perm : deposits.Perm others) (h : build deposits claimed = .ok index) :
    ∃ other, build others claimed = .ok other ∧
      ∀ referral instant, other.upTo referral instant = index.upTo referral instant := by
  obtain ⟨pairs, isCounted, -⟩ := Outcome.bind_eq_ok.mp h
  obtain ⟨otherPairs, isOther, permuted⟩ := counted_perm perm isCounted
  have built : build others claimed = .ok _ := Outcome.bind_eq_ok.mpr ⟨otherPairs, isOther, rfl⟩
  refine ⟨_, built, fun referral instant => ?_⟩
  rw [upTo_eq_ofValues built isOther, upTo_eq_ofValues h isCounted]
  exact ReferralVolume.ofValues_perm (((permuted.symm.filter _).map _).filter _)

/-! ## What an index answers -/

/-- The deposits that count for a referrer up to an instant. -/
def counting (deposits : List Deposit) (claimed : ClaimedWindows) (referral : Address)
    (instant : Instant) : List Deposit :=
  deposits.filter fun d =>
    d.countsFor referral (claimed.of referral) && d.fees.isSome && d.madeBy instant

/-- An index answers as one does who goes through some deposits and sums up those that count. -/
def Answers (index : VolumeIndex) (deposits : List Deposit) (claimed : ClaimedWindows) : Prop :=
  ∀ referral instant,
    (index.upTo referral instant).SumsUp (counting deposits claimed referral instant)

theorem answers_of_build (h : build deposits claimed = .ok index) :
    index.Answers deposits claimed := by
  intro referral instant
  obtain ⟨values, valued, answer⟩ := upTo_of_build h referral instant
  change List.Forall₂ _ (counting deposits claimed referral instant) values at valued
  have depositors := Outcome.map_eq_map valued (f := (·.depositor)) (g := (·.depositor))
    fun d values isValue => (PricedDeposit.of_ofDeposit isValue).2.2.2.1.symm
  have dollars := Outcome.map_eq_map valued (f := Deposit.dollars) (g := (·.usdVolume.value))
    fun d values isValue => (PricedDeposit.value_usdVolume_of_valued isValue).symm
  rw [answer, ReferralVolume.SumsUp, depositors, dollars]
  refine ⟨rfl, ?_⟩
  rw [ReferralVolume.ofValues, Decimal.value_sum, List.map_map]
  rfl

/-- **The index agrees with its definition.**  If the numbers of the deposits that count are well
formed then an index is built, it answers every question by the definition, and over any
permutation of the deposits an index is built that answers alike; otherwise none is built. -/
theorem build_agrees (deposits : List Deposit) (claimed : ClaimedWindows) :
    ((∀ d ∈ deposits, ∀ referral, d.countsFor referral (claimed.of referral) = true →
        d.fees.isSome = true → d.isReadable = true) →
      ∃ index, build deposits claimed = .ok index ∧ index.Answers deposits claimed ∧
        ∀ others, deposits.Perm others → ∃ other, build others claimed = .ok other ∧
          ∀ referral instant, other.upTo referral instant = index.upTo referral instant) ∧
    ((∃ d ∈ deposits, ∃ referral, d.countsFor referral (claimed.of referral) = true ∧
        d.fees.isSome = true ∧ d.isReadable = false) →
      ∃ e, build deposits claimed = .error e) := by
  constructor
  · intro readable
    obtain ⟨index, built⟩ := exists_build_iff.mpr readable
    exact ⟨index, built, answers_of_build built, fun others perm => upTo_eq_of_perm perm built⟩
  · rintro ⟨d, member, referral, counts, charged, unreadable⟩
    cases built : build deposits claimed with
    | error e => exact ⟨e, rfl⟩
    | ok index =>
        have readable := exists_build_iff.mp ⟨index, built⟩ d member referral counts charged
        rw [unreadable] at readable
        cases readable

end VolumeIndex

end BridgeRewards
