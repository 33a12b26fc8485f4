import BridgeRewards.Ledger.Claims
import BridgeRewards.Proofs.Table
import Mathlib.Data.List.Induction
import Mathlib.Data.List.Pairwise

/-!
# Who has claimed what

An account has claimed from a window exactly if a claim says so (`hasClaimed_iff`), and the
windows that a ledger names for an account are those from which it has claimed.  They are listed in
order, provided that every claim stands at its own place, and so the last of them is the latest
(`ClaimsPlaced.exists_latest`).
-/

set_option autoImplicit false

namespace BridgeRewards.Ledger

variable {ledger : Ledger} {account : Address} {index : Nat}

theorem hasClaimed_iff :
    ledger.hasClaimed account index = true ↔
      ∃ key claim, ledger.claims.find? key = some claim ∧ claim.account = account ∧
        claim.windowIndex = index := by
  unfold hasClaimed claimedBy claimsBy
  rw [List.contains_iff_mem, List.mem_eraseDups, List.mem_map]
  constructor
  · rintro ⟨claim, member, sameIndex⟩
    obtain ⟨isValue, same⟩ := List.mem_filter.mp member
    obtain ⟨key, found⟩ := Table.mem_values.mp isValue
    exact ⟨key, claim, found, beq_iff_eq.mp same, sameIndex⟩
  · rintro ⟨key, claim, found, same, sameIndex⟩
    exact ⟨claim, List.mem_filter.mpr ⟨Table.mem_values.mpr ⟨key, found⟩, beq_iff_eq.mpr same⟩,
      sameIndex⟩

theorem of_claimedWindows (ledger : Ledger) (account : Address) :
    ledger.claimedWindows.of account = ledger.claimedBy account := by
  have agree : ∀ a ∈ ledger.claims.values, ∀ b ∈ ledger.claims.values, a.account = b.account →
      ledger.claimedBy a.account = ledger.claimedBy b.account :=
    fun a _ b _ same => congrArg ledger.claimedBy same
  have written := Table.find?_foldl_insert (fun claim : Claim => claim.account)
    (fun claim => ledger.claimedBy claim.account) agree .empty account
  unfold ClaimedWindows.of claimedWindows Table.ofList
  rw [List.foldl_map, written, Table.find?_empty, Option.or_none]
  cases found : ledger.claims.values.find? fun claim => decide (claim.account = account) with
  | none =>
      have none : ledger.claimsBy account = [] :=
        List.filter_eq_nil_iff.mpr fun claim member same =>
          List.find?_eq_none.mp found claim member (by simpa using same)
      rw [claimedBy, none]
      rfl
  | some claim =>
      have same : claim.account = account := by simpa using List.find?_some found
      rw [← same]
      rfl

/-! ## The latest window -/

/-- Every claim stands at its own place. -/
def ClaimsPlaced (ledger : Ledger) : Prop :=
  ∀ place claim, ledger.claims.find? place = some claim → claim.key = place

/-- The claims of an account are in order of their windows: places are in order of windows first,
and a claim names the window of its place. -/
theorem ClaimsPlaced.pairwise_claimsBy (placed : ledger.ClaimsPlaced) (account : Address) :
    ((ledger.claimsBy account).map (·.windowIndex)).Pairwise (· ≤ ·) := by
  have rows : ledger.claims.rows.Pairwise fun a b => a.2.windowIndex ≤ b.2.windowIndex := by
    refine ledger.claims.increasing.imp_of_mem fun {a b} isA isB less => ?_
    have own : ∀ row ∈ ledger.claims.rows, row.2.windowIndex = row.1.1 := fun row member =>
      congrArg Prod.fst (placed _ _ ((Table.find?_eq_some_iff _ _ _).mpr member))
    rw [own a isA, own b isB]
    rw [compare_pair, Ordering.then_eq_lt] at less
    rcases less with less | ⟨same, -⟩
    · exact Nat.le_of_lt (Nat.compare_eq_lt.mp less)
    · exact Nat.le_of_eq (Nat.compare_eq_eq.mp same)
  unfold claimsBy Table.values
  exact ((rows.map Prod.snd fun _ _ le => le).filter _).map _ fun _ _ le => le

theorem ClaimsPlaced.pairwise_claimedBy (placed : ledger.ClaimsPlaced) (account : Address) :
    (ledger.claimedBy account).Pairwise (· ≤ ·) := by
  have order := placed.pairwise_claimsBy account
  unfold claimedBy
  generalize (ledger.claimsBy account).map (·.windowIndex) = windows at order ⊢
  induction windows using List.reverseRecOn with
  | nil => exact .nil
  | append_singleton earlier last ih =>
      obtain ⟨before, -, le⟩ := List.pairwise_append.mp order
      rw [List.eraseDups_append]
      refine List.pairwise_append.mpr ⟨ih before, ?_, fun a isA b isB => ?_⟩
      · by_cases again : last ∈ earlier <;> simp [List.removeAll, List.eraseDups_cons, again]
      · exact le a (List.mem_eraseDups.mp isA) b (List.mem_of_mem_filter (List.mem_eraseDups.mp isB))

/-- The latest window from which an account has claimed is as late as any of them. -/
theorem ClaimsPlaced.exists_latest (placed : ledger.ClaimsPlaced)
    (claimed : ledger.hasClaimed account index = true) :
    ∃ latest, ledger.latestClaimed? account = some latest ∧ index ≤ latest := by
  have member : index ∈ ledger.claimedBy account := List.contains_iff_mem.mp claimed
  have nonempty := List.ne_nil_of_mem member
  exact ⟨_, List.getLast?_eq_some_getLast nonempty,
    (placed.pairwise_claimedBy account).rel_getLast member⟩

/-! ## All that is asked -/

/-- Whatever is asked about claims, the answer is that an account has claimed from a window. -/
structure ClaimKnown (ledger : Ledger) (account : Address) (index : Nat) : Prop where
  hasClaimed : ledger.hasClaimed account index = true
  listed : index ∈ ledger.claimedBy account
  latest : ∃ latest, ledger.latestClaimed? account = some latest ∧ index ≤ latest
  mapped : index ∈ ledger.claimedWindows.of account

theorem ClaimsPlaced.claimKnown (placed : ledger.ClaimsPlaced)
    (claimed : ledger.hasClaimed account index = true) : ledger.ClaimKnown account index := by
  have listed : index ∈ ledger.claimedBy account := List.contains_iff_mem.mp claimed
  exact ⟨claimed, listed, placed.exists_latest claimed, by rwa [of_claimedWindows]⟩

end BridgeRewards.Ledger
