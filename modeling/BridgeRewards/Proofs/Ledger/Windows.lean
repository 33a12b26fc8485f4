import BridgeRewards.Ledger.Basic
import BridgeRewards.Proofs.Table

/-!
# The windows of a line

The windows of a line are listed in the order of their indices, and so the last of them has the
highest index (`Placed.le_latest`), provided that every window stands at the place of its own index.
-/

set_option autoImplicit false

namespace BridgeRewards.Ledger

variable {ledger : Ledger} {line : Line} {index : Nat}

/-- Every window stands at the place of its own index. -/
def Placed (ledger : Ledger) : Prop :=
  ∀ place window, ledger.windows.find? place = some window → window.windowIndex = place.2

theorem mem_windowsOn {window : Window} :
    window ∈ ledger.windowsOn line ↔ ∃ index, ledger.windows.find? (line, index) = some window := by
  unfold windowsOn
  rw [List.mem_map]
  constructor
  · rintro ⟨⟨⟨other, index⟩, _⟩, member, rfl⟩
    obtain ⟨row, onLine⟩ := List.mem_filter.mp member
    obtain rfl : other = line := by simpa using onLine
    exact ⟨index, (Table.find?_eq_some_iff _ _ _).mpr row⟩
  · rintro ⟨index, found⟩
    have row := (Table.find?_eq_some_iff _ _ _).mp found
    exact ⟨_, List.mem_filter.mpr ⟨row, by simp⟩, rfl⟩

theorem hasWindow_eq_true :
    ledger.hasWindow line index = true ↔
      ∃ window, ledger.windows.find? (line, index) = some window :=
  Option.isSome_iff_exists

theorem compare_place {first second : Nat} :
    compare (line, first) (line, second) = .lt ↔ first < second := by
  rw [compare_pair, Std.compare_self]
  exact Nat.compare_eq_lt

/-- The last window of a line has the highest index. -/
theorem Placed.le_latest (placed : ledger.Placed) {latest : Window}
    (isLatest : (ledger.windowsOn line).getLast? = some latest)
    (held : ledger.hasWindow line index = true) : index ≤ latest.windowIndex := by
  obtain ⟨window, found⟩ := hasWindow_eq_true.mp held
  have rows : (ledger.windows.rows.filter (·.1.1 == line)).Pairwise fun a b =>
      compare a.1 b.1 = .lt := ledger.windows.increasing.filter _
  have row : ((line, index), window) ∈ ledger.windows.rows.filter (·.1.1 == line) :=
    List.mem_filter.mpr ⟨(Table.find?_eq_some_iff _ _ _).mp found, by simp⟩
  unfold windowsOn at isLatest
  rw [List.getLast?_map] at isLatest
  obtain ⟨⟨⟨other, last⟩, _⟩, isLast, rfl⟩ := Option.map_eq_some_iff.mp isLatest
  obtain ⟨front, split⟩ := List.getLast?_eq_some_iff.mp isLast
  have isRow := List.mem_filter.mp (List.mem_of_getLast? isLast)
  obtain rfl : other = line := by simpa using isRow.2
  have own := placed _ _ ((Table.find?_eq_some_iff _ _ _).mpr isRow.1)
  rw [own]
  rw [split] at rows row
  rcases List.mem_append.mp row with isEarlier | isLast
  · exact Nat.le_of_lt (compare_place.mp ((List.pairwise_append.mp rows).2.2 _ isEarlier _
      List.mem_cons_self))
  · rw [List.mem_singleton] at isLast
    cases isLast
    exact Nat.le_refl _

end BridgeRewards.Ledger
