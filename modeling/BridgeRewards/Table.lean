import BridgeRewards.Order

/-!
# Tables

A table holds rows by key.  Its rows are in increasing order of the keys, each key at most once,
and that is part of the type; so a table is determined by what `find?` answers (`Table.ext`), and
the rows are listed in key order.  Each operation is characterised by its effect on `find?`.
-/

set_option autoImplicit false

namespace BridgeRewards

/-- Whether the keys of some rows increase strictly. -/
def Increasing {κ ν : Type} [Ord κ] (rows : List (κ × ν)) : Prop :=
  rows.Pairwise fun a b => compare a.1 b.1 = .lt

/-- Rows by key, in increasing order of the keys. -/
structure Table (κ ν : Type) [Ord κ] where
  rows : List (κ × ν)
  increasing : Increasing rows

namespace Table

variable {κ ν : Type} [Ord κ]

/-- The row of a key among some rows. -/
def findRow (key : κ) : List (κ × ν) → Option ν
  | [] => none
  | (k, v) :: rest => if compare key k = .eq then some v else findRow key rest

/-- The rows with one of them put at its place; a row of the same key is replaced. -/
def putRow (key : κ) (value : ν) : List (κ × ν) → List (κ × ν)
  | [] => [(key, value)]
  | (k, v) :: rest =>
    match compare key k with
    | .lt => (key, value) :: (k, v) :: rest
    | .eq => (key, value) :: rest
    | .gt => (k, v) :: putRow key value rest

/-- The table without rows. -/
def empty : Table κ ν := ⟨[], List.Pairwise.nil⟩

instance : EmptyCollection (Table κ ν) := ⟨empty⟩

instance : Inhabited (Table κ ν) := ⟨empty⟩

/-- The row of a key. -/
def find? (table : Table κ ν) (key : κ) : Option ν := findRow key table.rows

/-- Whether a key has a row. -/
def contains (table : Table κ ν) (key : κ) : Bool := (table.find? key).isSome

/-- The rows without their keys, in key order. -/
def values (table : Table κ ν) : List ν := table.rows.map (·.2)

/-- The keys, in order. -/
def keys (table : Table κ ν) : List κ := table.rows.map (·.1)

/-- The number of rows. -/
def size (table : Table κ ν) : Nat := table.rows.length

/-- The table without the row of a key. -/
def erase (table : Table κ ν) (key : κ) : Table κ ν where
  rows := table.rows.filter fun row => compare key row.1 != .eq
  increasing := table.increasing.filter _

/-- The table with every row replaced by a function of it. -/
def mapValues {μ : Type} (table : Table κ ν) (f : ν → μ) : Table κ μ where
  rows := table.rows.map fun row => (row.1, f row.2)
  increasing := by simpa [Increasing, List.pairwise_map] using table.increasing

theorem findRow_map {μ : Type} (f : ν → μ) (key : κ) (rows : List (κ × ν)) :
    findRow key (rows.map fun row => (row.1, f row.2)) = (findRow key rows).map f := by
  induction rows with
  | nil => rfl
  | cons head rest ih =>
    obtain ⟨k, v⟩ := head
    simp only [List.map_cons, findRow]
    split
    · rfl
    · exact ih

theorem find?_mapValues {μ : Type} (table : Table κ ν) (f : ν → μ) (key : κ) :
    (table.mapValues f).find? key = (table.find? key).map f :=
  findRow_map f key table.rows

theorem mem_putRow {key : κ} {value : ν} {rows : List (κ × ν)} {row : κ × ν}
    (h : row ∈ putRow key value rows) : row = (key, value) ∨ row ∈ rows := by
  induction rows with
  | nil => simpa [putRow] using h
  | cons head rest ih =>
    obtain ⟨k, v⟩ := head
    simp only [putRow] at h
    split at h
    · simpa using h
    · rcases List.mem_cons.1 h with h | h
      · exact .inl h
      · exact .inr (List.mem_cons_of_mem _ h)
    · rcases List.mem_cons.1 h with h | h
      · exact .inr (h ▸ List.mem_cons_self)
      · exact (ih h).imp_right (List.mem_cons_of_mem _)

variable [Std.TransOrd κ] [Std.LawfulEqOrd κ]

theorem increasing_putRow {key : κ} {value : ν} {rows : List (κ × ν)} (h : Increasing rows) :
    Increasing (putRow key value rows) := by
  induction rows with
  | nil => exact List.pairwise_singleton _ _
  | cons head rest ih =>
    obtain ⟨k, v⟩ := head
    have hrest := List.pairwise_cons.1 h
    simp only [putRow]
    split
    · next hlt =>
      refine List.pairwise_cons.2 ⟨fun row hrow => ?_, h⟩
      rcases List.mem_cons.1 hrow with rfl | hrow
      · exact hlt
      · exact Std.TransCmp.lt_trans hlt (hrest.1 row hrow)
    · next heq =>
      have : key = k := Std.LawfulEqOrd.eq_of_compare heq
      subst this
      exact List.pairwise_cons.2 ⟨hrest.1, hrest.2⟩
    · next hgt =>
      refine List.pairwise_cons.2 ⟨fun row hrow => ?_, ih hrest.2⟩
      rcases mem_putRow hrow with rfl | hrow
      · exact Std.OrientedCmp.lt_of_gt hgt
      · exact hrest.1 row hrow

/-- The table with a row put at its key; a row of the same key is replaced. -/
def insert (table : Table κ ν) (key : κ) (value : ν) : Table κ ν :=
  ⟨putRow key value table.rows, increasing_putRow table.increasing⟩

/-- The table of a list of rows; of two rows with one key the later one counts. -/
def ofList (rows : List (κ × ν)) : Table κ ν :=
  rows.foldl (fun table row => table.insert row.1 row.2) empty

/-! ## What each operation does to `find?` -/

omit [Std.TransOrd κ] [Std.LawfulEqOrd κ] in
@[simp] theorem find?_empty (key : κ) : (empty : Table κ ν).find? key = none := rfl

omit [Std.TransOrd κ] in
theorem findRow_putRow [DecidableEq κ] (key other : κ) (value : ν) (rows : List (κ × ν)) :
    findRow other (putRow key value rows) =
      if other = key then some value else findRow other rows := by
  induction rows with
  | nil =>
    by_cases h : other = key
    · subst h; simp [putRow, findRow, Std.compare_self]
    · simp [putRow, findRow, h]
  | cons head rest ih =>
    obtain ⟨k, v⟩ := head
    simp only [putRow]
    split
    · by_cases h : other = key
      · subst h; simp [findRow, Std.compare_self]
      · simp [findRow, h]
    · next heq =>
      have : key = k := Std.LawfulEqOrd.eq_of_compare heq
      subst this
      by_cases h : other = key
      · subst h; simp [findRow, Std.compare_self]
      · simp [findRow, h]
    · next hgt =>
      by_cases h : other = key
      · subst h
        have hne : compare other k ≠ .eq := by rw [hgt]; decide
        rw [findRow, if_neg hne, ih, if_pos rfl, if_pos rfl]
      · rw [findRow, findRow, ih, if_neg h, if_neg h]

theorem find?_insert [DecidableEq κ] (table : Table κ ν) (key other : κ) (value : ν) :
    (table.insert key value).find? other = if other = key then some value else table.find? other :=
  findRow_putRow key other value table.rows

theorem find?_insert_self (table : Table κ ν) (key : κ) (value : ν) :
    (table.insert key value).find? key = some value := by
  classical rw [find?_insert, if_pos rfl]

omit [Std.TransOrd κ] in
theorem findRow_filter [DecidableEq κ] (key other : κ) (rows : List (κ × ν)) :
    findRow other (rows.filter fun row => compare key row.1 != .eq) =
      if other = key then none else findRow other rows := by
  induction rows with
  | nil => simp [findRow]
  | cons head rest ih =>
    obtain ⟨k, v⟩ := head
    by_cases hk : compare key k = .eq
    · have : key = k := Std.LawfulEqOrd.eq_of_compare hk
      subst this
      rw [List.filter_cons_of_neg (by simp), ih]
      by_cases h : other = key
      · simp [h]
      · simp [findRow, h]
    · rw [List.filter_cons_of_pos (by simpa using hk), findRow, ih]
      by_cases h : other = key
      · subst h; simp [hk]
      · simp [findRow, h]

omit [Std.TransOrd κ] in
theorem find?_erase [DecidableEq κ] (table : Table κ ν) (key other : κ) :
    (table.erase key).find? other = if other = key then none else table.find? other :=
  findRow_filter key other table.rows

/-! ## Tables as functions -/

theorem findRow_eq_some_of_mem {rows : List (κ × ν)} (h : Increasing rows) {key : κ} {value : ν}
    (hmem : (key, value) ∈ rows) : findRow key rows = some value := by
  induction rows with
  | nil => cases hmem
  | cons head rest ih =>
    obtain ⟨k, v⟩ := head
    have hrest := List.pairwise_cons.1 h
    rcases List.mem_cons.1 hmem with heq | hmem
    · cases heq; simp [findRow, Std.compare_self]
    · have hlt := hrest.1 _ hmem
      have hne : compare key k ≠ .eq := by
        rw [Std.OrientedCmp.gt_of_lt hlt]; decide
      rw [findRow, if_neg hne, ih hrest.2 hmem]

omit [Std.TransOrd κ] in
theorem mem_of_findRow_eq_some {rows : List (κ × ν)} {key : κ} {value : ν}
    (h : findRow key rows = some value) : (key, value) ∈ rows := by
  induction rows with
  | nil => cases h
  | cons head rest ih =>
    obtain ⟨k, v⟩ := head
    rw [findRow] at h
    split at h
    · next heq =>
      have : key = k := Std.LawfulEqOrd.eq_of_compare heq
      cases h; subst this; exact List.mem_cons_self
    · exact List.mem_cons_of_mem _ (ih h)

/-- A table holds a row at a key exactly when it lists the row. -/
theorem find?_eq_some_iff (table : Table κ ν) (key : κ) (value : ν) :
    table.find? key = some value ↔ (key, value) ∈ table.rows :=
  ⟨mem_of_findRow_eq_some, findRow_eq_some_of_mem table.increasing⟩

/-- Two lists of rows in increasing order with the same members are equal. -/
theorem eq_of_mem_iff {xs ys : List (κ × ν)} (hx : Increasing xs) (hy : Increasing ys)
    (h : ∀ row, row ∈ xs ↔ row ∈ ys) : xs = ys := by
  induction xs generalizing ys with
  | nil =>
    cases ys with
    | nil => rfl
    | cons b bs => exact absurd ((h b).2 List.mem_cons_self) (by simp)
  | cons a as ih =>
    cases ys with
    | nil => exact absurd ((h a).1 List.mem_cons_self) (by simp)
    | cons b bs =>
      have hxs := List.pairwise_cons.1 hx
      have hys := List.pairwise_cons.1 hy
      have irrefl : ∀ k : κ, compare k k ≠ .lt := fun k => by
        rw [Std.compare_self]; decide
      have hab : a = b := by
        rcases List.mem_cons.1 ((h a).1 List.mem_cons_self) with hab | hab
        · exact hab
        · rcases List.mem_cons.1 ((h b).2 List.mem_cons_self) with hba | hba
          · exact hba.symm
          · exact absurd (Std.TransCmp.lt_trans (hys.1 a hab) (hxs.1 b hba)) (irrefl _)
      subst hab
      refine congrArg (a :: ·) (ih hxs.2 hys.2 fun row => ⟨fun hr => ?_, fun hr => ?_⟩)
      · rcases List.mem_cons.1 ((h row).1 (List.mem_cons_of_mem _ hr)) with rfl | hr'
        · exact absurd (hxs.1 _ hr) (irrefl _)
        · exact hr'
      · rcases List.mem_cons.1 ((h row).2 (List.mem_cons_of_mem _ hr)) with rfl | hr'
        · exact absurd (hys.1 _ hr) (irrefl _)
        · exact hr'

/-- Tables that answer every key alike are equal. -/
theorem ext {s t : Table κ ν} (h : ∀ key, s.find? key = t.find? key) : s = t := by
  have hrows : s.rows = t.rows := eq_of_mem_iff s.increasing t.increasing fun row => by
    obtain ⟨k, v⟩ := row
    rw [← find?_eq_some_iff, ← find?_eq_some_iff, h]
  cases s; cases t; simp_all

end Table

end BridgeRewards
