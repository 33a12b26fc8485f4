import BridgeRewards.Table
import Mathlib.Data.List.Nodup

/-!
# More on tables

What the rows of a table say about its keys and values, what a table holds after a row is put at a
free key or many rows are put into it one after the other, and which rows can be put or erased in
either order.
-/

set_option autoImplicit false

namespace BridgeRewards.Table

variable {κ ν : Type} [Ord κ]

/-- A table has every row of another, at the same key. -/
def Extends (after before : Table κ ν) : Prop :=
  ∀ key value, before.find? key = some value → after.find? key = some value

theorem Extends.refl (table : Table κ ν) : table.Extends table := fun _ _ found => found

theorem Extends.trans {first second third : Table κ ν} (earlier : second.Extends first)
    (later : third.Extends second) : third.Extends first :=
  fun key value found => later key value (earlier key value found)

theorem values_mapValues {μ : Type} (table : Table κ ν) (f : ν → μ) :
    (table.mapValues f).values = table.values.map f := by
  simp [values, mapValues]

variable [Std.TransOrd κ] [Std.LawfulEqOrd κ]

theorem mem_values {table : Table κ ν} {value : ν} :
    value ∈ table.values ↔ ∃ key, table.find? key = some value := by
  constructor
  · intro member
    obtain ⟨⟨key, _⟩, row, rfl⟩ := List.mem_map.mp member
    exact ⟨key, (find?_eq_some_iff table key _).mpr row⟩
  · rintro ⟨key, found⟩
    exact List.mem_map.mpr ⟨(key, value), (find?_eq_some_iff table key value).mp found, rfl⟩

omit [Std.TransOrd κ] in
theorem nodup_keys (table : Table κ ν) : table.keys.Nodup := by
  refine List.Pairwise.map _ (fun a b less same => ?_) table.increasing
  rw [same, Std.compare_self] at less
  cases less

theorem mapValues_id (table : Table κ ν) : table.mapValues id = table := by
  refine ext fun key => ?_
  rw [find?_mapValues, Option.map_id_apply]

/-! ## Putting rows into a table -/

variable [DecidableEq κ] {ρ : Type}

theorem extends_insert {table : Table κ ν} {key : κ} {value : ν} (free : table.find? key = none) :
    (table.insert key value).Extends table := by
  intro other old found
  rw [find?_insert, if_neg, found]
  rintro rfl
  rw [free] at found
  cases found

/-- Where records with one key agree on their value, a table into which all of them are put holds
the value of any record with a key, or else what it held before. -/
theorem find?_foldl_insert (keyOf : ρ → κ) (valueOf : ρ → ν) {records : List ρ}
    (agree : ∀ a ∈ records, ∀ b ∈ records, keyOf a = keyOf b → valueOf a = valueOf b)
    (table : Table κ ν) (key : κ) :
    (records.foldl (fun table r => table.insert (keyOf r) (valueOf r)) table).find? key =
      ((records.find? fun r => decide (keyOf r = key)).map valueOf).or (table.find? key) := by
  induction records generalizing table with
  | nil => simp
  | cons r rest ih =>
      have agreeRest : ∀ a ∈ rest, ∀ b ∈ rest, keyOf a = keyOf b → valueOf a = valueOf b :=
        fun a isA b isB => agree a (List.mem_cons_of_mem _ isA) b (List.mem_cons_of_mem _ isB)
      rw [List.foldl_cons, ih agreeRest, find?_insert, List.find?_cons]
      by_cases here : keyOf r = key
      · rw [if_pos here.symm]
        simp only [here, decide_true, Option.map_some, Option.some_or]
        cases found : rest.find? fun r => decide (keyOf r = key) with
        | none => rfl
        | some other =>
            have same : keyOf other = key := by simpa using List.find?_some found
            have later : other ∈ r :: rest :=
              List.mem_cons_of_mem _ (List.mem_of_find?_eq_some found)
            rw [Option.map_some, Option.some_or,
              agree other later r List.mem_cons_self (same.trans here.symm)]
      · rw [if_neg (Ne.symm here)]
        simp [here]

section Own

variable {keyOf : ν → κ} {table : Table κ ν}
  (own : ∀ key value, table.find? key = some value → keyOf value = key)

include own

omit [DecidableEq κ] in
theorem find?_of_mem_values {value : ν} (member : value ∈ table.values) :
    table.find? (keyOf value) = some value := by
  obtain ⟨key, found⟩ := mem_values.mp member
  rw [own key value found, found]

/-- The value at a key is found among all values, where each of them stands at its own key. -/
theorem find?_values (key : κ) :
    (table.values.find? fun value => decide (keyOf value = key)) = table.find? key := by
  cases search : table.values.find? fun value => decide (keyOf value = key) with
  | some value =>
      have here : keyOf value = key := by simpa using List.find?_some search
      rw [← here, find?_of_mem_values own (List.mem_of_find?_eq_some search)]
  | none =>
      refine (Option.eq_none_iff_forall_not_mem.mpr fun value found => ?_).symm
      have member : value ∈ table.values := mem_values.mpr ⟨key, found⟩
      exact List.find?_eq_none.mp search value member (decide_eq_true (own key value found))

/-- Where each value stands at its own key, all of them can be changed one after the other. -/
theorem foldl_insert_values (f : ν → ν) :
    table.values.foldl (fun rows value => rows.insert (keyOf value) (f value)) table =
      table.mapValues f := by
  have agree : ∀ a ∈ table.values, ∀ b ∈ table.values, keyOf a = keyOf b → f a = f b := by
    intro a isA b isB same
    have found := find?_of_mem_values own isA
    rw [same, find?_of_mem_values own isB] at found
    rw [Option.some.inj found]
  refine ext fun key => ?_
  rw [find?_foldl_insert keyOf f agree, find?_values own, find?_mapValues]
  cases table.find? key <;> rfl

end Own

/-- Where each record is added to what the table holds at its key, the table holds at a key what
all records with that key, in their order, add up to. -/
theorem find?_foldl_group (keyOf : ρ → κ) (start : κ → ν) (add : ν → ρ → ν) (records : List ρ)
    (table : Table κ ν) (key : κ) :
    (records.foldl (fun table r => table.insert (keyOf r)
        (add ((table.find? (keyOf r)).getD (start (keyOf r))) r)) table).find? key =
      if records.filter (fun r => decide (keyOf r = key)) = [] then table.find? key
      else some ((records.filter fun r => decide (keyOf r = key)).foldl add
        ((table.find? key).getD (start key))) := by
  induction records generalizing table with
  | nil => simp
  | cons r rest ih =>
      rw [List.foldl_cons, ih, find?_insert]
      by_cases here : keyOf r = key
      · subst here
        rw [if_pos rfl, List.filter_cons_of_pos (by simp), if_neg (List.cons_ne_nil _ _),
          List.foldl_cons, Option.getD_some]
        split
        · next none => rw [none, List.foldl_nil]
        · rfl
      · rw [if_neg (Ne.symm here), List.filter_cons_of_neg (by simpa using here)]

/-! ## The order of changes -/

theorem insert_comm {first second : κ} (differ : first ≠ second) (table : Table κ ν)
    (value other : ν) :
    (table.insert first value).insert second other =
      (table.insert second other).insert first value := by
  refine ext fun key => ?_
  simp only [find?_insert]
  by_cases isFirst : key = first
  · rw [if_pos isFirst, if_pos isFirst, if_neg fun isSecond => differ (isFirst.symm.trans isSecond)]
  · rw [if_neg isFirst, if_neg isFirst]

theorem insert_insert (table : Table κ ν) (key : κ) (value other : ν) :
    (table.insert key value).insert key other = table.insert key other := by
  refine ext fun place => ?_
  simp only [find?_insert]
  by_cases here : place = key
  · rw [if_pos here, if_pos here]
  · rw [if_neg here, if_neg here, if_neg here]

theorem mapValues_insert {μ : Type} (table : Table κ ν) (f : ν → μ) (key : κ) (value : ν) :
    (table.mapValues f).insert key (f value) = (table.insert key value).mapValues f := by
  refine ext fun place => ?_
  simp only [find?_insert, find?_mapValues]
  by_cases here : place = key
  · rw [if_pos here, if_pos here, Option.map_some]
  · rw [if_neg here, if_neg here]

theorem insert_of_find? {table : Table κ ν} {key : κ} {value : ν}
    (found : table.find? key = some value) : table.insert key value = table := by
  refine ext fun place => ?_
  rw [find?_insert]
  by_cases here : place = key
  · rw [if_pos here, here, found]
  · rw [if_neg here]

/-- A row that was put can be erased with the one that it replaced. -/
theorem erase_insert (table : Table κ ν) (key : κ) (value : ν) :
    (table.insert key value).erase key = table.erase key := by
  refine ext fun place => ?_
  simp only [find?_erase, find?_insert]
  by_cases here : place = key
  · rw [if_pos here, if_pos here]
  · rw [if_neg here, if_neg here, if_neg here]

theorem erase_of_find?_eq_none {table : Table κ ν} {key : κ} (none : table.find? key = none) :
    table.erase key = table := by
  refine ext fun place => ?_
  rw [find?_erase]
  by_cases here : place = key
  · rw [if_pos here, here, none]
  · rw [if_neg here]

end BridgeRewards.Table
