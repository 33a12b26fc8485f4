/-!
# Orders of keys

Keys with several parts are compared part by part.  A pair is ordered by its first component and
then by its second, and a key type takes over the order of the pairs that its parts make up.
-/

set_option autoImplicit false

namespace BridgeRewards

variable {α β : Type}

instance pairOrd [Ord α] [Ord β] : Ord (α × β) := lexOrd

theorem compare_pair [Ord α] [Ord β] (x y : α × β) :
    compare x y = (compare x.1 y.1).then (compare x.2 y.2) := rfl

instance pairTransOrd [Ord α] [Ord β] [Std.TransOrd α] [Std.TransOrd β] :
    Std.TransOrd (α × β) :=
  inferInstanceAs (Std.TransCmp (compareLex (compareOn Prod.fst) (compareOn Prod.snd)))

instance pairLawfulEqOrd [Ord α] [Ord β] [Std.LawfulEqOrd α] [Std.LawfulEqOrd β] :
    Std.LawfulEqOrd (α × β) where
  compare_self {x} := by
    rw [compare_pair, Std.compare_self, Std.compare_self]; rfl
  eq_of_compare {x y} h := by
    rw [compare_pair, Ordering.then_eq_eq] at h
    exact Prod.ext (Std.LawfulEqOrd.eq_of_compare h.1) (Std.LawfulEqOrd.eq_of_compare h.2)

/-- An injective map into a type with a lawful order gives a lawful order. -/
theorem lawfulEqOrd_compareOn [Ord β] [Std.LawfulEqOrd β] {f : α → β}
    (inj : ∀ a b, f a = f b → a = b) : Std.LawfulEqCmp (compareOn f) where
  compare_self {a} := Std.compare_self (a := f a)
  eq_of_compare h := inj _ _ (Std.LawfulEqOrd.eq_of_compare h)

end BridgeRewards
