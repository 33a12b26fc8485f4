/-!
# Cutting and pairing lists

Two ways to shorten a list that hashing uses throughout: cutting it into pieces of one length,
and combining neighbours two by two while a last element without a neighbour stays as it is.
-/

set_option autoImplicit false

namespace BridgeRewards

variable {α : Type}

/-- The list in pieces of `size + 1` elements, the last of them perhaps shorter. -/
def chunksOf (size : Nat) (xs : List α) : List (List α) := go xs.length xs
where
  go : Nat → List α → List (List α)
    | 0, _ => []
    | _, [] => []
    | fuel + 1, x :: rest => (x :: rest.take size) :: go fuel (rest.drop size)

/-- One level up: neighbours combined two by two, a last lone element kept. -/
def pairUp (combine : α → α → α) : List α → List α
  | a :: b :: rest => combine a b :: pairUp combine rest
  | [a] => [a]
  | [] => []

/-- Going one level up halves the length, rounded up. -/
@[simp] theorem length_pairUp (combine : α → α → α) (xs : List α) :
    (pairUp combine xs).length = (xs.length + 1) / 2 := by
  fun_induction pairUp combine xs with
  | case1 a b rest ih => simp only [List.length_cons, ih]; omega
  | case2 a => simp
  | case3 => simp

end BridgeRewards
