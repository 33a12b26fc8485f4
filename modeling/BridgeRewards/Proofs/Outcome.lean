import Mathlib.Data.List.Forall2

/-!
# Computations that may fail

What a successful computation says about its parts: of two computations in a row both succeed, a
change of the error leaves the successes as they are, and a computation that is run over a list
succeeds exactly if it does so on every member, with the results in the same order.  A computation
that is put together from others fails with none but their errors.
-/

set_option autoImplicit false

namespace BridgeRewards.Outcome

variable {ε δ α β γ : Type}

theorem bind_eq_ok {x : Except ε α} {f : α → Except ε β} {b : β} :
    (x >>= f) = .ok b ↔ ∃ a, x = .ok a ∧ f a = .ok b := by
  cases x with
  | error e => simp [bind, Except.bind]
  | ok a => simp [bind, Except.bind]

theorem exists_error_iff {x : Except ε α} : (∃ e, x = .error e) ↔ ¬ ∃ a, x = .ok a := by
  cases x with
  | error e => simp
  | ok a => simp

theorem isOk_iff {x : Except ε Unit} : x.isOk = true ↔ x = .ok () := by
  cases x with
  | error e => simp [Except.isOk, Except.toBool]
  | ok u => simp [Except.isOk, Except.toBool]

theorem map_eq_ok {x : Except ε α} {f : α → β} {b : β} :
    x.map f = .ok b ↔ ∃ a, x = .ok a ∧ f a = b := by
  cases x with
  | error e => simp [Except.map]
  | ok a => simp [Except.map]

theorem mapError_eq_ok {x : Except ε α} {f : ε → δ} {a : α} :
    x.mapError f = .ok a ↔ x = .ok a := by
  cases x with
  | error e => simp [Except.mapError]
  | ok a => simp [Except.mapError]

theorem mapM_eq_ok {f : α → Except ε β} {xs : List α} {ys : List β} :
    xs.mapM f = .ok ys ↔ List.Forall₂ (fun x y => f x = .ok y) xs ys := by
  induction xs generalizing ys with
  | nil =>
      cases ys with
      | nil => simp [pure, Except.pure]
      | cons y ys => simp [pure, Except.pure]
  | cons x xs ih =>
      rw [List.mapM_cons, bind_eq_ok]
      cases ys with
      | nil => simp [bind_eq_ok, pure, Except.pure]
      | cons y ys => simp [bind_eq_ok, pure, Except.pure, ih]

/-- A computation that succeeds on every member of a list with a known result. -/
theorem mapM_eq_ok_map {f : α → Except ε β} {g : α → β} {xs : List α}
    (h : ∀ x ∈ xs, f x = .ok (g x)) : xs.mapM f = .ok (xs.map g) := by
  rw [mapM_eq_ok, List.forall₂_map_right_iff, List.forall₂_same]
  exact h

/-- A computation over a list fails with the error of the first member on which it fails. -/
theorem exists_of_mapM_eq_error {f : α → Except ε β} {xs : List α} {e : ε}
    (failed : xs.mapM f = .error e) :
    ∃ before x after, xs = before ++ x :: after ∧ (∀ y ∈ before, ∃ z, f y = .ok z) ∧
      f x = .error e := by
  induction xs with
  | nil => cases failed
  | cons x xs ih =>
      rw [List.mapM_cons] at failed
      cases first : f x with
      | error other =>
          rw [first] at failed
          cases failed
          exact ⟨[], x, xs, rfl, by simp, first⟩
      | ok z =>
          rw [first] at failed
          have later : xs.mapM f = .error e := by
            cases rest : xs.mapM f with
            | error other =>
                rw [rest] at failed
                exact congrArg Except.error (Except.error.inj failed)
            | ok zs =>
                rw [rest] at failed
                cases failed
          obtain ⟨before, y, after, rfl, passed, here⟩ := ih later
          refine ⟨x :: before, y, after, rfl, fun w member => ?_, here⟩
          rcases List.mem_cons.mp member with rfl | member
          · exact ⟨z, first⟩
          · exact passed w member

theorem mapM_map {f : α → Except ε β} {g : β → γ} (xs : List α) :
    xs.mapM (fun x => (f x).map g) = (xs.mapM f).map (List.map g) := by
  induction xs with
  | nil => rfl
  | cons x xs ih =>
      rw [List.mapM_cons, List.mapM_cons, ih]
      cases f x with
      | error e => rfl
      | ok y =>
          cases xs.mapM f with
          | error e => rfl
          | ok ys => rfl

/-! ## Which errors there can be -/

/-- A computation fails with none but some errors. -/
def FailsWith (allowed : ε → Prop) (x : Except ε α) : Prop := ∀ e, x = .error e → allowed e

section FailsWith

variable {allowed : ε → Prop} {x : Except ε α}

theorem failsWith_ok (a : α) : FailsWith allowed (.ok a) := fun e h => by cases h

theorem failsWith_error {e : ε} (h : allowed e) : FailsWith allowed (.error e : Except ε α) :=
  fun _ same => Except.error.inj same ▸ h

theorem failsWith_of_eq_ok {a : α} (h : x = .ok a) : FailsWith allowed x := h ▸ failsWith_ok a

theorem FailsWith.mono {other : ε → Prop} (h : FailsWith allowed x)
    (weaker : ∀ e, allowed e → other e) : FailsWith other x :=
  fun e failed => weaker e (h e failed)

/-- The second of two computations matters only for what the first one results in. -/
theorem FailsWith.bind_of_eq_ok {f : α → Except ε β} (first : FailsWith allowed x)
    (second : ∀ a, x = .ok a → FailsWith allowed (f a)) : FailsWith allowed (x >>= f) := by
  intro e h
  cases x with
  | error other => exact first e (congrArg Except.error (Except.error.inj h))
  | ok a => exact second a rfl e h

theorem FailsWith.bind {f : α → Except ε β} (first : FailsWith allowed x)
    (second : ∀ a, FailsWith allowed (f a)) : FailsWith allowed (x >>= f) :=
  first.bind_of_eq_ok fun a _ => second a

theorem FailsWith.map {f : α → β} (h : FailsWith allowed x) : FailsWith allowed (x.map f) := by
  intro e failed
  cases x with
  | error other => exact h e (congrArg Except.error (Except.error.inj failed))
  | ok a => cases failed

theorem FailsWith.mapM_of_mem {f : α → Except ε β} {xs : List α}
    (h : ∀ a ∈ xs, FailsWith allowed (f a)) : FailsWith allowed (xs.mapM f) := by
  induction xs with
  | nil => exact failsWith_ok []
  | cons x xs ih =>
      have later := ih fun a isLater => h a (List.mem_cons_of_mem x isLater)
      rw [List.mapM_cons]
      exact (h x List.mem_cons_self).bind fun y => later.bind fun ys => failsWith_ok (y :: ys)

theorem FailsWith.mapM {f : α → Except ε β} (h : ∀ a, FailsWith allowed (f a)) (xs : List α) :
    FailsWith allowed (xs.mapM f) :=
  FailsWith.mapM_of_mem fun a _ => h a

end FailsWith

/-! ## Lists that correspond member by member -/

theorem exists_of_mem_left {R : α → β → Prop} {xs : List α} {ys : List β} {x : α}
    (h : List.Forall₂ R xs ys) (member : x ∈ xs) : ∃ y ∈ ys, R x y := by
  induction h with
  | nil => cases member
  | cons first _ ih =>
      rcases List.mem_cons.mp member with rfl | member
      · exact ⟨_, List.mem_cons_self, first⟩
      · obtain ⟨y, isLater, related⟩ := ih member
        exact ⟨y, List.mem_cons_of_mem _ isLater, related⟩

theorem exists_of_mem_right {R : α → β → Prop} {xs : List α} {ys : List β} {y : β}
    (h : List.Forall₂ R xs ys) (member : y ∈ ys) : ∃ x ∈ xs, R x y :=
  exists_of_mem_left h.flip member

/-- A list each of whose members can have a counterpart has a list of counterparts. -/
theorem exists_forall₂ {R : α → β → Prop} {xs : List α} (h : ∀ x ∈ xs, ∃ y, R x y) :
    ∃ ys, List.Forall₂ R xs ys := by
  induction xs with
  | nil => exact ⟨[], .nil⟩
  | cons x xs ih =>
      obtain ⟨y, first⟩ := h x List.mem_cons_self
      obtain ⟨ys, later⟩ := ih fun z isLater => h z (List.mem_cons_of_mem _ isLater)
      exact ⟨y :: ys, .cons first later⟩

/-- What counterparts have in common is in the two lists in the same order. -/
theorem map_eq_map {R : α → β → Prop} {f : α → γ} {g : β → γ} {xs : List α} {ys : List β}
    (h : List.Forall₂ R xs ys) (common : ∀ x y, R x y → f x = g y) : xs.map f = ys.map g := by
  have related := List.rel_map (P := (· = ·)) common h
  rwa [List.forall₂_eq_eq_eq] at related

end BridgeRewards.Outcome
