import Registrar.Error

/-!
# Traversals that may fail

`List.mapM` with results in `Except`: it succeeds exactly if each of its steps does, and then
gives their results in order.

* `mapM_eq_ok_iff` — a traversal whose steps check something and then compute.
* `exists_mapM_eq_ok_iff` — when a traversal succeeds.
* `map_eq_ok_iff`, `bind_eq_ok_iff` — what the success of a computation in two steps says.
* `toOption_eq_some_iff`, `error?_eq_some_iff` — an outcome that can be computed.
-/

set_option autoImplicit false

namespace Registrar

variable {α β ε : Type}

theorem toOption_eq_some_iff {x : Except ε α} {a : α} : x.toOption = some a ↔ x = .ok a := by
  cases x <;> simp [Except.toOption]

/-- The error of an outcome, if it is one. -/
def error? : Except ε α → Option ε
  | .error e => some e
  | .ok _ => none

theorem error?_eq_some_iff {x : Except ε α} {e : ε} : error? x = some e ↔ x = .error e := by
  cases x <;> simp [error?]

theorem map_eq_ok_iff {f : α → β} {x : Except ε α} {b : β} :
    x.map f = .ok b ↔ ∃ a, x = .ok a ∧ b = f a := by
  cases x with
  | error e => simp [Except.map]
  | ok a => simp [Except.map, eq_comm]

theorem exists_map_eq_ok_iff {f : α → β} {x : Except ε α} :
    (∃ b, x.map f = .ok b) ↔ ∃ a, x = .ok a := by
  cases x with
  | error e => simp [Except.map]
  | ok a => exact iff_of_true ⟨f a, rfl⟩ ⟨a, rfl⟩

theorem map_eq_error_iff {f : α → β} {x : Except ε α} {e : ε} :
    x.map f = .error e ↔ x = .error e := by
  cases x with
  | error e' => simp [Except.map]
  | ok a => simp [Except.map]

theorem bind_eq_ok_iff {f : α → Except ε β} {x : Except ε α} {b : β} :
    x >>= f = .ok b ↔ ∃ a, x = .ok a ∧ f a = .ok b := by
  cases x with
  | error e => simp [bind, Except.bind]
  | ok a => simp [bind, Except.bind]

theorem mapM_cons_eq (f : α → Except ε β) (x : α) (xs : List α) :
    (x :: xs).mapM f =
      match f x with
      | .error e => .error e
      | .ok y => (xs.mapM f).map (y :: ·) := by
  rw [List.mapM_cons]
  cases f x with
  | error e => rfl
  | ok y => cases xs.mapM f <;> rfl

/-- **A traversal succeeds exactly if each of its steps does.** -/
theorem exists_mapM_eq_ok_iff {f : α → Except ε β} {xs : List α} :
    (∃ ys, xs.mapM f = .ok ys) ↔ ∀ x ∈ xs, ∃ y, f x = .ok y := by
  induction xs with
  | nil => simp [pure, Except.pure]
  | cons x xs ih =>
      rw [mapM_cons_eq, List.forall_mem_cons, ← ih]
      cases f x with
      | error e => simp
      | ok y => cases xs.mapM f <;> simp [Except.map]

/-- Each result of a traversal is the result of one of its steps. -/
theorem exists_of_mem_mapM {f : α → Except ε β} {xs : List α} {ys : List β}
    (h : xs.mapM f = .ok ys) {y : β} (hy : y ∈ ys) : ∃ x ∈ xs, f x = .ok y := by
  induction xs generalizing ys with
  | nil => cases h; cases hy
  | cons x xs ih =>
      rw [mapM_cons_eq] at h
      cases hx : f x with
      | error e => rw [hx] at h; cases h
      | ok z =>
          cases hxs : xs.mapM f with
          | error e => rw [hx, hxs] at h; cases h
          | ok zs =>
              rw [hx, hxs] at h
              cases h
              rcases List.mem_cons.mp hy with rfl | hy
              · exact ⟨x, List.mem_cons_self, hx⟩
              · obtain ⟨w, hw, hwy⟩ := ih hxs hy
                exact ⟨w, List.mem_cons_of_mem _ hw, hwy⟩

/-- **A traversal by checks.** If each step checks a condition and then computes, so does the
traversal. -/
theorem mapM_eq_ok_iff {f : α → Except ε β} {P : α → Prop} {g : α → β} {xs : List α}
    (h : ∀ x ∈ xs, ∀ y, f x = .ok y ↔ P x ∧ y = g x) {ys : List β} :
    xs.mapM f = .ok ys ↔ (∀ x ∈ xs, P x) ∧ ys = xs.map g := by
  induction xs generalizing ys with
  | nil => simp [pure, Except.pure, eq_comm]
  | cons x xs ih =>
      have hx := h x List.mem_cons_self
      -- the function is known at members only, so `ih` is asked for them
      have hxs : ∀ zs, xs.mapM f = .ok zs ↔ (∀ z ∈ xs, P z) ∧ zs = xs.map g := fun _ =>
        ih fun z hz => h z (List.mem_cons_of_mem _ hz)
      rw [mapM_cons_eq, List.forall_mem_cons, List.map_cons]
      cases hf : f x with
      | error e =>
          have : ¬P x := fun hp => by simpa [hf] using (hx (g x)).mpr ⟨hp, rfl⟩
          simp [this]
      | ok y =>
          obtain ⟨hp, rfl⟩ := (hx y).mp hf
          cases hm : xs.mapM f with
          | error e =>
              have hnot : ¬∀ z ∈ xs, P z := fun hall => by
                simpa [hm] using (hxs (xs.map g)).mpr ⟨hall, rfl⟩
              simp [Except.map, hnot]
          | ok zs =>
              obtain ⟨hall, rfl⟩ := (hxs zs).mp hm
              simp only [Except.map, Except.ok.injEq]
              exact ⟨fun e => ⟨⟨hp, hall⟩, e.symm⟩, fun e => e.2.symm⟩

end Registrar
