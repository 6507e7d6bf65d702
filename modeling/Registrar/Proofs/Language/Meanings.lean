import Registrar.Proofs.Language.Pieces

/-!
# What lexemes mean where they stand

What a lexeme becomes may depend on what the rules of a language remember, that is, on the lexemes
in front of it. `Rules.Means` says what it depends on without the memory: whether a lexeme has a
place behind others, and what it becomes there.

* `Rules.Means.fragments_eq_ok_iff` — a text is normalized exactly if each lexeme has a place behind
  those in front of it, and then each becomes what it becomes there.
* `Rules.Means.fragments_eq_ok_iff_of_const` — rules for which it does not matter where a lexeme
  stands.
-/

set_option autoImplicit false

namespace Registrar

/-- The lexemes that are no blanks. -/
def visible (ls : List Lexeme) : List Lexeme := ls.filter (·.token != .blank)

theorem token_of_mem_visible {ls : List Lexeme} {l : Lexeme} (h : l ∈ visible ls) :
    l.token ≠ .blank := by
  simpa using (List.mem_filter.mp h).2

theorem map_eq_ok_iff_of_eq_ok_iff {α β ε : Type} {x : Except ε α} {P : Prop} {a : α}
    (h : ∀ b, x = .ok b ↔ P ∧ b = a) (f : α → β) (c : β) : x.map f = .ok c ↔ P ∧ c = f a := by
  rw [map_eq_ok_iff]
  constructor
  · rintro ⟨b, hb, rfl⟩
    obtain ⟨hp, rfl⟩ := (h b).mp hb
    exact ⟨hp, rfl⟩
  · rintro ⟨hp, rfl⟩
    exact ⟨a, (h a).mpr ⟨hp, rfl⟩, rfl⟩

theorem forall_place_cons {α : Type} {P : List α → α → Prop} {x : α} {xs : List α} :
    (∀ front y behind, x :: xs = front ++ y :: behind → P front y) ↔
      P [] x ∧ ∀ front y behind, xs = front ++ y :: behind → P (x :: front) y := by
  constructor
  · intro h
    exact ⟨h [] x xs rfl, fun front y behind e => h (x :: front) y behind (by rw [e]; rfl)⟩
  · rintro ⟨hx, hxs⟩ front y behind e
    cases front with
    | nil =>
        obtain ⟨rfl, -⟩ := List.cons.inj e
        exact hx
    | cons z front =>
        obtain ⟨rfl, hrest⟩ := List.cons.inj e
        exact hxs front y behind hrest

namespace Rules

variable {σ : Type}

/-- **Whether lexemes mean something by what stands in front of them.** Behind some lexemes, a
lexeme has a place if `fits` holds, and becomes the fragment `becomes`. `after` is what is
remembered behind lexemes. -/
def Means (r : Rules σ) (after : List Lexeme → σ) (fits : List Lexeme → Lexeme → Prop)
    (becomes : List Lexeme → Lexeme → String) : Prop :=
  ∀ front l, l.token ≠ .blank → ∀ f s, r.step (after front) l = .ok (f, s) ↔
    fits front l ∧ f = becomes front l ∧ s = after (front ++ [l])

namespace Means

variable {r : Rules σ} {after : List Lexeme → σ} {fits : List Lexeme → Lexeme → Prop}
  {becomes : List Lexeme → Lexeme → String}

/-- Lexemes behind others. -/
theorem fragments_after (h : r.Means after fits becomes) {ls : List Lexeme}
    (hls : ∀ l ∈ ls, l.token ≠ .blank) (front : List Lexeme) (fs : List String) :
    r.fragments (after front) ls = .ok fs ↔
      (∀ more l behind, ls = more ++ l :: behind → fits (front ++ more) l) ∧
        fs = ls.mapIdx fun i l => becomes (front ++ ls.take i) l := by
  -- each lexeme goes over to those in front
  induction ls generalizing front fs with
  | nil => simp [eq_comm]
  | cons l ls ih =>
      have hl := hls l List.mem_cons_self
      have hbehind : ∀ gs, r.fragments (after (front ++ [l])) ls = .ok gs ↔
          (∀ more l' behind, ls = more ++ l' :: behind → fits (front ++ l :: more) l') ∧
            gs = ls.mapIdx fun i l' => becomes (front ++ l :: ls.take i) l' := by
        intro gs
        simpa using ih (fun l' hl' => hls l' (List.mem_cons_of_mem _ hl')) (front ++ [l]) gs
      rw [forall_place_cons, List.append_nil, List.mapIdx_cons, List.take_zero, List.append_nil]
      simp only [List.take_succ_cons]
      cases hs : r.step (after front) l with
      | error e =>
          have hnot : ¬fits front l := fun hfits => by
            have hok := (h front l hl _ _).mpr ⟨hfits, rfl, rfl⟩
            rw [hs] at hok
            cases hok
          rw [fragments_cons_error r hl hs]
          simp [hnot]
      | ok p =>
          obtain ⟨f, s⟩ := p
          obtain ⟨hfits, rfl, rfl⟩ := (h front l hl f s).mp hs
          rw [fragments_cons_ok r hl hs, map_eq_ok_iff]
          simp only [hbehind, hfits, true_and]
          constructor
          · rintro ⟨gs, ⟨hall, rfl⟩, rfl⟩
            exact ⟨hall, rfl⟩
          · rintro ⟨hall, rfl⟩
            exact ⟨_, ⟨hall, rfl⟩, rfl⟩

/-- **A text is normalized exactly if each lexeme has a place** behind those in front of it, and
then each becomes what it becomes there. -/
theorem fragments_eq_ok_iff (h : r.Means after fits becomes) {init : σ} (hinit : after [] = init)
    (ls : List Lexeme) (fs : List String) :
    r.fragments init ls = .ok fs ↔
      (∀ front l behind, visible ls = front ++ l :: behind → fits front l) ∧
        fs = (visible ls).mapIdx fun i l => becomes ((visible ls).take i) l := by
  rw [← r.fragments_filter, ← hinit]
  exact h.fragments_after (fun l => token_of_mem_visible) [] fs

theorem fragments_eq_ok_iff_of_const {fits : Lexeme → Prop} {becomes : Lexeme → String}
    (h : r.Means after (fun _ => fits) fun _ => becomes) {init : σ} (hinit : after [] = init)
    (ls : List Lexeme) (fs : List String) :
    r.fragments init ls = .ok fs ↔
      (∀ l ∈ visible ls, fits l) ∧ fs = (visible ls).map becomes := by
  have hmap : (visible ls).mapIdx (fun _ l => becomes l) = (visible ls).map becomes :=
    List.ext_getElem (by simp) (by simp)
  rw [h.fragments_eq_ok_iff hinit, hmap]
  refine and_congr_left fun _ => ⟨fun hall l hl => ?_, fun hall front l behind e => ?_⟩
  · obtain ⟨front, behind, e⟩ := List.append_of_mem hl
    exact hall front l behind e
  · exact hall l (e ▸ List.mem_append_right _ List.mem_cons_self)

end Means

end Rules

end Registrar
