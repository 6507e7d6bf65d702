import Mathlib.Data.List.TakeWhile
import Registrar.Language.Projection
import Registrar.Proofs.Language.Cutting

/-!
# Names in projections

Of the lexemes that projections have a place for, a name is the longest run of its characters and
all others are single characters, which no name goes on with. So a text that starts with a name
is cut behind the last character that the name could go on with, and a text that starts with a
mark right behind it.

* `Projection.IsName.first_append`, `Projection.first_mark` — the first lexeme of a text.
* `Projection.isNameOrMark_of_mem` — the lexemes that projections have a place for.
-/

set_option autoImplicit false

namespace Registrar

namespace Projection

/-! ## Names -/

/-- **Whether a text is a name**: it is one lexeme. -/
def IsName (w : List Char) : Prop := first w = (.name, w)

instance (w : List Char) : Decidable (IsName w) :=
  inferInstanceAs (Decidable (first w = (.name, w)))

theorem first_cons_eq_name_iff {ch : Char} {cs w : List Char} :
    first (ch :: cs) = (.name, w) ↔ Text.isBlank ch = false ∧ Scan.loneUnderscore ch cs = false ∧
      Token.startsName ch = true ∧ w = ch :: cs.takeWhile Token.continuesName := by
  rw [first]
  cases Text.isBlank ch with
  | true => simp
  | false =>
      cases Scan.loneUnderscore ch cs with
      | true => simp
      | false =>
          cases Token.startsName ch with
          | true => simp [eq_comm]
          | false =>
              have hsymbol := symbol_ne (t := .name) (by decide) ch
              simp [hsymbol]

theorem loneUnderscore_append {ch : Char} {run : List Char}
    (h : Scan.loneUnderscore ch run = false) (t : List Char) :
    Scan.loneUnderscore ch (run ++ t) = false := by
  cases run with
  | nil =>
      have hch : (ch == '_') = false := by simpa [Scan.loneUnderscore] using h
      rw [Scan.loneUnderscore, hch, Bool.false_and]
  | cons c run => exact h

/-- **A text that starts with a name** starts with it and all that the name can go on with. -/
theorem IsName.first_append {w : List Char} (h : IsName w) (t : List Char) :
    first (w ++ t) = (.name, w ++ t.takeWhile Token.continuesName) := by
  cases w with
  | nil => cases h
  | cons ch run =>
      obtain ⟨hb, hu, hs, hrun⟩ := first_cons_eq_name_iff.mp h
      have hall : ∀ c ∈ run, Token.continuesName c = true :=
        List.takeWhile_eq_self_iff.mp (List.cons.inj hrun).2.symm
      rw [List.cons_append, first_cons_eq_name_iff]
      refine ⟨hb, loneUnderscore_append hu t, hs, ?_⟩
      rw [List.takeWhile_append_of_pos hall, List.cons_append]

theorem isName_of_first {ch : Char} {cs w : List Char} (h : first (ch :: cs) = (.name, w)) :
    IsName w := by
  obtain ⟨hb, hu, hs, rfl⟩ := first_cons_eq_name_iff.mp h
  refine first_cons_eq_name_iff.mpr ⟨hb, ?_, hs, ?_⟩
  · -- a name that goes on goes on in the run
    cases cs with
    | nil => exact hu
    | cons c cs =>
        rw [List.takeWhile_cons]
        split
        · exact hu
        · rename_i hc
          simpa [Scan.loneUnderscore, hc] using hu
  · rw [List.takeWhile_takeWhile]
    simp

theorem IsName.ne_nil {w : List Char} (h : IsName w) : w ≠ [] := by
  rintro rfl
  cases h

theorem continuesName_of_startsName {c : Char} (h : Token.startsName c = true) :
    Token.continuesName c = true := by
  simp only [Token.startsName, Bool.or_eq_true] at h
  simp only [Token.continuesName, Text.isLetterOrNumeral, Bool.or_eq_true]
  exact h.imp_left Or.inl

theorem IsName.continues {w : List Char} (h : IsName w) :
    ∀ c ∈ w, Token.continuesName c = true := by
  cases w with
  | nil => cases h
  | cons ch run =>
      obtain ⟨-, -, hs, hrun⟩ := first_cons_eq_name_iff.mp h
      have hall : ∀ c ∈ run, Token.continuesName c = true :=
        List.takeWhile_eq_self_iff.mp (List.cons.inj hrun).2.symm
      intro c hc
      rcases List.mem_cons.mp hc with rfl | hc
      · exact continuesName_of_startsName hs
      · exact hall c hc

/-! ## Marks -/

/-- Whether a character is a lexeme by itself that projections have a place for. -/
def isMark (ch : Char) : Bool := accepts (symbol ch)

theorem eq_of_isMark {ch : Char} (h : isMark ch = true) :
    ch = '*' ∨ ch = ')' ∨ ch = ',' ∨ ch = '/' ∨ ch = '(' ∨ ch = '~' := by
  unfold isMark symbol at h
  split at h
  all_goals first
    | decide
    | cases h

theorem continuesName_mark {ch : Char} (h : isMark ch = true) : Token.continuesName ch = false := by
  rcases eq_of_isMark h with rfl | rfl | rfl | rfl | rfl | rfl
  all_goals decide +kernel

/-- **A text that starts with a mark** starts with the mark alone. -/
theorem first_mark {ch : Char} (h : isMark ch = true) (t : List Char) :
    first (ch :: t) = (symbol ch, [ch]) := by
  have hcontinues := continuesName_mark h
  have hother : Text.isBlank ch = false ∧ ch ≠ '_' := by
    rcases eq_of_isMark h with rfl | rfl | rfl | rfl | rfl | rfl
    all_goals decide
  obtain ⟨hblank, hunderscore⟩ := hother
  have hstarts : Token.startsName ch = false :=
    Bool.eq_false_iff.mpr fun hs => by
      rw [continuesName_of_startsName hs] at hcontinues
      cases hcontinues
  simp [first, hblank, Scan.loneUnderscore, hunderscore, hstarts]

/-! ## The lexemes that projections have a place for -/

/-- Whether a token and its characters are a name or a mark. -/
def IsNameOrMark (token : Token) (w : List Char) : Prop :=
  (token = .name ∧ IsName w) ∨ ∃ c, isMark c = true ∧ token = symbol c ∧ w = [c]

/-- What is cut off a text is a name, a mark or something that projections have no place for. -/
theorem isNameOrMark_of_first {ch : Char} {cs w : List Char} {token : Token}
    (h : first (ch :: cs) = (token, w)) (hacc : accepts token = true) : IsNameOrMark token w := by
  by_cases hname : token = .name
  · subst hname
    exact Or.inl ⟨rfl, isName_of_first h⟩
  · -- blanks and underscores have no place, so the character stands by itself
    refine Or.inr ⟨ch, ?_⟩
    rw [first] at h
    split at h
    · cases h
      cases hacc
    · split at h
      · cases h
        cases hacc
      · split at h
        · cases h
          exact absurd rfl hname
        · cases h
          exact ⟨hacc, rfl, rfl⟩

/-- **A lexeme that projections have a place for** is a name or a mark. -/
theorem isNameOrMark_of_mem {input : List Char} {l : Lexeme} (hl : l ∈ cutting.lexemes () input)
    (h : accepts l.token = true) : IsNameOrMark l.token l.chars :=
  cutting.forall_mem_lexemes (P := fun token w => accepts token = true → IsNameOrMark token w)
    (fun _ _ _ hacc => isNameOrMark_of_first rfl hacc) () input l hl h

end Projection

end Registrar
