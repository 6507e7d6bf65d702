import Registrar.Error
import Registrar.Language.Lexeme

/-!
# Normalizing a text lexeme by lexeme

Projections and queries are normalized alike: blanks are dropped, each other lexeme becomes one
fragment, and the first lexeme that has no place or no meaning is an error. A language gives the
`Rules` for that. A `Normalizer` can be asked again after an error: it then goes on behind the
lexeme that the error is about.

* `Rules.run_blank`, `Rules.run_cons_ok`, `Rules.run_cons_error` — one lexeme.
* `Rules.run_append` — normalizing goes on where the first part of the lexemes left off.
-/

set_option autoImplicit false

namespace Registrar

/-- **The rules of a language.** `σ` is what is remembered from one lexeme to the next. -/
structure Rules (σ : Type) where
  language : Language
  /-- The tokens that the language has a place for. -/
  accepts : Token → Bool
  /-- The fragment that a lexeme becomes, and what is remembered behind it. -/
  fragment : σ → Lexeme → Except Error (String × σ)

namespace Rules

variable {σ : Type}

/-- The fragment that a lexeme becomes, if it has a place. -/
def step (r : Rules σ) (s : σ) (l : Lexeme) : Except Error (String × σ) :=
  if r.accepts l.token then r.fragment s l
  else .error (.unexpected r.language l.literal l.span)

/-- **The fragments that lexemes become**, what is remembered at the end, and the lexemes behind
an error. -/
def run (r : Rules σ) (s : σ) : List Lexeme → Except Error (List String) × σ × List Lexeme
  | [] => (.ok [], s, [])
  | l :: rest =>
      if l.token = .blank then r.run s rest
      else
        match r.step s l with
        | .error e => (.error e, s, rest)
        | .ok (fragment, s) =>
            match r.run s rest with
            | (fragments, s, rest) => (fragments.map (fragment :: ·), s, rest)

theorem run_blank (r : Rules σ) (s : σ) {l : Lexeme} (h : l.token = .blank)
    (rest : List Lexeme) : r.run s (l :: rest) = r.run s rest := by
  simp [run, h]

theorem run_cons_error (r : Rules σ) {s : σ} {l : Lexeme} (h : l.token ≠ .blank) {e : Error}
    (he : r.step s l = .error e) (rest : List Lexeme) :
    r.run s (l :: rest) = (.error e, s, rest) := by
  simp [run, h, he]

theorem run_cons_ok (r : Rules σ) {s s' : σ} {l : Lexeme} (h : l.token ≠ .blank)
    {fragment : String} (hs : r.step s l = .ok (fragment, s')) (rest : List Lexeme) :
    r.run s (l :: rest)
      = ((r.run s' rest).1.map (fragment :: ·), (r.run s' rest).2.1, (r.run s' rest).2.2) := by
  simp [run, h, hs]

/-- **Normalizing goes on where the first part of the lexemes left off.** -/
theorem run_append (r : Rules σ) {s s' : σ} {front : List Lexeme} {fragments : List String}
    (h : r.run s front = (.ok fragments, s', [])) (rest : List Lexeme) :
    r.run s (front ++ rest)
      = ((r.run s' rest).1.map (fragments ++ ·), (r.run s' rest).2.1, (r.run s' rest).2.2) := by
  induction front generalizing s fragments with
  | nil =>
      cases h
      rw [List.nil_append]
      cases h : r.run s' rest with
      | mk fragments behind => cases fragments <;> rfl
  | cons l front ih =>
      by_cases hb : l.token = .blank
      · rw [run_blank r s hb] at h
        rw [List.cons_append, run_blank r s hb]
        exact ih h
      · cases hs : r.step s l with
        | error e =>
            rw [run_cons_error r hb hs] at h
            cases h
        | ok p =>
            obtain ⟨fragment, t⟩ := p
            rw [run_cons_ok r hb hs] at h
            rw [List.cons_append, run_cons_ok r hb hs]
            cases hf : (r.run t front).1 with
            | error e => rw [hf] at h; cases h
            | ok fs =>
                rw [hf] at h
                simp only [Except.map, Prod.mk.injEq, Except.ok.injEq] at h
                obtain ⟨rfl, h₁, h₂⟩ := h
                -- the pieces of the run are those of the hypothesis
                have hrun : r.run t front = (.ok fs, s', []) := by
                  rw [← hf, ← h₁, ← h₂]
                rw [ih hrun]
                cases (r.run s' rest).1 <;> rfl

end Rules

/-- **A text on the way through a language.** -/
structure Normalizer (σ : Type) where
  rules : Rules σ
  state : σ
  pending : List Lexeme

/-- The fragments of the text up to its end or the first error, and the normalizer behind them. -/
def Normalizer.parse {σ : Type} (w : Normalizer σ) :
    Except Error (List String) × Normalizer σ :=
  match w.rules.run w.state w.pending with
  | (fragments, state, pending) => (fragments, { w with state, pending })

end Registrar
