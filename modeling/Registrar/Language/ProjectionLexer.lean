import Registrar.Language.Lexeme

/-!
# Lexemes of a projection

A projection is made of names, the symbols `* ( ) , / ~` and blanks. Any other character is a
lexeme by itself, which the language has no place for.

* `Projection.scan?_isSome` — scanning never takes a read back in vain.
* `Projection.scan?_eq` — a scan reads the first lexeme of the text and leaves the rest.
-/

set_option autoImplicit false

namespace Registrar.Projection

open Text (Cursor isBlank byteLength)

/-- The token that a character is by itself. -/
def symbol (ch : Char) : Token :=
  match ch with
  | '*' => .asterisk
  | ')' => .closeParenthesis
  | ',' => .comma
  | '/' => .slash
  | '(' => .openParenthesis
  | '~' => .tilde
  | _ => .illegal

/-- Reads a lexeme; none if a read would be taken back in vain. -/
def scan? (c : Cursor) : Option Scan :=
  match c.read with
  | (none, c) => some ⟨.endOfInput, [], c⟩
  | (some ch, c) =>
      if isBlank ch then Scan.run? .blank isBlank ch c
      else
        (Scan.underscoreAlone? ch c).bind fun (alone, c) =>
          if alone then some (.one .underscore ch c)
          else if Token.startsName ch then Scan.run? .name Token.continuesName ch c
          else some (.one (symbol ch) ch c)

/-- **The first lexeme of a text**, as its kind and its characters. -/
def first : List Char → Token × List Char
  | [] => (.endOfInput, [])
  | ch :: rest =>
      if isBlank ch then (.blank, ch :: rest.takeWhile isBlank)
      else if Scan.loneUnderscore ch rest then (.underscore, [ch])
      else if Token.startsName ch then (.name, ch :: rest.takeWhile Token.continuesName)
      else (symbol ch, [ch])

/-- **A scan reads the first lexeme of the text and leaves the rest.** -/
theorem scan?_eq (c : Cursor) :
    ∃ s, scan? c = some s ∧ s.token = (first c.rest).1 ∧ s.chars = (first c.rest).2 ∧
      s.cursor.offset = c.offset + byteLength s.chars ∧
      s.cursor.rest = c.rest.drop s.chars.length := by
  obtain ⟨offset, rest, last⟩ := c
  cases rest with
  | nil => exact ⟨_, rfl, rfl, rfl, rfl, rfl⟩
  | cons ch rest =>
      simp only [scan?, Cursor.read, first]
      by_cases hb : isBlank ch = true
      · simp [hb, Scan.run?_eq, Nat.add_assoc, Cursor.drop_length_takeWhile]
      · simp only [hb, Bool.false_eq_true, if_false, Scan.underscoreAlone?_eq,
          Option.bind_some]
        by_cases hu : Scan.loneUnderscore ch rest = true
        · simp [hu, Scan.one]
        by_cases hs : Token.startsName ch = true
        · simp [hu, hs, Scan.run?_eq, Nat.add_assoc, Cursor.drop_length_takeWhile]
        · simp [hu, hs, Scan.one]

/-- **Scanning never takes a read back in vain.** -/
theorem scan?_isSome (c : Cursor) : (scan? c).isSome = true := by
  obtain ⟨s, h, _⟩ := scan?_eq c
  simp [h]

def scan (c : Cursor) : Lexeme × Cursor :=
  let s := (scan? c).get (scan?_isSome c)
  (s.lexemeFrom c, s.cursor)

/-- **The lexemes of a projection.** -/
def lexemes (input : List Char) : List Lexeme :=
  lexemesFrom scan input.length (.atStart input)

end Registrar.Projection
