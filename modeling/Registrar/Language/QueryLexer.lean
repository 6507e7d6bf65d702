import Registrar.Language.Lexeme

/-!
# Lexemes of a query

A query is made of clauses, each a name, an operator and a value. What a text is read as depends
on the mode of the lexer, which goes on from name to operator to value and starts again at each
clause. The mode does not change at the tilde between two clauses by itself: `reset` does that.

* `Query.scan?_isSome` — scanning never takes a read back in vain.
* `Query.scan?_eq` — a scan reads the first lexeme of the text and leaves the rest.
-/

set_option autoImplicit false

namespace Registrar.Query

open Text (Cursor isBlank byteLength)

/-- What the lexer expects. -/
inductive Mode where
  | name
  | operator
  | value
deriving DecidableEq, Repr

/-- The lexer: its place in the text and its mode. -/
structure Lexer where
  cursor : Cursor
  mode : Mode
deriving DecidableEq, Repr

def Lexer.atStart (input : List Char) : Lexer := ⟨.atStart input, .name⟩

/-- The lexer at the start of a clause. -/
def Lexer.reset (l : Lexer) : Lexer := { l with mode := .name }

/-- Whether a dotted name may go on with the character. -/
def continuesDotted (ch : Char) : Bool := Token.continuesName ch || ch == '.'

/-- A lexeme and the mode behind it. -/
abbrev Step : Type := Scan × Mode

/-- Reads a lexeme that is no blank and no tilde, where a name is expected. -/
def scanName? (ch : Char) (c : Cursor) : Option Step :=
  (Scan.underscoreAlone? ch c).bind fun (alone, c) =>
    if alone then some (.one .underscore ch c, .name)
    else if Token.startsName ch then
      (Scan.run? .name continuesDotted ch c).map fun s => (s, .operator)
    else some (.one ((Token.ofSymbol? ch).getD .illegal) ch c, .name)

/-- Reads a lexeme that is no blank and no tilde. -/
def scanVisible? (mode : Mode) (ch : Char) (c : Cursor) : Option Step :=
  match mode with
  | .name => scanName? ch c
  | .operator => (Scan.run? .operator Token.isOperator ch c).map fun s => (s, .value)
  | .value => (Scan.run? .value (· != '~') ch c).map fun s => (s, .value)

/-- Reads a lexeme; none if a read would be taken back in vain. -/
def scan? (l : Lexer) : Option Step :=
  match l.cursor.read with
  | (none, c) => some (⟨.endOfInput, [], c⟩, l.mode)
  | (some ch, c) =>
      if ch = '~' then some (.one .tilde ch c, l.mode)
      else if isBlank ch then (Scan.run? .blank isBlank ch c).map fun s => (s, l.mode)
      else scanVisible? l.mode ch c

/-- What a scan gives: the kind of a lexeme, its characters and the mode behind it. -/
structure First where
  token : Token
  chars : List Char
  mode : Mode
deriving DecidableEq

/-- The first lexeme of a text that starts with no blank and no tilde. -/
def firstVisible (mode : Mode) (ch : Char) (rest : List Char) : First :=
  match mode with
  | .name =>
      if Scan.loneUnderscore ch rest then ⟨.underscore, [ch], .name⟩
      else if Token.startsName ch then
        ⟨.name, ch :: rest.takeWhile continuesDotted, .operator⟩
      else ⟨(Token.ofSymbol? ch).getD .illegal, [ch], .name⟩
  | .operator => ⟨.operator, ch :: rest.takeWhile Token.isOperator, .value⟩
  | .value => ⟨.value, ch :: rest.takeWhile (· != '~'), .value⟩

/-- **The first lexeme of a text.** -/
def first (mode : Mode) : List Char → First
  | [] => ⟨.endOfInput, [], mode⟩
  | ch :: rest =>
      if ch = '~' then ⟨.tilde, [ch], mode⟩
      else if isBlank ch then ⟨.blank, ch :: rest.takeWhile isBlank, mode⟩
      else firstVisible mode ch rest

/-- **A scan reads the first lexeme of the text and leaves the rest.** -/
theorem scan?_eq (l : Lexer) :
    ∃ s, scan? l = some s ∧ s.1.token = (first l.mode l.cursor.rest).token ∧
      s.1.chars = (first l.mode l.cursor.rest).chars ∧
      s.2 = (first l.mode l.cursor.rest).mode ∧
      s.1.cursor.offset = l.cursor.offset + byteLength s.1.chars ∧
      s.1.cursor.rest = l.cursor.rest.drop s.1.chars.length := by
  obtain ⟨⟨offset, rest, last⟩, mode⟩ := l
  cases rest with
  | nil => exact ⟨_, rfl, rfl, rfl, rfl, rfl, rfl⟩
  | cons ch rest =>
      simp only [scan?, Cursor.read, first]
      -- the lexer asks for a tilde, a blank and its mode, in this order
      by_cases ht : ch = '~'
      · simp [ht, Scan.one]
      rw [if_neg ht, if_neg ht]
      by_cases hb : isBlank ch = true
      · simp [hb, Scan.run?_eq, Nat.add_assoc, Cursor.drop_length_takeWhile]
      rw [if_neg hb, if_neg hb]
      cases mode with
      | operator =>
          simp [scanVisible?, firstVisible, Scan.run?_eq, Nat.add_assoc,
            Cursor.drop_length_takeWhile]
      | value =>
          simp [scanVisible?, firstVisible, Scan.run?_eq, Nat.add_assoc,
            Cursor.drop_length_takeWhile]
      | name =>
          simp only [scanVisible?, firstVisible, scanName?, Scan.underscoreAlone?_eq,
            Option.bind_some]
          by_cases hu : Scan.loneUnderscore ch rest = true
          · simp [hu, Scan.one]
          by_cases hs : Token.startsName ch = true
          · simp [hu, hs, Scan.run?_eq, Nat.add_assoc, Cursor.drop_length_takeWhile]
          · simp [hu, hs, Scan.one]

/-- **Scanning never takes a read back in vain.** -/
theorem scan?_isSome (l : Lexer) : (scan? l).isSome = true := by
  obtain ⟨s, h, _⟩ := scan?_eq l
  simp [h]

def scan (l : Lexer) : Lexeme × Lexer :=
  let s := (scan? l).get (scan?_isSome l)
  (s.1.lexemeFrom l.cursor, ⟨s.1.cursor, s.2⟩)

/-- Reads a lexeme, and starts a clause behind a tilde. -/
def scanClause (l : Lexer) : Lexeme × Lexer :=
  let (lexeme, l) := scan l
  (lexeme, if lexeme.token = .tilde then l.reset else l)

/-- **The lexemes of a query.** -/
def lexemes (input : List Char) : List Lexeme :=
  lexemesFrom scanClause input.length (.atStart input)

end Registrar.Query
