import Registrar.Language.Token
import Registrar.Text.Blank
import Registrar.Text.Cursor

/-!
# Lexemes

A `Lexeme` is a token as it stands in a text. The lexers of both languages are functions of a
cursor that read a lexeme and leave the cursor behind it. They look one character ahead and take
it back, which a cursor may refuse; `underscoreAlone?_eq` and `run?_eq` say that it never does.
-/

set_option autoImplicit false

namespace Registrar

open Text (Cursor Span byteLength)

/-- **A token of a text**: its kind, its characters and its place. -/
structure Lexeme where
  token : Token
  chars : List Char
  span : Span
deriving DecidableEq, Repr

namespace Lexeme

/-- The text of a lexeme. -/
def literal (l : Lexeme) : String := String.ofList l.chars

def shift (l : Lexeme) (n : Nat) : Lexeme := { l with span := l.span.shift n }

end Lexeme

/-- What a lexer has read: a token, its characters and the cursor behind them. -/
structure Scan where
  token : Token
  chars : List Char
  cursor : Cursor
deriving DecidableEq, Repr

namespace Scan

/-- A token of one character, which has just been read. -/
def one (token : Token) (ch : Char) (c : Cursor) : Scan := ⟨token, [ch], c⟩

/-- A token that starts with a character, which has just been read, and goes on while the
characters have a property. -/
def run? (token : Token) (p : Char → Bool) (ch : Char) (c : Cursor) : Option Scan :=
  (c.readWhile p).map fun (cs, c) => ⟨token, ch :: cs, c⟩

/-- Whether a character in front of a text is an underscore that starts no name. -/
def loneUnderscore (ch : Char) (rest : List Char) : Bool :=
  ch == '_' && !rest.head?.any Token.continuesName

/-- Whether a character, which has just been read, is an underscore that starts no name. The
character behind an underscore is read and taken back. -/
def underscoreAlone? (ch : Char) (c : Cursor) : Option (Bool × Cursor) :=
  if ch = '_' then
    let (next, c) := c.read
    c.unread.map fun c => (!next.any Token.continuesName, c)
  else some (false, c)

/-- The lexeme that a scan from `c` has read. -/
def lexemeFrom (s : Scan) (c : Cursor) : Lexeme :=
  ⟨s.token, s.chars, c.offset, s.cursor.offset⟩

/-! ## No read is taken back in vain -/

theorem run?_eq (token : Token) (p : Char → Bool) (ch : Char) (c : Cursor) :
    run? token p ch c = some ⟨token, ch :: c.rest.takeWhile p,
      c.offset + byteLength (c.rest.takeWhile p), c.rest.dropWhile p, c.lastAfter p⟩ := by
  rw [run?, Cursor.readWhile_eq]
  rfl

theorem underscoreAlone?_eq (ch : Char) (c : Cursor) :
    underscoreAlone? ch c =
      some (loneUnderscore ch c.rest,
        ⟨c.offset, c.rest, if ch = '_' then none else c.last⟩) := by
  by_cases h : ch = '_'
  · subst h
    have hu := c.unread_read
    have hr : c.read.1 = c.rest.head? := by
      obtain ⟨_, rest, _⟩ := c
      cases rest <;> rfl
    simp only [underscoreAlone?, loneUnderscore, hu, hr, Option.map_some, if_true,
      beq_self_eq_true, Bool.true_and]
  · simp [underscoreAlone?, loneUnderscore, h]

end Scan

/-! ## All lexemes of a text -/

/-- The lexemes before the end of the text; `fuel` bounds their number. -/
def lexemesFrom {σ : Type} (scan : σ → Lexeme × σ) : Nat → σ → List Lexeme
  | 0, _ => []
  | fuel + 1, s =>
      match scan s with
      | (l, s) => if l.token = .endOfInput then [] else l :: lexemesFrom scan fuel s

end Registrar
