import Registrar.Error
import Registrar.Text.Blank
import Registrar.Text.Width

/-!
# Diagnostics

An error about a place in a text is shown with the line of the text that it is in, a row of
carets under the place, and the message behind the carets:

```text
error: malformed projection
  ┌─ input:1:6
  │
1 │ name(%)
  │      ^ malformed projection: unexpected character %

```

The text shown may be another one than the text that the error is about. Its end then cuts the
place off; and a place that runs over a line end is drawn as a bracket from its first line to
its last.

* `Diagnostic.flatten_breakLines` — the lines of a text are its parts.
* `Error.diagnostic_of_span?_eq_none` — an error without a place shows as its message.
-/

set_option autoImplicit false

namespace Registrar

namespace Diagnostic

open Text (Span byteLength)

/-! ## Lines -/

/-- The parts of a text that line feeds end, the last of which may be empty. -/
def breakLines : List Char → List (List Char)
  | [] => [[]]
  | c :: cs =>
      if c = '\n' then [c] :: breakLines cs
      else match breakLines cs with
        | [] => [[c]]
        | line :: rest => (c :: line) :: rest

theorem flatten_breakLines (cs : List Char) : (breakLines cs).flatten = cs := by
  induction cs with
  | nil => rfl
  | cons c cs ih =>
      simp only [breakLines]
      split
      · simp [ih]
      · split
        · rename_i h
          rw [h] at ih
          simp [← ih]
        · rename_i h
          rw [h] at ih
          simp [← ih]

/-- A line of a text, its number counted from one and the offset of its first byte. -/
structure Line where
  number : Nat
  start : Nat
  chars : List Char

/-- Numbers lines that follow each other, the first of which starts at `start`. -/
def numberLines (number start : Nat) : List (List Char) → List Line
  | [] => []
  | chars :: rest =>
      ⟨number, start, chars⟩ :: numberLines (number + 1) (start + byteLength chars) rest

def linesOf (text : String) : List Line := numberLines 1 0 (breakLines text.toList)

/-- The line that the byte at `offset` is in. -/
def lineAt (lines : List Line) (offset : Nat) : Line :=
  ((lines.takeWhile (·.start ≤ offset)).getLast?).getD ⟨1, 0, []⟩

/-- The characters of a line without what ends it. -/
def Line.visible (line : Line) : List Char :=
  (line.chars.reverse.dropWhile fun c => c = '\n' || c = '\r' || c = '\u0000').reverse

/-- The column of an offset: one more than the number of characters in front of it. -/
def columnAt (line : Line) (offset : Nat) : Nat :=
  let rec before (start : Nat) : List Char → Nat
    | [] => 0
    | c :: cs =>
        if start + c.utf8Size ≤ offset then 1 + before (start + c.utf8Size) cs else 0
  1 + before line.start line.chars

/-- The number of bytes of blanks at the start of a line. -/
def indentation (chars : List Char) : Nat := byteLength (chars.takeWhile Text.isBlank)

/-! ## Columns -/

/-- What stands in a line: the offset of a character in it, its length in bytes and its width
on the screen. -/
structure Cell where
  offset : Nat
  length : Nat
  width : Nat

/-- The cells of characters and widths, the first of which is at `offset`. -/
def cellsFrom (offset : Nat) : List (Char × Nat) → List Cell
  | [] => [⟨offset, 1, 1⟩]
  | (c, width) :: rest => ⟨offset, c.utf8Size, width⟩ :: cellsFrom (offset + c.utf8Size) rest

/-- The cells of a line and, behind them, the cell of its end. -/
def cells (chars : List Char) : List Cell := cellsFrom 0 (Text.columnsOf 0 chars)

/-- The text of a line with its tabs filled up. -/
def expandTabs (chars : List Char) : List Char :=
  (Text.columnsOf 0 chars).flatMap fun (c, width) =>
    if c = '\t' then List.replicate width ' ' else [c]

/-- Carets under the cells that the bytes from `start` up to `stop` touch, blanks before. -/
def carets (start stop : Nat) (chars : List Char) : List Char :=
  (cells chars).flatMap fun cell =>
    if max start cell.offset < min stop (cell.offset + cell.length) then
      List.replicate cell.width '^'
    else if cell.offset < stop then List.replicate cell.width ' '
    else []

/-- A rule over the characters that start before the byte `stop`. -/
def rule (stop : Nat) (chars : List Char) : List Char :=
  ((cells chars).dropLast.takeWhile (·.offset < stop)).flatMap fun cell =>
    List.replicate cell.width '─'

/-! ## The frame -/

/-- The margin of a line without a number, `pad` columns wide. -/
def margin (pad : Nat) : List Char := List.replicate pad ' ' ++ [' ', '│']

/-- The margin of a numbered line. -/
def numbered (pad number : Nat) : List Char :=
  let digits := Nat.toDigits 10 number
  List.replicate (pad - digits.length) ' ' ++ digits ++ [' ', '│']

/-- A place within one line: the line, and the carets with the message under it. -/
def inLine (pad : Nat) (line : Line) (span : Span) (message : List Char) : List (List Char) :=
  let chars := line.visible
  let start := span.start - line.start
  let stop := max (span.stop - line.start) (start + 1)
  [ margin pad,
    numbered pad line.number ++ ' ' :: expandTabs chars,
    margin pad ++ ' ' :: (carets start stop chars ++ ' ' :: message) ]

/-- The first line of a longer place: the bracket opens in front of the line if only blanks
stand before the place, and under it otherwise. -/
def openBracket (pad : Nat) (line : Line) (start : Nat) : List (List Char) :=
  let chars := line.visible
  let start := start - line.start
  if start ≤ indentation chars then
    [numbered pad line.number ++ [' ', '╭', ' '] ++ expandTabs chars]
  else
    [ numbered pad line.number ++ [' ', ' ', ' '] ++ expandTabs chars,
      margin pad ++ [' ', '╭'] ++ rule (start + 1) chars ++ ['^'] ]

/-- A line inside a longer place. -/
def besideBracket (pad : Nat) (line : Line) : List Char :=
  numbered pad line.number ++ [' ', '│', ' '] ++ expandTabs line.visible

/-- The last line of a longer place. -/
def closeBracket (pad : Nat) (line : Line) (stop : Nat) (message : List Char) :
    List (List Char) :=
  [ besideBracket pad line,
    margin pad ++ [' ', '╰'] ++ rule (stop - line.start) line.visible ++ ['^', ' '] ++ message ]

/-- A place that runs over line ends: its lines beside a bracket. -/
def acrossLines (pad : Nat) (first : Line) (between : List Line) (last : Line) (span : Span)
    (message : List Char) : List (List Char) :=
  (margin pad ++ [' ', ' ']) :: openBracket pad first span.start
    ++ between.map (besideBracket pad) ++ closeBracket pad last span.stop message

/-- **The diagnostic for a place in a text.** -/
def render (headline message : String) (span : Span) (shown : String) : String :=
  let span := span.clip (byteLength shown.toList)
  let lines := linesOf shown
  let first := lineAt lines span.start
  let last := lineAt lines span.stop
  let pad := (Nat.toDigits 10 last.number).length
  let place := List.replicate pad ' ' ++ [' ', '┌', '─', ' '] ++ "input:".toList
    ++ Nat.toDigits 10 first.number ++ ':' :: Nat.toDigits 10 (columnAt first span.start)
  let body :=
    if first.number = last.number then inLine pad first span message.toList
    else
      let between := lines.filter fun l => first.number < l.number && l.number < last.number
      acrossLines pad first between last span message.toList
  String.ofList (("error: ".toList ++ headline.toList) :: place :: body ++ [[]]
    |>.flatMap (· ++ ['\n']))

end Diagnostic

/-- **An error shown in a text**: as a diagnostic if it is about a place, by its message
otherwise. -/
def Error.diagnostic (e : Error) (shown : String) : String :=
  match e with
  | .unexpected language _ span =>
      Diagnostic.render language.malformed.headline e.message span shown
  | _ => e.message

theorem Error.diagnostic_of_span?_eq_none {e : Error} (h : e.span? = none) (shown : String) :
    e.diagnostic shown = e.message := by
  cases e <;> simp_all [Error.span?, diagnostic]

end Registrar
