import Registrar.Text.Span
import Registrar.Text.Utf8

/-!
# Cursors

A `Cursor` stands in a text, at a byte offset that lies between two characters. It reads the
text character by character, and takes back the last read once: `unread` is refused without a
read before it. Reading at the end of the text gives nothing and consumes nothing.

* `Cursor.unread_read` — taking a read back restores offset and text.
* `Cursor.readWhile_eq` — a run is read to its end, and the cursor stands behind it: no read is
  ever taken back in vain.
-/

set_option autoImplicit false

namespace Registrar.Text

/-- **A place in a text**: its offset, the text behind it, and what the last read gave, if it
has not been taken back. -/
structure Cursor where
  offset : Nat
  rest : List Char
  last : Option (List Char) := none
deriving DecidableEq, Repr

namespace Cursor

def atStart (cs : List Char) : Cursor := { offset := 0, rest := cs }

/-- The next character, and the cursor behind it. -/
def read (c : Cursor) : Option Char × Cursor :=
  match c.rest with
  | [] => (none, { c with last := some [] })
  | ch :: rest => (some ch, ⟨c.offset + ch.utf8Size, rest, some [ch]⟩)

/-- The cursor before the last read. -/
def unread (c : Cursor) : Option Cursor :=
  c.last.map fun cs => ⟨c.offset - byteLength cs, cs ++ c.rest, none⟩

/-- The longest run of characters with a property, and the cursor behind it. The character that
ends the run is read and taken back. `ahead` is the text behind the cursor. -/
def readRun (p : Char → Bool) : List Char → Cursor → Option (List Char × Cursor)
  | [], c => some ([], c.read.2)
  | _ :: ahead, c =>
      match c.read with
      | (none, c) => some ([], c)
      | (some ch, c) =>
          if p ch then (readRun p ahead c).map fun (cs, c) => (ch :: cs, c)
          else c.unread.map fun c => ([], c)

/-- **The longest run of characters with a property**, and the cursor behind it. -/
def readWhile (p : Char → Bool) (c : Cursor) : Option (List Char × Cursor) :=
  readRun p c.rest c

/-! ## Laws -/

theorem drop_length_takeWhile (p : Char → Bool) (cs : List Char) :
    cs.drop (cs.takeWhile p).length = cs.dropWhile p := by
  induction cs with
  | nil => rfl
  | cons c cs ih =>
      by_cases h : p c = true
      · simp [h, ih]
      · simp [h]

/-- **Taking a read back restores offset and text.** -/
theorem unread_read (c : Cursor) :
    c.read.2.unread = some ⟨c.offset, c.rest, none⟩ := by
  obtain ⟨offset, rest, last⟩ := c
  cases rest with
  | nil => simp [read, unread]
  | cons ch rest => simp [read, unread]

/-- What the last read gave, once a run has been read: a read at the end is the last one, and
any other is taken back. -/
def lastAfter (c : Cursor) (p : Char → Bool) : Option (List Char) :=
  if c.rest.dropWhile p = [] then some [] else none

/-- **A run is read to its end**, and the cursor stands behind it. -/
theorem readWhile_eq (p : Char → Bool) (c : Cursor) :
    c.readWhile p = some (c.rest.takeWhile p,
      ⟨c.offset + byteLength (c.rest.takeWhile p), c.rest.dropWhile p, c.lastAfter p⟩) := by
  obtain ⟨offset, rest, last⟩ := c
  unfold readWhile
  induction rest generalizing offset last with
  | nil => simp [readRun, read, lastAfter]
  | cons ch rest ih =>
      by_cases hp : p ch = true
      · have := ih (offset + ch.utf8Size) (some [ch])
        simp [readRun, read, hp, this, lastAfter, Nat.add_assoc]
      · have hp' : p ch = false := by simpa using hp
        simp [readRun, read, unread, hp', lastAfter]

end Cursor

end Registrar.Text
