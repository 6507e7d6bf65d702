import Registrar.Text.Utf8

/-!
# Delimited text

Comma-separated records. The reader is a machine on bytes; what ends a field or a record is
ASCII, so it never cuts a character.

* Fields end at a comma, records at a line feed, a carriage return or both. Empty lines are
  no records, and records may have any number of fields.
* A quote counts at the start of a field only. Inside quotes a doubled quote is one quote and
  all else is text; what stands behind the closing quote is appended to the field. A quoted
  field that is not closed ends with the input.
* A byte order mark at the start is dropped.
* A record remembers the line and the byte at which reading it began. Of a line break of two
  bytes only the first is read with the record before it.

Main definitions: `Reader.step`, `records`, `RawRecord.texts`. `recordsFrom_append` says that
reading goes on where the first part left off.
-/

set_option autoImplicit false

namespace Registrar.Csv

/-- A record as bytes, and the place where reading it began. -/
structure RawRecord where
  line : Nat
  byte : Nat
  fields : List (List UInt8)
deriving DecidableEq, Repr

/-- Where the reader is in a record. -/
inductive Place where
  | recordStart
  | fieldStart
  | bare
  | quoted
  | quoteInQuoted
  | afterReturn
deriving DecidableEq, Repr

/-- The state of the reader. Fields and bytes are held with the last one first. -/
structure Reader where
  place : Place := .recordStart
  line : Nat := 1
  byte : Nat := 0
  startLine : Nat := 1
  startByte : Nat := 0
  fields : List (List UInt8) := []
  field : List UInt8 := []

def comma : UInt8 := 0x2C

def quote : UInt8 := 0x22

def lineFeed : UInt8 := 0x0A

def carriageReturn : UInt8 := 0x0D

/-- The bytes that end a record. -/
def isLineEnd (b : UInt8) : Bool := b == lineFeed || b == carriageReturn

namespace Reader

/-- The reader behind one more byte. -/
def consume (r : Reader) (b : UInt8) : Reader :=
  { r with line := if b = lineFeed then r.line + 1 else r.line, byte := r.byte + 1 }

/-- The fields read so far with the one at hand. -/
def closedFields (r : Reader) : List (List UInt8) := r.field.reverse :: r.fields

/-- A byte of a field. -/
def push (r : Reader) (place : Place) (b : UInt8) : Reader :=
  { r with place, field := b :: r.field }

/-- The end of a field. -/
def endField (r : Reader) : Reader :=
  { r with place := .fieldStart, fields := r.closedFields, field := [] }

/-- The record at hand. -/
def record (r : Reader) : RawRecord := ⟨r.startLine, r.startByte, r.closedFields.reverse⟩

/-- The reader behind the byte that ended a record. -/
def endRecord (r : Reader) (b : UInt8) : Reader :=
  { place := if b = carriageReturn then .afterReturn else .recordStart
    line := r.line
    byte := r.byte
    startLine := r.line
    startByte := r.byte }

/-- A byte that may end a field or a record, or else goes to `other`. -/
def stepEnd (r : Reader) (b : UInt8) (other : Reader) : Reader × Option RawRecord :=
  if b = comma then (r.endField, none)
  else if isLineEnd b then (r.endRecord b, some r.record)
  else (other, none)

/-- A byte at the start of a field. -/
def stepField (r : Reader) (b : UInt8) : Reader × Option RawRecord :=
  if b = quote then ({ r with place := .quoted }, none) else r.stepEnd b (r.push .bare b)

/-- **One byte**: the reader behind it, and the record that it ended, if any. -/
def step (r : Reader) (b : UInt8) : Reader × Option RawRecord :=
  let r := r.consume b
  match r.place with
  | .recordStart | .afterReturn =>
      if isLineEnd b then ({ r with place := .recordStart }, none) else r.stepField b
  | .fieldStart => r.stepField b
  | .bare => r.stepEnd b (r.push .bare b)
  | .quoted =>
      if b = quote then ({ r with place := .quoteInQuoted }, none) else (r.push .quoted b, none)
  | .quoteInQuoted =>
      if b = quote then (r.push .quoted b, none) else r.stepEnd b (r.push .bare b)

/-- The record that the end of the input ends, if any. -/
def finish (r : Reader) : List RawRecord :=
  match r.place with
  | .recordStart | .afterReturn => []
  | _ => [r.record]

end Reader

/-- The records that end within the bytes, and the reader behind them. -/
def advance (r : Reader) : List UInt8 → List RawRecord × Reader
  | [] => ([], r)
  | b :: bytes =>
      let (r', ended) := r.step b
      let (more, last) := advance r' bytes
      (ended.toList ++ more, last)

/-- The records of the bytes, the last of which may end with the input. -/
def recordsFrom (r : Reader) (bytes : List UInt8) : List RawRecord :=
  (advance r bytes).1 ++ (advance r bytes).2.finish

def byteOrderMark : List UInt8 := [0xEF, 0xBB, 0xBF]

/-- **The records of an input.** -/
def records (bytes : List UInt8) : List RawRecord :=
  if byteOrderMark.isPrefixOf bytes then recordsFrom { byte := 3 } (bytes.drop 3)
  else recordsFrom {} bytes

theorem recordsFrom_append (r : Reader) (s t : List UInt8) :
    recordsFrom r (s ++ t) = (advance r s).1 ++ recordsFrom (advance r s).2 t := by
  induction s generalizing r with
  | nil => simp [advance]
  | cons b s ih =>
      have h := ih (r.step b).1
      simp only [recordsFrom] at h
      simp [recordsFrom, advance, h]

/-! ## Text -/

/-- A field that is no UTF-8: the record and the place where it began, the field in it, and
the first bad byte in the field. -/
structure BadText where
  record : Nat
  line : Nat
  byte : Nat
  field : Nat
  index : Nat
deriving DecidableEq, Repr

/-- The wording of a field that is no UTF-8. -/
def BadText.message (e : BadText) : String :=
  String.join
    [ "CSV parse error: record ", toString e.record, " (line ", toString e.line, ", field: ",
      toString e.field, ", byte: ", toString e.byte, "): invalid utf-8: invalid UTF-8 in field ",
      toString e.field, " near byte index ", toString e.index ]

/-- The texts of fields, the first of which is number `field` of record `number`. -/
def textsFrom (r : RawRecord) (number field : Nat) :
    List (List UInt8) → Except BadText (List String)
  | [] => .ok []
  | bytes :: rest =>
      match Text.decode? bytes with
      | none => .error ⟨number, r.line, r.byte, field, Text.validUpTo bytes⟩
      | some s => (textsFrom r number (field + 1) rest).map (s :: ·)

/-- The fields as text; `number` is the record's place in the input, counted from zero. -/
def RawRecord.texts (r : RawRecord) (number : Nat) : Except BadText (List String) :=
  textsFrom r number 0 r.fields

end Registrar.Csv
