import Registrar.Row

/-!
# Batches of rows

A batch is delimited text with a header, or lines of JSON objects whose names are the columns. It
gives one built row per row, or the first thing that is wrong. What is wrong with a row is
reported under the number of the row. Rows of delimited text are its records behind the header;
rows of JSON are its lines, of which blank ones count but say nothing.

* `Batch.buildAll_append` — rows are built one after the other.
* `Batch.lines_append` — the lines of two texts, the first of which ends in a line feed.
-/

set_option autoImplicit false

namespace Registrar

/-- The layouts of a batch. -/
inductive InputFormat where
  | csv
  | jsonLines
deriving DecidableEq, Repr

namespace InputFormat

def name : InputFormat → String
  | .csv => "csv"
  | .jsonLines => "jsonl"

def otherNames : InputFormat → List String
  | .csv => []
  | .jsonLines => ["json", "ndjson"]

def all : List InputFormat := [.csv, .jsonLines]

def parse (name : String) : Except Error InputFormat :=
  match all.find? fun f => (f.name :: f.otherNames).contains (Text.lowercase name) with
  | some f => .ok f
  | none => .error (.unknownValue name "input format")

end InputFormat

namespace Batch

/-- **What can be wrong with a batch**: the batch as a whole, or a row of it. Rows count from
one. -/
inductive Failure where
  | whole (cause : Error)
  | row (number : Nat) (cause : Error)
deriving DecidableEq, Repr

def Failure.message : Failure → String
  | .whole cause => cause.message
  | .row number cause => String.join ["row ", toString number, ": ", cause.message]

/-- Builds rows one after the other, the first of which has the given number. What is passed over
gives no row. -/
def buildAll {α : Type} (build : Nat → α → Except Failure (Option BuiltRow)) (number : Nat) :
    List α → Except Failure (List BuiltRow)
  | [] => .ok []
  | a :: rest =>
      match build number a with
      | .error e => .error e
      | .ok built => (buildAll build (number + 1) rest).map (built.toList ++ ·)

/-- **Rows are built one after the other.** -/
theorem buildAll_append {α : Type} (build : Nat → α → Except Failure (Option BuiltRow))
    (number : Nat) (front rest : List α) :
    buildAll build number (front ++ rest) =
      match buildAll build number front with
      | .error e => .error e
      | .ok rows => (buildAll build (number + front.length) rest).map (rows ++ ·) := by
  induction front generalizing number with
  | nil =>
      simp only [List.nil_append, buildAll, List.length_nil, Nat.add_zero]
      cases buildAll build number rest <;> rfl
  | cons a front ih =>
      simp only [List.cons_append, buildAll]
      cases build number a with
      | error e => rfl
      | ok built =>
          simp only [ih, List.length_cons]
          -- the rest is numbered from the same place on both sides
          rw [show number + 1 + front.length = number + (front.length + 1) by omega]
          cases buildAll build (number + 1) front with
          | error e => rfl
          | ok rows =>
              cases buildAll build (number + (front.length + 1)) rest with
              | error e => rfl
              | ok more => simp [Except.map]

/-! ## Delimited text -/

/-- Builds the row of a record. The number of a row is that of its record, the header being
record zero. -/
def buildRecord (b : Builder) (header : Header) (number : Nat) (record : Csv.RawRecord) :
    Except Failure (Option BuiltRow) :=
  match record.texts number with
  | .error e => .error (.row number (.csv e))
  | .ok cells =>
      match b.build header cells with
      | .error e => .error (.row number e)
      | .ok built => .ok (some built)

/-- The header that the first record gives; without a record there are no columns. -/
def readHeader (object : ObjectType) (record : Option Csv.RawRecord) : Except Error Header :=
  match record with
  | none => Header.ofCells object []
  | some record =>
      match record.texts 0 with
      | .error e => .error (.csv e)
      | .ok cells => Header.ofCells object cells

/-- The rows of records, the first of which is the header. -/
def buildRecords (b : Builder) (records : List Csv.RawRecord) :
    Except Failure (List BuiltRow) :=
  match readHeader b.object records.head? with
  | .error e => .error (.whole e)
  | .ok header => buildAll (buildRecord b header) 1 records.tail

/-- **Reads delimited text.** -/
def readCsv (b : Builder) (bytes : List UInt8) : Except Failure (List BuiltRow) :=
  buildRecords b (Csv.records bytes)

/-! ## JSON lines -/

/-- The byte behind a line. -/
def lineFeed : UInt8 := 0x0A

/-- The line without a carriage return at its end. -/
def dropReturn (line : List UInt8) : List UInt8 :=
  if line.getLast? = some 0x0D then line.dropLast else line

/-- **The lines of a text.** A line feed ends a line, and a carriage return in front of it is
dropped. The last line may end with the text, if there is something in it. -/
def lines (bytes : List UInt8) : List (List UInt8) :=
  let parts := bytes.splitOn lineFeed
  parts.dropLast.map dropReturn ++ (parts.getLast?.toList.filter fun line => !line.isEmpty)

/-- The text of a cell: nothing for null, a text as it is, anything else as JSON. -/
def cellText : Json → String
  | .null => ""
  | .str s => s
  | j => j.compact

/-- Builds the row of a line that is not blank. -/
def buildJson (b : Builder) (line : String) : Except Error BuiltRow :=
  match Json.parse line with
  | .error e => .error (.json (.text e))
  | .ok (.obj entries) =>
      match Header.ofCells b.object (entries.map (·.1)) with
      | .error e => .error e
      | .ok header => b.build header (entries.map fun e => cellText e.2)
  | .ok _ => .error .notAnObject

/-- Builds the row of a line. -/
def buildLine (b : Builder) (number : Nat) (line : List UInt8) :
    Except Failure (Option BuiltRow) :=
  match Text.decode? line with
  | none => .error (.whole .notUtf8)
  | some text =>
      if (Text.trim text.toList).isEmpty then .ok none
      else
        match buildJson b text with
        | .error e => .error (.row number e)
        | .ok built => .ok (some built)

/-- **Reads lines of JSON objects.** -/
def readJsonLines (b : Builder) (bytes : List UInt8) : Except Failure (List BuiltRow) :=
  buildAll (buildLine b) 1 (lines bytes)

/-- **Reads a batch** in the given layout. -/
def read (format : InputFormat) (b : Builder) (bytes : List UInt8) :
    Except Failure (List BuiltRow) :=
  match format with
  | .csv => readCsv b bytes
  | .jsonLines => readJsonLines b bytes

/-! ## Laws -/

/-- **The lines of two texts**, the first of which ends in a line feed. -/
theorem lines_append (front rest : List UInt8) :
    lines (front ++ lineFeed :: rest) = lines (front ++ [lineFeed]) ++ lines rest := by
  have split : ∀ tail : List UInt8, (front ++ lineFeed :: tail).splitOn lineFeed
      = front.splitOn lineFeed ++ tail.splitOn lineFeed := fun tail =>
    List.splitOnP_append_cons front tail (beq_self_eq_true lineFeed)
  have filled : rest.splitOn lineFeed ≠ [] := List.splitOn_ne_nil _ _
  simp [lines, split, List.dropLast_append_of_ne_nil filled, List.getLast?_append,
    List.getLast?_eq_some_getLast filled, List.splitOn_nil]

end Batch

end Registrar
