import Registrar.Freeform.Decoding
import Registrar.Payload
import Registrar.Schema.ObjectTables

/-!
# Rows of cells

A `Header` says which attribute each column is about. A `Builder` makes the payload of one object
from each row of cells under a header.

* An empty cell clears the field of a clearable attribute and is passed over otherwise.
* The key column says which object a row is about and is no part of the payload.
* The cell of a composite attribute is the body of a group of an attribute string.

Main definitions: `Header.ofCells`, `Builder.build`. `Header.ofCells_object` and
`Header.columns_length` say what a header keeps of its cells.
-/

set_option autoImplicit false

namespace Registrar

/-! ## Headers -/

/-- **The attributes of the columns**, for rows about objects of one type. -/
structure Header where
  object : ObjectType
  columns : List String
deriving DecidableEq, Repr

namespace Header

/-- The attributes that cells name, the first of which is column number `column`. -/
def resolveFrom (v : Vocabulary) (column : Nat) : List String → Except Error (List String)
  | [] => .ok []
  | cell :: rest =>
      let name := Text.trimString cell
      if name.isEmpty then .error (.unnamedColumn column)
      else
        match v.resolve name with
        | .error e => .error e
        | .ok canonical => (resolveFrom v (column + 1) rest).map (canonical :: ·)

/-- **Reads a header**: every cell has to name a column of the object. -/
def ofCells (object : ObjectType) (cells : List String) : Except Error Header :=
  if cells.isEmpty then .error .emptyHeader
  else (resolveFrom object.columns 1 cells).map fun columns => ⟨object, columns⟩

def contains (h : Header) (canonical : String) : Bool := h.columns.contains canonical

/-- The cells of a row with the attributes that they are about. Cells that are missing at the end
of the row are empty. -/
def pair (columns cells : List String) : List (String × String) :=
  match columns, cells with
  | [], _ => []
  | c :: columns, [] => (c, "") :: pair columns []
  | c :: columns, cell :: cells => (c, cell) :: pair columns cells

theorem resolveFrom_length {v : Vocabulary} {column : Nat} {cells columns : List String}
    (h : resolveFrom v column cells = .ok columns) : columns.length = cells.length := by
  induction cells generalizing column columns with
  | nil => cases h; rfl
  | cons cell rest ih =>
      simp only [resolveFrom] at h
      split at h
      · cases h
      · split at h
        · cases h
        · cases hr : resolveFrom v (column + 1) rest with
          | error e => rw [hr] at h; cases h
          | ok cs => rw [hr] at h; cases h; simp [ih hr]

theorem ofCells_object {object : ObjectType} {cells : List String} {h : Header}
    (e : ofCells object cells = .ok h) : h.object = object := by
  unfold ofCells at e
  split at e
  · cases e
  · cases hr : resolveFrom object.columns 1 cells with
    | error _ => rw [hr] at e; cases e
    | ok cs => rw [hr] at e; cases e; rfl

theorem columns_length {object : ObjectType} {cells : List String} {h : Header}
    (e : ofCells object cells = .ok h) : h.columns.length = cells.length := by
  unfold ofCells at e
  split at e
  · cases e
  · cases hr : resolveFrom object.columns 1 cells with
    | error _ => rw [hr] at e; cases e
    | ok cs => rw [hr] at e; cases e; exact resolveFrom_length hr

end Header

/-! ## Modes -/

/-- Whether rows describe new objects or changes to objects. -/
inductive BuildMode where
  | create
  | update
deriving DecidableEq, Repr

namespace BuildMode

def name : BuildMode → String
  | .create => "create"
  | .update => "update"

def all : List BuildMode := [.create, .update]

def parse (name : String) : Except Error BuildMode :=
  match all.find? (·.name == Text.lowercase name) with
  | some m => .ok m
  | none => .error (.unknownValue name "build mode")

end BuildMode

/-! ## Building payloads -/

/-- **What a row describes**: the object to change, if the row says so, and the payload. -/
structure BuiltRow where
  key : Option String
  payload : Payload

/-- Makes payloads from rows. -/
structure Builder where
  object : ObjectType
  mode : BuildMode
  hasher : Hasher

def keyOfCell (cell : String) : Option String := if cell.isEmpty then none else some cell

/-- Gathers the cell of a column for a flat object. -/
def Gathered.putCell (type : FlatType) (g : Gathered) (canonical cell : String) :
    Except Error Gathered :=
  match (ObjectType.flat type).fields.find? (·.name == canonical) with
  | none => .error (.unknownAttribute canonical)
  | some f =>
      if cell.isEmpty then
        if (ObjectType.flat type).clearable.contains canonical then .ok (g.clear canonical)
        else .ok g
      else (f.kind.convert canonical cell).map fun v => g.put canonical v.val.toJson

/-- Puts the cell of a column into a user. -/
def User.putCell (u : User) (hasher : Hasher) (canonical cell : String) : Except Error User :=
  match Composite.ofField? canonical with
  | some c => if cell.isEmpty then .ok u else settled (u.applyBody c cell.toList)
  | none =>
      match Slot.ofName? canonical with
      | none => .error (.unknownAttribute canonical)
      | some s =>
          if cell.isEmpty then
            if h : s.field.clearable = true then
              .ok (u.put s ⟨.text "", Field.admits_of_clearable h ""⟩)
            else .ok u
          else u.assign hasher s cell

/-- Puts cells into a state one after the other, those of the key column apart. The last cell of
the key column counts. -/
def putCells {σ : Type} (keyColumn : String) (put : σ → String → String → Except Error σ)
    (key : Option String) (s : σ) : List (String × String) → Except Error (Option String × σ)
  | [] => .ok (key, s)
  | (canonical, cell) :: rest =>
      if canonical = keyColumn then putCells keyColumn put (keyOfCell cell) s rest
      else
        match put s canonical cell with
        | .error e => .error e
        | .ok s => putCells keyColumn put key s rest

namespace Builder

/-- The key and the payload of a row of cells. What is gathered about a flat object is read into its
type. -/
def collect (b : Builder) (cells : List (String × String)) :
    Except Error (Option String × Payload) :=
  match b.object with
  | .flat type =>
      match putCells b.object.key (Gathered.putCell type) none {} cells with
      | .error e => .error e
      | .ok (key, g) =>
          (g.toRecord type.payload).map fun r => (key, .flat type (r.restored type.stores))
  | .user =>
      (putCells b.object.key (User.putCell · b.hasher) none User.empty cells).map
        fun (key, u) => (key, .user u)

def needsKey (b : Builder) : Bool :=
  b.mode == .update || b.object == .flat .alias || b.object == .flat .groupSettings

/-- The fields that rows have to give. -/
def neededFields (b : Builder) : List String :=
  match b.object, b.mode with
  | .flat .group, .create => ["email", "name"]
  | .flat .member, .create => ["email"]
  | .flat .alias, _ => ["alias"]
  | _, _ => []

/-- The first attribute that a row has to give and does not. -/
def missing? (b : Builder) (key : Option String) (payload : Payload) : Option String :=
  if b.needsKey && key.isNone then some b.object.key
  else
    match payload with
    | .flat _ r => b.neededFields.find? fun name => (r.get? name).isNone
    | .user _ => none

/-- **Makes the payload of a row.** -/
def build (b : Builder) (header : Header) (row : List String) : Except Error BuiltRow :=
  if header.object ≠ b.object then .error (.headerMismatch header.object b.object)
  else
    match b.collect (Header.pair header.columns row) with
    | .error e => .error e
    | .ok (key, payload) =>
        match b.missing? key payload with
        | some name => .error (.missingAttribute name)
        | none => .ok ⟨key, payload⟩

end Builder

end Registrar
