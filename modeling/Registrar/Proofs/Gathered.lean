import Registrar.Proofs.Records
import Registrar.Proofs.Tables
import Registrar.Row

/-!
# What is gathered as JSON

What input gives an object is gathered as JSON by name and read into the type of the object in the
end. It might as well be put into a record value by value: what has been gathered is of the kinds
that the type expects, and the type has a place for all of it. So reading it never fails, and
nothing is passed over.

* `Gathered.toRecord_eq`, `Gathered.toRecord_type` — the record that is made of the fields of a
  record, in its shape and in a type.
* `Occurrence.read_eq` — an occurrence of a composite attribute, value by value.
* `Builder.collect_flat` — the cells of a row about a flat object, value by value.
-/

set_option autoImplicit false

namespace Registrar

/-! ## Maps under a function -/

namespace NameMap

variable {α β : Type}

/-- The map with a function applied to each value. -/
def map (f : α → β) (m : NameMap α) : NameMap β where
  entries := m.entries.map fun e => (e.1, f e.2)
  sorted := by
    rw [SortedNames, List.pairwise_map]
    exact m.sorted

theorem findValue?_map (f : α → β) (es : List (String × α)) (name : String) :
    findValue? name (es.map fun e => (e.1, f e.2)) = (findValue? name es).map f := by
  induction es with
  | nil => rfl
  | cons e es ih =>
      rw [List.map_cons, findValue?, findValue?, ih]
      by_cases hname : name = e.1
      · rw [if_pos hname, if_pos hname]
        rfl
      · rw [if_neg hname, if_neg hname]

theorem get?_map (f : α → β) (m : NameMap α) (name : String) :
    (m.map f).get? name = (m.get? name).map f := findValue?_map f m.entries name

theorem map_insert (f : α → β) (m : NameMap α) (name : String) (value : α) :
    (m.insert name value).map f = (m.map f).insert name (f value) := by
  refine ext fun other => ?_
  rw [get?_map, get?_insert, get?_insert, get?_map]
  split <;> rfl

end NameMap

/-- The value of a clearable field that has been cleared. -/
def Field.cleared (f : Field) (h : f.clearable = true) : f.kind.Value :=
  ⟨.text "", Field.admits_of_clearable h ""⟩

/-! ## Gathered fields -/

namespace Gathered

/-- **Whether gathered fields are those of a record**: the JSON of its values, and its forced
names. -/
structure IsOf {shape : Shape} (g : Gathered) (r : Record shape) : Prop where
  fields : g.fields = r.values.map Scalar.toJson
  forced : ∀ name, name ∈ g.forced ↔ r.isForced name = true

section

variable {shape : Shape}

theorem foldl_force (names : List String) (r : Record shape) (name : String) :
    (names.foldl Record.force r).get? name = r.get? name ∧
      ((names.foldl Record.force r).isForced name = true ↔
        name ∈ names ∨ r.isForced name = true) := by
  induction names generalizing r with
  | nil => simp
  | cons n names ih =>
      obtain ⟨hget, hforced⟩ := ih (r.force n)
      rw [List.foldl_cons, hget, hforced, Record.get?_force, Record.isForced_force, List.mem_cons,
        Bool.or_eq_true, decide_eq_true_eq]
      exact ⟨rfl, by rw [or_left_comm, or_assoc]⟩

/-- **The fields of a record make the record.** -/
theorem toRecord_eq {g : Gathered} {r : Record shape} (h : g.IsOf r) :
    g.toRecord shape = .ok r := by
  have hread : Record.ofJson (.obj g.fields.entries) = .ok r.unforced := by
    rw [h.fields]
    exact r.ofJson_toJson
  rw [toRecord, hread]
  refine congrArg Except.ok (Record.ext (fun name => ?_) fun name => ?_)
  · exact (foldl_force g.forced r.unforced name).1
  · rw [Bool.eq_iff_iff, (foldl_force g.forced r.unforced name).2, h.forced]
    -- no name is forced before
    exact or_iff_left Bool.false_ne_true

/-- **The fields of a record make it in a type** that holds the records of its shape. -/
theorem toRecord_type {type : Shape} (hstores : type.Stores shape) {g : Gathered}
    {r : Record shape} (h : g.IsOf r) : g.toRecord type = .ok (r.stored hstores) :=
  toRecord_eq ⟨h.fields, h.forced⟩

theorem isOf_empty (shape : Shape) : ({} : Gathered).IsOf (Record.empty : Record shape) where
  fields := NameMap.ext fun _ => rfl
  forced _ := iff_of_false List.not_mem_nil Bool.false_ne_true

theorem mem_forced_put (g : Gathered) (name other : String) (v : Scalar) :
    other ∈ (g.put name v.toJson).forced ↔ (v = .flag false ∧ other = name) ∨ other ∈ g.forced := by
  cases v with
  | text s => simp [put, Scalar.toJson]
  | number n => simp [put, Scalar.toJson, Json.int]
  | flag b => cases b <;> simp [put, Scalar.toJson]

theorem IsOf.put {g : Gathered} {r : Record shape} (h : g.IsOf r) {f : shape.Member}
    {v : f.val.kind.Value} (hzero : f.val.isZero v.val = true ↔ v.val = .flag false) :
    (g.put f.val.name v.val.toJson).IsOf (r.put f v) where
  fields := by
    rw [Record.values_put, NameMap.map_insert, ← h.fields]
    rfl
  forced name := by
    rw [mem_forced_put, h.forced, Record.isForced_put, Bool.or_eq_true, Bool.and_eq_true,
      decide_eq_true_eq, hzero]

theorem IsOf.clear {g : Gathered} {r : Record shape} (h : g.IsOf r) {f : shape.Member}
    (hclear : f.val.clearable = true) : (g.clear f.val.name).IsOf (r.clear f hclear) where
  fields := by
    have hput : r.clear f hclear = r.put f (f.val.cleared hclear) := rfl
    rw [hput, Record.values_put, NameMap.map_insert, ← h.fields]
    rfl
  forced name := by
    have hput : r.clear f hclear = r.put f (f.val.cleared hclear) := rfl
    have hzero : f.val.isZero (f.val.cleared hclear).val = true :=
      Field.isZero_eq_true_iff.mpr (Or.inr ⟨hclear, rfl⟩)
    rw [hput, Record.isForced_put, hzero, Bool.true_and, Bool.or_eq_true, decide_eq_true_eq,
      ← h.forced]
    exact List.mem_cons

end

end Gathered

/-! ## Rows about flat objects -/

/-- Puts the cell of a column into the record of a flat object. -/
def Record.putCell {shape : Shape} (r : Record shape) (canonical cell : String) :
    Except Error (Record shape) :=
  match shape.member? canonical with
  | none => .error (.unknownAttribute canonical)
  | some f =>
      if cell.isEmpty then
        if h : f.val.clearable = true then .ok (r.clear f h) else .ok r
      else (f.val.kind.convert f.val.name cell).map (r.put f)

namespace Gathered

/-- **A cell is gathered as it is put into a record**: both ways fail alike, or the fields stay
those of the record. -/
theorem putCell_cases {type : FlatType} {g : Gathered} {r : Record type.shape} (h : g.IsOf r)
    (column cell : String) :
    (∃ e, g.putCell type column cell = .error e ∧ r.putCell column cell = .error e) ∨
      ∃ g' r', g.putCell type column cell = .ok g' ∧ r.putCell column cell = .ok r' ∧
        g'.IsOf r' := by
  unfold putCell Record.putCell
  -- the fields of the object are those of the shape
  have hfind : (ObjectType.flat type).fields.find? (·.name == column)
      = type.shape.find? column := rfl
  cases hf : type.shape.member? column with
  | none =>
      rw [hfind, Shape.member?_eq_none_iff.mp hf]
      exact Or.inl ⟨_, rfl, rfl⟩
  | some f =>
      obtain rfl := Shape.member?_eq_some_iff.mp hf
      rw [hfind, f.property]
      by_cases hcell : cell.isEmpty = true
      · simp only [if_pos hcell, type.contains_clearable f.val (Shape.mem_of_find? f.property)]
        by_cases hclear : f.val.clearable = true
        · simp only [if_pos hclear, dif_pos hclear]
          exact Or.inr ⟨_, _, rfl, rfl, h.clear hclear⟩
        · simp only [if_neg hclear, dif_neg hclear]
          exact Or.inr ⟨_, _, rfl, rfl, h⟩
      · simp only [if_neg hcell]
        cases hconvert : f.val.kind.convert f.val.name cell with
        | error e => exact Or.inl ⟨e, rfl, rfl⟩
        | ok v =>
            have hne : cell ≠ "" := fun hempty => hcell (String.isEmpty_iff.mpr hempty)
            exact Or.inr ⟨_, _, rfl, rfl, h.put (Field.isZero_convert hne hconvert)⟩

/-- **Cells are gathered as they are put into a record**, and what they give makes the record. -/
theorem toRecord_putCells {type : FlatType} {g : Gathered} {r : Record type.shape} (h : g.IsOf r)
    (keyColumn : String) (key : Option String) (cells : List (String × String)) :
    (match putCells keyColumn (putCell type) key g cells with
      | .error e => .error e
      | .ok (key, g) =>
          (g.toRecord type.payload).map fun r => (key, r.restored type.stores))
      = putCells keyColumn Record.putCell key r cells := by
  induction cells generalizing key g r with
  | nil =>
      simp only [putCells, toRecord_type type.stores h]
      rfl
  | cons cell cells ih =>
      obtain ⟨column, text⟩ := cell
      rw [putCells, putCells]
      -- a cell of the key column leaves both sides alone
      by_cases hkey : column = keyColumn
      · rw [if_pos hkey, if_pos hkey]
        exact ih h _
      · rw [if_neg hkey, if_neg hkey]
        rcases putCell_cases h column text with ⟨e, hg, hr⟩ | ⟨g', r', hg, hr, hof⟩
        · rw [hg, hr]
        · rw [hg, hr]
          exact ih hof _

end Gathered

/-- **The cells of a row about a flat object** are put into its record one after the other. -/
theorem Builder.collect_flat (type : FlatType) (mode : BuildMode) (hasher : Hasher)
    (cells : List (String × String)) :
    (⟨.flat type, mode, hasher⟩ : Builder).collect cells
      = (putCells (ObjectType.flat type).key Record.putCell none Record.empty cells).map
          fun (key, r) => (key, .flat type r) := by
  have hgather := Gathered.toRecord_putCells (Gathered.isOf_empty type.shape)
    (ObjectType.flat type).key none cells
  simp only [collect, ← hgather]
  cases putCells (ObjectType.flat type).key (Gathered.putCell type) none {} cells with
  | error e => rfl
  | ok result =>
      obtain ⟨key, g⟩ := result
      show (g.toRecord type.payload).map _ = ((g.toRecord type.payload).map _).map _
      cases g.toRecord type.payload <;> rfl

/-! ## Occurrences -/

/-- Puts the values of an occurrence into a record under the names given for its fields. -/
def Occurrence.fill (c : Composite) (r : Record c.shape) :
    List (List Char × List Char) → Except Error (Record c.shape)
  | [] => .ok r
  | (name, value) :: rest =>
      match c.subField? (String.ofList name) with
      | none => .error (.unknownAttribute (String.ofList name))
      | some f =>
          match f.val.kind.convert f.val.name (String.ofList value) with
          | .error e => .error e
          | .ok v => fill c (r.put f v) rest

namespace Gathered

/-- **The values of an occurrence are gathered as they fill a record**: both ways fail alike, or the
fields are those of the record. -/
theorem fill_cases {c : Composite} {g : Gathered} {r : Record c.shape} (h : g.IsOf r)
    (ps : List (List Char × List Char)) :
    (∃ e, g.fill c ps = .error e ∧ Occurrence.fill c r ps = .error e) ∨
      ∃ g' r', g.fill c ps = .ok g' ∧ Occurrence.fill c r ps = .ok r' ∧ g'.IsOf r' := by
  induction ps generalizing g r with
  | nil => exact Or.inr ⟨g, r, rfl, rfl, h⟩
  | cons p ps ih =>
      obtain ⟨name, value⟩ := p
      rw [fill, Occurrence.fill]
      cases c.subField? (String.ofList name) with
      | none => exact Or.inl ⟨_, rfl, rfl⟩
      | some f =>
          simp only
          cases f.val.kind.convert f.val.name (String.ofList value) with
          | error e => exact Or.inl ⟨e, rfl, rfl⟩
          | ok v => exact ih (h.put (c.isZero_iff f v.val))

/-- **Nothing is lost in the type of an occurrence.** The type makes of an occurrence what is read
from it, or fails with it. -/
theorem readTyped_eq (c : Composite) (occurrence : List Char) :
    readTyped c occurrence = (Occurrence.read c occurrence).map (Record.stored c.stores) := by
  rw [Occurrence.read]
  cases readTyped c occurrence <;> rfl

end Gathered

/-- **An occurrence is read** value by value. -/
theorem Occurrence.read_eq (c : Composite) (occurrence : List Char) :
    read c occurrence =
      match pairs (occurrence.splitOn '~') with
      | none => .error .malformedString
      | some ps => fill c .empty ps := by
  rw [read, Gathered.readTyped, Gathered.ofOccurrence]
  cases pairs (occurrence.splitOn '~') with
  | none => rfl
  | some ps =>
      rcases Gathered.fill_cases (Gathered.isOf_empty c.shape) ps with
        ⟨e, hg, hr⟩ | ⟨g, r, hg, hr, hof⟩
      · simp only [hg, hr]
        rfl
      · simp only [hg, hr, Gathered.toRecord_type c.stores hof]
        rfl

end Registrar
