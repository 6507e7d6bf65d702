import Registrar.Proofs.FlatRows
import Registrar.Proofs.Freeform.InPlace
import Registrar.Proofs.Rows

/-!
# Building and decoding with all checks

On the way from a name in the input to a field of a type, several tables are asked one after the
other: names and their canonical forms, the kinds of fields, the fields for truth values and for
texts, the attributes that records are stored under, the types of payloads. Wherever one of them is
asked, it might lack the name, and the step would fail although nothing is wrong with the input.

`InPlace` programs ask all of them. Here are the builder and the decoder that are made of these
programs. They give what the others give, so no table lacks a name that another one leads to.

* `User.decodeChecked_eq` — decoding.
* `Builder.buildChecked_eq` — building a row under an accepted header.
-/

set_option autoImplicit false

namespace Registrar

namespace User

variable {u : User} {hasher : Hasher}

/-! ## Decoding -/

/-- **Applies the groups of an attribute string**, with all checks. -/
def decodeChecked (u : User) (hasher : Hasher) (input : String) : Except Error User :=
  settled ((decodeInPlace hasher input).on u)

/-- **Decoding with all checks** is decoding. -/
theorem decodeChecked_eq (u : User) (hasher : Hasher) (input : String) :
    u.decodeChecked hasher input = u.decode hasher input := by
  rw [decodeChecked, on_decodeInPlace, settled_allOrNothing]

/-! ## Cells -/

/-- Puts the cell of a column into a user in place. -/
def putCellInPlace (hasher : Hasher) (column cell : String) : InPlace Unit :=
  match Composite.ofField? column with
  | some c => if cell.isEmpty then pure () else applyBodyInPlace c cell.toList
  | none =>
      if cell.isEmpty then
        if ObjectType.user.clearable.contains column then clearScalarInPlace column else pure ()
      else setScalarInPlace hasher column cell

/-- Puts the cell of a column into a user, with all checks. -/
def putCellChecked (u : User) (hasher : Hasher) (column cell : String) : Except Error User :=
  settled ((putCellInPlace hasher column cell).on u)

/-- **Putting the cell of a known column into a user with all checks** is putting it in. -/
theorem putCellChecked_eq (u : User) (hasher : Hasher) {column : String}
    (hcolumn : (Composite.ofField? column).isSome = true ∨ (Slot.ofName? column).isSome = true)
    (cell : String) : u.putCellChecked hasher column cell = u.putCell hasher column cell := by
  unfold putCellChecked putCellInPlace putCell
  cases hfield : Composite.ofField? column with
  | some c =>
      by_cases hcell : cell.isEmpty = true
      · simp only [if_pos hcell]
        rfl
      · simp only [if_neg hcell, on_applyBodyInPlace]
  | none =>
      rw [hfield] at hcolumn
      -- no composite attribute has the name, so a scalar one does
      obtain ⟨s, hs⟩ := Option.isSome_iff_exists.mp (hcolumn.resolve_left Bool.false_ne_true)
      obtain rfl := Slot.name_of_ofName? hs
      simp only [hs, s.contains_clearable]
      by_cases hcell : cell.isEmpty = true
      · rw [if_pos hcell, if_pos hcell]
        by_cases hclear : s.field.clearable = true
        · rw [if_pos hclear, dif_pos hclear, on_clearScalarInPlace, clearScalar_eq hclear]
          rfl
        · rw [if_neg hclear, dif_neg hclear]
          rfl
      · rw [if_neg hcell, if_neg hcell, on_setScalarInPlace, settled_allOrNothing, setScalar,
          (Slot.names_table s s.mem_all).1, Option.bind_some, hs]

end User

/-! ## Rows -/

/-- Ways of putting cells into a state that are alike for each cell are alike. -/
theorem putCells_congr {σ : Type} {keyColumn : String}
    {put put' : σ → String → String → Except Error σ} {cells : List (String × String)}
    (h : ∀ cell ∈ cells, cell.1 ≠ keyColumn → ∀ s, put s cell.1 cell.2 = put' s cell.1 cell.2)
    (key : Option String) (s : σ) :
    putCells keyColumn put key s cells = putCells keyColumn put' key s cells := by
  induction cells generalizing key s with
  | nil => rfl
  | cons cell cells ih =>
      obtain ⟨hcell, hrest⟩ := List.forall_mem_cons.mp h
      obtain ⟨column, text⟩ := cell
      rw [putCells, putCells]
      by_cases hkey : column = keyColumn
      · rw [if_pos hkey, if_pos hkey, ih hrest]
      · rw [if_neg hkey, if_neg hkey, hcell hkey]
        cases put' s column text with
        | error e => rfl
        | ok s' => exact ih hrest key s'

theorem Header.isKnown_of_mem_pair {names row : List String} {header : Header}
    (hheader : ofCells .user names = .ok header) {cell : String × String}
    (hcell : cell ∈ pair header.columns row) (hkey : cell.1 ≠ ObjectType.user.key) :
    (Composite.ofField? cell.1).isSome = true ∨ (Slot.ofName? cell.1).isSome = true := by
  have hmem : cell.1 ∈ header.columns := by
    rw [← fst_pair header.columns row]
    exact List.mem_map_of_mem hcell
  obtain ⟨e, he, hcolumn⟩ := exists_entry_of_mem hheader hmem
  rw [← hcolumn] at hkey ⊢
  exact (ObjectType.userColumns_table e he).resolve_left hkey

namespace Builder

/-- The key and the payload of a row of cells, with all checks. -/
def collectChecked (b : Builder) (cells : List (String × String)) :
    Except Error (Option String × Payload) :=
  match b.object with
  | .flat _ => b.collect cells
  | .user =>
      (putCells b.object.key (User.putCellChecked · b.hasher) none User.empty cells).map
        fun (key, u) => (key, .user u)

/-- **Makes the payload of a row**, with all checks. -/
def buildChecked (b : Builder) (header : Header) (row : List String) : Except Error BuiltRow :=
  if header.object ≠ b.object then .error (.headerMismatch header.object b.object)
  else
    match b.collectChecked (Header.pair header.columns row) with
    | .error e => .error e
    | .ok (key, payload) =>
        match b.missing? key payload with
        | some name => .error (.missingAttribute name)
        | none => .ok ⟨key, payload⟩

theorem collectChecked_eq {b : Builder} {names row : List String} {header : Header}
    (hheader : Header.ofCells b.object names = .ok header) :
    b.collectChecked (Header.pair header.columns row)
      = b.collect (Header.pair header.columns row) := by
  obtain ⟨object, mode, hasher⟩ := b
  cases object with
  | flat type => rfl
  | user =>
      have hcells : ∀ cell ∈ Header.pair header.columns row, cell.1 ≠ ObjectType.user.key →
          ∀ u : User, u.putCellChecked hasher cell.1 cell.2 = u.putCell hasher cell.1 cell.2 := by
        intro cell hcell hkey u
        exact u.putCellChecked_eq hasher (Header.isKnown_of_mem_pair hheader hcell hkey) cell.2
      simp only [collectChecked, collect]
      rw [putCells_congr hcells]

/-- **Building a row under an accepted header with all checks** is building it. -/
theorem buildChecked_eq {b : Builder} {names : List String} {header : Header}
    (hheader : Header.ofCells b.object names = .ok header) (row : List String) :
    b.buildChecked header row = b.build header row := by
  rw [buildChecked, collectChecked_eq hheader]
  rfl

end Builder

end Registrar
