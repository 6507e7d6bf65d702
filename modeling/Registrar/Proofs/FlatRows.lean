import Registrar.Proofs.Columns
import Registrar.Proofs.Tables

/-!
# What a row about a flat object means

A row says what to do column by column. A cell gives a value to the field of its column
(`Shape.Gives`): what it converts to or, if it is empty and the field can be cleared, the empty
text. A cell of the key column says which object the row is about.

```
groupKey  description  name               a header
a@b.org                Sales              description is cleared, name is set
```

* `Header.mem_pair_iff` — the cells of a row.
* `Stepwise.foldl_effect` — what cells amount to that are put into a state.
* `Record.mem_cellSteps_iff` — the values that a cell puts into a record.
* `FlatRow.get?_fill_eq_some_iff`, `FlatRow.isForced_fill_iff` — the record that a row fills.
* `FlatRow.build_flat` — the rows that are built, and what they mean.
-/

set_option autoImplicit false

namespace Registrar

/-! ## The cells of a row -/

namespace Header

/-- **Whether a row has a cell for a column.** Cells that are missing at its end are empty. -/
def Reads (h : Header) (row : List String) (column cell : String) : Prop :=
  ∃ i, h.columns[i]? = some column ∧ cell = row.getD i ""

/-- **The cells of a row** are those that it has for the columns. -/
theorem mem_pair_iff {columns row : List String} {column cell : String} :
    (column, cell) ∈ pair columns row ↔
      ∃ i, columns[i]? = some column ∧ cell = row.getD i "" := by
  induction columns generalizing row with
  | nil => simp [pair]
  | cons c columns ih =>
      rw [← Nat.or_exists_add_one]
      cases row with
      | nil => simp [pair, ih, eq_comm]
      | cons d row => simp [pair, ih, eq_comm]

theorem reads_iff {h : Header} {row : List String} {column cell : String} :
    h.Reads row column cell ↔ (column, cell) ∈ pair h.columns row := mem_pair_iff.symm

theorem fst_pair (columns row : List String) : (pair columns row).map Prod.fst = columns := by
  induction columns generalizing row with
  | nil => rfl
  | cons c columns ih => cases row <;> simp [pair, ih]

theorem eq_of_mem_pair {columns : List String} (h : columns.Nodup) (row : List String) :
    ∀ x ∈ pair columns row, ∀ y ∈ pair columns row, x.1 = y.1 → x = y := by
  intro x hx y hy hxy
  rw [← fst_pair columns row] at h
  exact List.inj_on_of_nodup_map h hx hy hxy

end Header

/-! ## What cells amount to -/

/-- The key that cells give: that of the last cell of the key column. -/
def keyAfter (keyColumn : String) (key : Option String) (cells : List (String × String)) :
    Option String :=
  cells.foldl (fun key cell => if cell.1 = keyColumn then keyOfCell cell.2 else key) key

theorem keyOfCell_eq_some_iff {cell k : String} :
    keyOfCell cell = some k ↔ cell = k ∧ k ≠ "" := by
  unfold keyOfCell
  by_cases hcell : cell.isEmpty = true
  · rw [if_pos hcell, String.isEmpty_iff.mp hcell]
    exact iff_of_false (fun h => nomatch h) fun h => h.2 h.1.symm
  · rw [if_neg hcell]
    constructor
    · intro h
      obtain rfl := Option.some.inj h
      exact ⟨rfl, fun hnil => hcell (String.isEmpty_iff.mpr hnil)⟩
    · rintro ⟨rfl, -⟩
      rfl

/-- **The key is the one cell of the key column**, if it is not empty. -/
theorem keyAfter_eq_some_iff {keyColumn : String} {key : Option String}
    {cells : List (String × String)} (hne : ∀ x ∈ cells, ∀ y ∈ cells, x.1 = y.1 → x = y)
    {k : String} :
    keyAfter keyColumn key cells = some k ↔
      ((keyColumn, k) ∈ cells ∧ k ≠ "") ∨ ((∀ x ∈ cells, x.1 ≠ keyColumn) ∧ key = some k) := by
  induction cells generalizing key with
  | nil => simp [keyAfter]
  | cons cell cells ih =>
      obtain ⟨column, text⟩ := cell
      have hrest : ∀ x ∈ cells, ∀ y ∈ cells, x.1 = y.1 → x = y := fun x hx y hy =>
        hne x (List.mem_cons_of_mem _ hx) y (List.mem_cons_of_mem _ hy)
      rw [keyAfter, List.foldl_cons]
      refine (ih hrest).trans ?_
      rw [List.forall_mem_cons, List.mem_cons]
      by_cases hcolumn : column = keyColumn
      · subst hcolumn
        rw [if_pos rfl, keyOfCell_eq_some_iff]
        -- another cell of the column would be this one
        have hsame : (column, k) ∈ cells → (column, k) = (column, text) := fun hk =>
          hne _ (List.mem_cons_of_mem _ hk) _ List.mem_cons_self rfl
        constructor
        · rintro (⟨hk, hfull⟩ | ⟨-, rfl, hfull⟩)
          · exact Or.inl ⟨Or.inr hk, hfull⟩
          · exact Or.inl ⟨Or.inl rfl, hfull⟩
        · rintro (⟨hk, hfull⟩ | ⟨⟨hself, -⟩, -⟩)
          · have htext : text = k := by
              rcases hk with he | hk
              · exact (congrArg Prod.snd he).symm
              · exact (congrArg Prod.snd (hsame hk)).symm
            by_cases hagain : ∃ x ∈ cells, x.1 = column
            · obtain ⟨x, hx, hxcolumn⟩ := hagain
              obtain rfl := hne x (List.mem_cons_of_mem _ hx) _ List.mem_cons_self hxcolumn
              exact Or.inl ⟨htext ▸ hx, hfull⟩
            · exact Or.inr ⟨fun x hx hxcolumn => hagain ⟨x, hx, hxcolumn⟩, htext, hfull⟩
          · exact absurd rfl hself
      · have hcell : (keyColumn, k) ≠ (column, text) := fun he =>
          hcolumn (congrArg Prod.fst he).symm
        simp [hcolumn, hcell]

namespace Stepwise

variable {σ α : Type} (k : Stepwise σ α) (keyColumn : String)

/-- The steps that cells take, those of the key column apart. -/
def stepsOf (cells : List (String × String)) : List α :=
  cells.flatMap fun cell =>
    if cell.1 = keyColumn then [] else (k.steps cell.1 cell.2).toOption.getD []

/-- **What cells amount to**: the key that they give, and the steps that they take. -/
theorem foldl_effect (cells : List (String × String)) (key : Option String) (s : σ) :
    cells.foldl (k.effect keyColumn) (key, s)
      = (keyAfter keyColumn key cells, (k.stepsOf keyColumn cells).foldl k.step s) := by
  induction cells generalizing key s with
  | nil => rfl
  | cons cell cells ih =>
      rw [List.foldl_cons, keyAfter, List.foldl_cons, stepsOf, List.flatMap_cons,
        List.foldl_append, effect]
      by_cases hkey : cell.1 = keyColumn
      · rw [if_pos hkey, if_pos hkey, if_pos hkey]
        exact ih _ _
      · rw [if_neg hkey, if_neg hkey, if_neg hkey]
        exact ih _ _

end Stepwise

/-! ## The values that a cell gives -/

/-- **Whether a cell gives a value to the field of its column**: what it converts to or, if it is
empty and the field can be cleared, the empty text. -/
def Shape.Gives (shape : Shape) (column cell : String) (v : Scalar) : Prop :=
  ∃ f : shape.Member, f.val.name = column ∧
    ((cell ≠ "" ∧ ∃ w, f.val.kind.convert column cell = .ok w ∧ v = w.val) ∨
      (cell = "" ∧ f.val.clearable = true ∧ v = .text ""))

section

variable {shape : Shape}

theorem Shape.gives_member {f : shape.Member} {cell : String} {v : Scalar} :
    shape.Gives f.val.name cell v ↔
      (cell ≠ "" ∧ ∃ w, f.val.kind.convert f.val.name cell = .ok w ∧ v = w.val) ∨
        (cell = "" ∧ f.val.clearable = true ∧ v = .text "") := by
  constructor
  · rintro ⟨g, hname, h⟩
    obtain rfl := Shape.member_ext hname
    exact h
  · exact fun h => ⟨f, rfl, h⟩

theorem Shape.Gives.unique {column cell : String} {v w : Scalar}
    (hv : shape.Gives column cell v) (hw : shape.Gives column cell w) : v = w := by
  obtain ⟨f, rfl, hv⟩ := hv
  rcases hv with ⟨hcell, a, ha, rfl⟩ | ⟨rfl, -, rfl⟩ <;>
    rcases Shape.gives_member.mp hw with ⟨hcell', b, hb, rfl⟩ | ⟨hempty, -, rfl⟩
  · rw [Except.ok.inj (ha.symm.trans hb)]
  · exact absurd hempty hcell
  · exact absurd rfl hcell'
  · rfl

namespace Record

/-- **The cells that are taken**: their columns are fields, and those that are not empty
convert. -/
theorem exists_cellSteps_iff {column cell : String} :
    (∃ as : List (Assignment shape), cellSteps column cell = .ok as) ↔
      ∃ f : shape.Member, f.val.name = column ∧
        (cell ≠ "" → ∃ v, f.val.kind.convert column cell = .ok v) := by
  unfold cellSteps
  cases hf : shape.member? column with
  | none =>
      refine iff_of_false (fun h => nomatch h) ?_
      rintro ⟨f, rfl, -⟩
      rw [Shape.member?_name] at hf
      cases hf
  | some f =>
      obtain rfl := Shape.member?_eq_some_iff.mp hf
      -- no other field has the name
      have hmember : (∃ g : shape.Member, g.val.name = f.val.name ∧
          (cell ≠ "" → ∃ v, g.val.kind.convert f.val.name cell = .ok v)) ↔
          (cell ≠ "" → ∃ v, f.val.kind.convert f.val.name cell = .ok v) := by
        refine ⟨?_, fun h => ⟨f, rfl, h⟩⟩
        rintro ⟨g, hname, h⟩
        obtain rfl := Shape.member_ext hname
        exact h
      rw [hmember]
      by_cases hcell : cell.isEmpty = true
      · simp only [if_pos hcell]
        refine iff_of_true ?_ fun hne => absurd (String.isEmpty_iff.mp hcell) hne
        split <;> exact ⟨_, rfl⟩
      · have hne : cell ≠ "" := fun hnil => hcell (String.isEmpty_iff.mpr hnil)
        simp only [if_neg hcell, exists_map_eq_ok_iff, hne, ne_eq, not_false_eq_true, true_imp_iff]

/-- **The values that a cell puts into a record** are those that it gives. -/
theorem mem_cellSteps_iff {column cell : String} {as : List (Assignment shape)}
    (h : cellSteps column cell = .ok as) {name : String} {v : Scalar} :
    (∃ a ∈ as, a.entry = (name, v)) ↔ name = column ∧ shape.Gives column cell v := by
  unfold cellSteps at h
  cases hf : shape.member? column with
  | none => rw [hf] at h; cases h
  | some f =>
      obtain rfl := Shape.member?_eq_some_iff.mp hf
      rw [Shape.gives_member]
      rw [hf] at h
      -- an empty cell gives a value only where fields can be cleared
      by_cases hcell : cell.isEmpty = true
      · obtain rfl := String.isEmpty_iff.mp hcell
        by_cases hclear : f.val.clearable = true
        · simp only [if_pos hcell, dif_pos hclear, Except.ok.injEq] at h
          subst h
          simp [Assignment.entry, Field.cleared, hclear, eq_comm]
        · simp only [if_pos hcell, dif_neg hclear, Except.ok.injEq] at h
          subst h
          simp [hclear]
      · have hne : cell ≠ "" := fun hnil => hcell (String.isEmpty_iff.mpr hnil)
        simp only [if_neg hcell] at h
        obtain ⟨w, hw, rfl⟩ := map_eq_ok_iff.mp h
        simp only [List.mem_singleton, exists_eq_left, Assignment.entry, Prod.mk.injEq]
        constructor
        · rintro ⟨rfl, rfl⟩
          exact ⟨rfl, Or.inl ⟨hne, w, hw, rfl⟩⟩
        · rintro ⟨rfl, ⟨-, w', hw', rfl⟩ | ⟨hempty, -⟩⟩
          · exact ⟨rfl, congrArg Subtype.val (Except.ok.inj (hw.symm.trans hw'))⟩
          · exact absurd hempty hne

end Record

/-- **Whether a cell sets a field to a value that counts as unset**: it is empty and clears the
field, or it says false of a truth value. -/
def Shape.Unsets (shape : Shape) (column cell : String) : Prop :=
  ∃ f : shape.Member, f.val.name = column ∧
    ((cell = "" ∧ f.val.clearable = true) ∨
      (f.val.kind = .boolean ∧ Text.lowercase cell = "false"))

theorem Shape.exists_gives_isZero_iff {column cell : String} :
    (∃ v, shape.Gives column cell v ∧ shape.isZero column v = true) ↔
      shape.Unsets column cell := by
  constructor
  · rintro ⟨v, ⟨f, rfl, hv⟩, hzero⟩
    rw [Shape.isZero_member] at hzero
    refine ⟨f, rfl, ?_⟩
    rcases hv with ⟨hcell, w, hw, rfl⟩ | ⟨hcell, hclear, rfl⟩
    · have hfalse := (Field.isZero_convert hcell hw).mp hzero
      exact Or.inr ((FieldKind.convert_eq_false_iff hw).mp hfalse)
    · exact Or.inl ⟨hcell, hclear⟩
  · rintro ⟨f, rfl, ⟨hcell, hclear⟩ | ⟨hkind, hfalse⟩⟩
    · refine ⟨.text "", Shape.gives_member.mpr (Or.inr ⟨hcell, hclear, rfl⟩), ?_⟩
      rw [Shape.isZero_member]
      exact Field.isZero_eq_true_iff.mpr (Or.inr ⟨hclear, rfl⟩)
    -- an empty text is not a way to write a truth value
    · have hcell : cell ≠ "" := by
        rintro rfl
        exact absurd hfalse (by decide +kernel)
      obtain ⟨w, hw⟩ : ∃ w, f.val.kind.convert f.val.name cell = .ok w := by
        rw [hkind, FieldKind.convert, FieldKind.parseBoolean_eq_false_iff.mpr hfalse]
        exact ⟨_, rfl⟩
      refine ⟨w.val, Shape.gives_member.mpr (Or.inl ⟨hcell, w, hw, rfl⟩), ?_⟩
      rw [Shape.isZero_member]
      have hflag := (FieldKind.convert_eq_false_iff hw).mpr ⟨hkind, hfalse⟩
      exact (Field.isZero_convert hcell hw).mpr hflag

end

/-! ## The record that a row fills -/

namespace FlatRow

/-- The record that the cells of a row fill. -/
def fill (type : FlatType) (cells : List (String × String)) : Record type.shape :=
  Record.empty.putAll ((Record.stepwise type.shape).stepsOf (ObjectType.flat type).key cells)

/-- Whether all cells of a row are taken. -/
def Taken (type : FlatType) (cells : List (String × String)) : Prop :=
  ∀ cell ∈ cells, (Record.stepwise type.shape).Takes (ObjectType.flat type).key cell

/-- **What the cells of a row give**: the key and the record that they fill, if all are taken. -/
theorem collect_eq_ok_iff {type : FlatType} {mode : BuildMode} {hasher : Hasher}
    {cells : List (String × String)} {key : Option String} {payload : Payload} :
    (⟨.flat type, mode, hasher⟩ : Builder).collect cells = .ok (key, payload) ↔
      Taken type cells ∧ key = keyAfter (ObjectType.flat type).key none cells ∧
        payload = .flat type (fill type cells) := by
  simp only [Builder.collect_flat, map_eq_ok_iff, Prod.mk.injEq]
  constructor
  · rintro ⟨⟨k, r⟩, hput, rfl, rfl⟩
    obtain ⟨htaken, hresult⟩ := (Record.stepwise type.shape).putCells_eq_ok_iff.mp hput
    rw [Stepwise.foldl_effect] at hresult
    obtain ⟨rfl, rfl⟩ := Prod.mk.inj hresult
    exact ⟨htaken, rfl, rfl⟩
  · rintro ⟨htaken, rfl, rfl⟩
    refine ⟨(_, fill type cells), ?_, rfl, rfl⟩
    refine (Record.stepwise type.shape).putCells_eq_ok_iff.mpr ⟨htaken, ?_⟩
    exact ((Record.stepwise type.shape).foldl_effect _ cells none .empty).symm

section

variable {type : FlatType} {cells : List (String × String)} (htaken : Taken type cells)
  (hone : ∀ x ∈ cells, ∀ y ∈ cells, x.1 = y.1 → x = y)
include htaken

/-- The values that the cells of a row put into the record. -/
theorem exists_mem_stepsOf_iff {name : String} {v : Scalar} :
    (∃ a ∈ (Record.stepwise type.shape).stepsOf (ObjectType.flat type).key cells,
        a.entry = (name, v)) ↔
      ∃ cell, (name, cell) ∈ cells ∧ name ≠ (ObjectType.flat type).key ∧
        type.shape.Gives name cell v := by
  simp only [Stepwise.stepsOf, List.mem_flatMap]
  constructor
  · rintro ⟨a, ⟨cell, hcell, ha⟩, he⟩
    by_cases hkey : cell.1 = (ObjectType.flat type).key
    · rw [if_pos hkey] at ha
      cases ha
    · obtain ⟨as, has⟩ := htaken cell hcell hkey
      rw [if_neg hkey, has] at ha
      obtain ⟨rfl, hgives⟩ := (Record.mem_cellSteps_iff has).mp ⟨a, ha, he⟩
      exact ⟨cell.2, hcell, hkey, hgives⟩
  · rintro ⟨cell, hcell, hkey, hgives⟩
    obtain ⟨as, has⟩ := htaken (name, cell) hcell hkey
    obtain ⟨a, ha, he⟩ := (Record.mem_cellSteps_iff has).mpr ⟨rfl, hgives⟩
    refine ⟨a, ⟨(name, cell), hcell, ?_⟩, he⟩
    rw [if_neg hkey, has]
    exact ha

include hone

/-- **The values of the record that a row fills** are those that its cells give. -/
theorem get?_fill_eq_some_iff {name : String} {v : Scalar} :
    (fill type cells).get? name = some v ↔
      ∃ cell, (name, cell) ∈ cells ∧ name ≠ (ObjectType.flat type).key ∧
        type.shape.Gives name cell v := by
  have hagree : ∀ a ∈ (Record.stepwise type.shape).stepsOf (ObjectType.flat type).key cells,
      ∀ b ∈ (Record.stepwise type.shape).stepsOf (ObjectType.flat type).key cells,
        a.1.val.name = b.1.val.name → a.2.val = b.2.val := by
    intro a ha b hb hname
    obtain ⟨cell, hcell, -, hgives⟩ := (exists_mem_stepsOf_iff htaken).mp ⟨a, ha, rfl⟩
    obtain ⟨cell', hcell', -, hgives'⟩ := (exists_mem_stepsOf_iff htaken).mp ⟨b, hb, rfl⟩
    -- values of one name come from one cell
    obtain rfl : cell = cell' := congrArg Prod.snd (hone _ hcell _ hcell' hname)
    rw [← hname] at hgives'
    exact hgives.unique hgives'
  rw [fill, Record.get?_putAll_eq_some_iff hagree, Record.get?_empty,
    exists_mem_stepsOf_iff htaken]
  simp

/-- **The record that a row fills forces exactly its values that count as unset.** -/
theorem isForced_fill {name : String} :
    (fill type cells).isForced name = true ↔ (fill type cells).HasZero name := by
  rw [fill, Record.isForced_putAll, Record.isForced_empty, ← fill, Record.HasZero]
  simp only [get?_fill_eq_some_iff htaken hone, ← exists_mem_stepsOf_iff htaken]
  constructor
  · rintro (⟨a, ha, rfl, hzero⟩ | hforced)
    · exact ⟨a.2.val, ⟨a, ha, rfl⟩, (Shape.isZero_member a.1 _).trans hzero⟩
    · cases hforced
  · rintro ⟨v, ⟨a, ha, he⟩, hzero⟩
    obtain ⟨rfl, rfl⟩ := Prod.mk.inj he
    exact Or.inl ⟨a, ha, rfl, (Shape.isZero_member a.1 _).symm.trans hzero⟩

theorem isForced_fill_iff {name : String} :
    (fill type cells).isForced name = true ↔
      ∃ cell, (name, cell) ∈ cells ∧ name ≠ (ObjectType.flat type).key ∧
        type.shape.Unsets name cell := by
  rw [isForced_fill htaken hone, Record.HasZero]
  simp only [get?_fill_eq_some_iff htaken hone, ← Shape.exists_gives_isZero_iff]
  constructor
  · rintro ⟨v, ⟨cell, hcell, hkey, hgives⟩, hzero⟩
    exact ⟨cell, hcell, hkey, v, hgives, hzero⟩
  · rintro ⟨cell, hcell, hkey, v, hgives, hzero⟩
    exact ⟨v, ⟨cell, hcell, hkey, hgives⟩, hzero⟩

end

/-! ## What a row has to say -/

/-- Whether a row has a cell for a column that is not empty. -/
def IsFilled (reads : String → String → Prop) (column : String) : Prop :=
  ∃ cell, reads column cell ∧ cell ≠ ""

/-- **What a row has to say** to be built, by the cells that it has for the columns. -/
structure Suffices (type : FlatType) (mode : BuildMode) (reads : String → String → Prop) :
    Prop where
  converts : ∀ column cell, reads column cell → column ≠ (ObjectType.flat type).key → cell ≠ "" →
    ∃ f : type.shape.Member, f.val.name = column ∧ ∃ v, f.val.kind.convert column cell = .ok v
  key : mode = .update ∨ type = .alias ∨ type = .groupSettings →
    IsFilled reads (ObjectType.flat type).key
  newGroup : type = .group → mode = .create → IsFilled reads "email" ∧ IsFilled reads "name"
  newMember : type = .member → mode = .create → IsFilled reads "email"
  aliasName : type = .alias → IsFilled reads "alias"

/-- **What a row that is built means**, by the cells that it has for the columns. -/
structure Means (type : FlatType) (reads : String → String → Prop) (built : BuiltRow) :
    Prop where
  key : ∀ k, built.key = some k ↔ reads (ObjectType.flat type).key k ∧ k ≠ ""
  payload : ∃ r : Record type.shape, built.payload = .flat type r
  fields : ∃ entries, built.payload.toJson = .obj entries ∧ SortedNames entries ∧
    ∀ name j, (name, j) ∈ entries ↔
      ∃ cell v, reads name cell ∧ name ≠ (ObjectType.flat type).key ∧
        type.shape.Gives name cell v ∧ j = v.toJson
  forced : ∀ name, built.payload.forced.contains name = true ↔
    ∃ cell, reads name cell ∧ name ≠ (ObjectType.flat type).key ∧ type.shape.Unsets name cell

section

variable {type : FlatType} {mode : BuildMode} {hasher : Hasher} {names : List String}
  {header : Header}

theorem eq_key_or_exists_field (hheader : Header.ofCells (.flat type) names = .ok header)
    {row : List String} {column cell : String} (h : header.Reads row column cell) :
    column = (ObjectType.flat type).key ∨ ∃ f : type.shape.Member, f.val.name = column := by
  obtain ⟨i, hi, -⟩ := h
  obtain ⟨e, he, rfl⟩ := Header.exists_entry_of_mem hheader (List.mem_of_getElem? hi)
  refine (type.columns_table e he).imp_right fun hfound => ?_
  obtain ⟨f, hf⟩ := Option.isSome_iff_exists.mp hfound
  have hname := Shape.name_of_find? hf
  exact ⟨⟨f, hname ▸ hf⟩, hname⟩

/-- The cells of a row are taken exactly if those that are not empty convert. -/
theorem taken_pair_iff (hheader : Header.ofCells (.flat type) names = .ok header)
    {row : List String} :
    Taken type (Header.pair header.columns row) ↔
      ∀ column cell, header.Reads row column cell → column ≠ (ObjectType.flat type).key →
        cell ≠ "" → ∃ f : type.shape.Member, f.val.name = column ∧
          ∃ v, f.val.kind.convert column cell = .ok v := by
  constructor
  · intro htaken column cell hreads hkey hcell
    obtain ⟨f, hname, hconvert⟩ := Record.exists_cellSteps_iff.mp
      (htaken (column, cell) (Header.reads_iff.mp hreads) hkey)
    exact ⟨f, hname, hconvert hcell⟩
  · intro h cell hcell hkey
    have hreads : header.Reads row cell.1 cell.2 := Header.reads_iff.mpr hcell
    refine Record.exists_cellSteps_iff.mpr ?_
    by_cases hempty : cell.2 = ""
    · obtain ⟨f, hname⟩ := (eq_key_or_exists_field hheader hreads).resolve_left hkey
      exact ⟨f, hname, fun hne => absurd hempty hne⟩
    · obtain ⟨f, hname, hconvert⟩ := h _ _ hreads hkey hempty
      exact ⟨f, hname, fun _ => hconvert⟩

/-- What a payload lacks. -/
theorem missing?_eq_none_iff {b : Builder} {key : Option String} {r : Record type.shape} :
    b.missing? key (.flat type r) = none ↔
      (b.needsKey = true → ∃ k, key = some k) ∧
        ∀ name ∈ b.neededFields, ∃ v, r.get? name = some v := by
  unfold Builder.missing?
  by_cases hkey : (b.needsKey && key.isNone) = true
  · rw [if_pos hkey]
    rw [Bool.and_eq_true, Option.isNone_iff_eq_none] at hkey
    refine iff_of_false (fun h => nomatch h) fun h => ?_
    obtain ⟨k, hk⟩ := h.1 hkey.1
    rw [hkey.2] at hk
    cases hk
  · rw [if_neg hkey, List.find?_eq_none]
    have hgiven : b.needsKey = true → ∃ k, key = some k := by
      intro hneeds
      rw [hneeds, Bool.true_and, Option.isNone_iff_eq_none] at hkey
      exact Option.ne_none_iff_exists'.mp hkey
    rw [and_iff_right hgiven]
    simp only [Option.isNone_iff_eq_none, ← ne_eq, Option.ne_none_iff_exists']

theorem find?_neededFields : ∀ name ∈ (⟨.flat type, mode, hasher⟩ : Builder).neededFields,
    type.shape.find? name = some (.text name) := by
  cases type <;> cases mode <;> simp [Builder.neededFields] <;> decide +kernel

/-- A text that nothing clears gets a value exactly if its cell is filled. -/
theorem exists_get?_fill_iff {cells : List (String × String)} (htaken : Taken type cells)
    (hone : ∀ x ∈ cells, ∀ y ∈ cells, x.1 = y.1 → x = y) {name : String}
    (hfind : type.shape.find? name = some (.text name)) :
    (∃ v, (fill type cells).get? name = some v) ↔
      IsFilled (fun column cell => (column, cell) ∈ cells) name := by
  have hkey : name ≠ (ObjectType.flat type).key := by
    rintro rfl
    rw [type.find?_key] at hfind
    cases hfind
  let f : type.shape.Member := ⟨.text name, hfind⟩
  -- a field for texts keeps what is in the cell
  have hgives : ∀ {cell : String} {v : Scalar}, type.shape.Gives name cell v ↔
      cell ≠ "" ∧ v = .text cell := by
    intro cell v
    refine (Shape.gives_member (f := f)).trans ?_
    constructor
    · rintro (⟨hcell, w, hw, rfl⟩ | ⟨-, hclear, -⟩)
      · cases hw
        exact ⟨hcell, rfl⟩
      · cases hclear
    · rintro ⟨hcell, rfl⟩
      exact Or.inl ⟨hcell, _, FieldKind.convert_text name cell, rfl⟩
  simp only [get?_fill_eq_some_iff htaken hone, hgives, IsFilled]
  constructor
  · rintro ⟨v, cell, hcell, -, hfull, -⟩
    exact ⟨cell, hcell, hfull⟩
  · rintro ⟨cell, hcell, hfull⟩
    exact ⟨.text cell, cell, hcell, hkey, hfull, rfl⟩

/-- What a row has to say, by what the builder asks for. -/
theorem suffices_iff_needs (hasher : Hasher) {reads : String → String → Prop} :
    Suffices type mode reads ↔
      (∀ column cell, reads column cell → column ≠ (ObjectType.flat type).key → cell ≠ "" →
        ∃ f : type.shape.Member, f.val.name = column ∧
          ∃ v, f.val.kind.convert column cell = .ok v) ∧
      ((⟨.flat type, mode, hasher⟩ : Builder).needsKey = true →
        IsFilled reads (ObjectType.flat type).key) ∧
      ∀ name ∈ (⟨.flat type, mode, hasher⟩ : Builder).neededFields, IsFilled reads name := by
  have hneeds : (⟨.flat type, mode, hasher⟩ : Builder).needsKey = true ↔
      mode = .update ∨ type = .alias ∨ type = .groupSettings := by
    simp [Builder.needsKey, or_assoc]
  rw [hneeds]
  constructor
  · intro h
    refine ⟨h.converts, h.key, ?_⟩
    have hgroup := h.newGroup
    have hmember := h.newMember
    have halias := h.aliasName
    -- what the builder asks for is listed by type and mode
    cases type <;> cases mode <;> simp_all [Builder.neededFields]
  · rintro ⟨hconverts, hkey, hfields⟩
    refine ⟨hconverts, hkey, ?_, ?_, ?_⟩
    · rintro rfl rfl
      exact ⟨hfields "email" (by simp [Builder.neededFields]),
        hfields "name" (by simp [Builder.neededFields])⟩
    · rintro rfl rfl
      exact hfields "email" (by simp [Builder.neededFields])
    · rintro rfl
      exact hfields "alias" (by simp [Builder.neededFields])

/-- **The rows that are built**: they say what they have to, and give the key and the record that
their cells give. -/
theorem build_eq_ok_iff (hheader : Header.ofCells (.flat type) names = .ok header)
    (hnodup : header.columns.Nodup) {row : List String} {built : BuiltRow} :
    (⟨.flat type, mode, hasher⟩ : Builder).build header row = .ok built ↔
      Suffices type mode (header.Reads row) ∧
        built.key = keyAfter (ObjectType.flat type).key none (Header.pair header.columns row) ∧
        built.payload = .flat type (fill type (Header.pair header.columns row)) := by
  have hone := Header.eq_of_mem_pair hnodup row
  have hkey : (∃ k, keyAfter (ObjectType.flat type).key none (Header.pair header.columns row)
      = some k) ↔ IsFilled (header.Reads row) (ObjectType.flat type).key := by
    simp [keyAfter_eq_some_iff hone, IsFilled, Header.reads_iff]
  -- only a row that is taken has a record to look at
  have hfield : Taken type (Header.pair header.columns row) →
      ∀ name ∈ (⟨.flat type, mode, hasher⟩ : Builder).neededFields,
        ((∃ v, (fill type (Header.pair header.columns row)).get? name = some v) ↔
          IsFilled (header.Reads row) name) := by
    intro htaken name hname
    rw [exists_get?_fill_iff htaken hone (find?_neededFields name hname)]
    simp only [IsFilled, Header.reads_iff]
  rw [Builder.build_eq_ok_iff, collect_eq_ok_iff, suffices_iff_needs hasher,
    ← taken_pair_iff hheader, ← hkey, and_iff_right (Header.ofCells_object hheader)]
  constructor
  · rintro ⟨⟨htaken, hk, hpayload⟩, hmissing⟩
    rw [hk, hpayload, missing?_eq_none_iff] at hmissing
    exact ⟨⟨htaken, hmissing.1, fun name hname =>
      (hfield htaken name hname).mp (hmissing.2 name hname)⟩, hk, hpayload⟩
  · rintro ⟨⟨htaken, hneeds, hfields⟩, hk, hpayload⟩
    refine ⟨⟨htaken, hk, hpayload⟩, ?_⟩
    rw [hk, hpayload, missing?_eq_none_iff]
    exact ⟨hneeds, fun name hname => (hfield htaken name hname).mpr (hfields name hname)⟩

/-- **What the key and the record that a row fills mean.** -/
theorem means_fill {row : List String} (htaken : Taken type (Header.pair header.columns row))
    (hone : ∀ x ∈ Header.pair header.columns row, ∀ y ∈ Header.pair header.columns row,
      x.1 = y.1 → x = y) :
    Means type (header.Reads row)
      ⟨keyAfter (ObjectType.flat type).key none (Header.pair header.columns row),
        .flat type (fill type (Header.pair header.columns row))⟩ where
  key k := by
    rw [keyAfter_eq_some_iff hone, Header.reads_iff]
    simp
  payload := ⟨_, rfl⟩
  fields := by
    refine ⟨_, rfl, ?_, fun name j => ?_⟩
    · exact List.pairwise_map.mpr (fill type (Header.pair header.columns row)).values.sorted
    · simp only [List.mem_map, Prod.exists, Prod.mk.injEq, NameMap.mem_entries_iff,
        Header.reads_iff]
      constructor
      · rintro ⟨name, v, hv, rfl, rfl⟩
        obtain ⟨cell, hcell, hkey, hgives⟩ := (get?_fill_eq_some_iff htaken hone).mp hv
        exact ⟨cell, v, hcell, hkey, hgives, rfl⟩
      · rintro ⟨cell, v, hcell, hkey, hgives, rfl⟩
        have hv := (get?_fill_eq_some_iff htaken hone).mpr ⟨cell, hcell, hkey, hgives⟩
        exact ⟨name, v, hv, rfl, rfl⟩
  forced name := by
    simp only [Header.reads_iff]
    exact isForced_fill_iff htaken hone

/-- **What a row about a flat object means.** A row is built exactly if it says what it has to: its
cells that are not empty convert, and those that are needed are not empty. It then gives the key of
the key column, the values that its cells give as the fields of its payload, and forces those that
clear a field or say false. The columns have to be different. -/
theorem build_flat (hheader : Header.ofCells (.flat type) names = .ok header)
    (hnodup : header.columns.Nodup) (mode : BuildMode) (hasher : Hasher) (row : List String) :
    ((∃ built, (⟨.flat type, mode, hasher⟩ : Builder).build header row = .ok built) ↔
        Suffices type mode (header.Reads row)) ∧
      ∀ built, (⟨.flat type, mode, hasher⟩ : Builder).build header row = .ok built →
        Means type (header.Reads row) built := by
  constructor
  · constructor
    · rintro ⟨built, hbuild⟩
      exact ((build_eq_ok_iff hheader hnodup).mp hbuild).1
    · intro h
      exact ⟨⟨_, _⟩, (build_eq_ok_iff hheader hnodup).mpr ⟨h, rfl, rfl⟩⟩
  · rintro ⟨key, payload⟩ hbuild
    obtain ⟨hsuffices, rfl, rfl⟩ := (build_eq_ok_iff hheader hnodup).mp hbuild
    have htaken := (taken_pair_iff hheader).mpr hsuffices.converts
    exact means_fill htaken (Header.eq_of_mem_pair hnodup row)

/-- A row about an organizational unit that clears the description, says false in capitals, and
ends before the name. -/
theorem build_flat_orgUnit :
    ∃ header built,
      Header.ofCells (.flat .orgUnit) ["ouKey", "description", "BlockInheritance", "name"]
        = .ok header ∧
      header.columns.Nodup ∧
      (⟨.flat .orgUnit, .update, .sha512⟩ : Builder).build header ["id:1", "", "FALSE"]
        = .ok built ∧
      Suffices .orgUnit .update (header.Reads ["id:1", "", "FALSE"]) ∧
      Means .orgUnit (header.Reads ["id:1", "", "FALSE"]) built := by
  let row := ["id:1", "", "FALSE"]
  let header : Header := ⟨.flat .orgUnit, ["ouKey", "description", "blockInheritance", "name"]⟩
  have hheader : Header.ofCells (.flat .orgUnit)
      ["ouKey", "description", "BlockInheritance", "name"] = .ok header :=
    toOption_eq_some_iff.mp (by decide +kernel)
  have hnodup : header.columns.Nodup := by decide +kernel
  have htaken : ((⟨.flat .orgUnit, .update, .sha512⟩ : Builder).build header row).toOption.isSome
      = true := by
    decide +kernel
  obtain ⟨built, hbuilt⟩ := Option.isSome_iff_exists.mp htaken
  have hbuild := toOption_eq_some_iff.mp hbuilt
  obtain ⟨hiff, hmeans⟩ := build_flat hheader hnodup .update .sha512 row
  exact ⟨header, built, hheader, hnodup, hbuild, hiff.mp ⟨built, hbuild⟩, hmeans built hbuild⟩

end

end FlatRow

end Registrar
