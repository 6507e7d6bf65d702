import Mathlib.Data.List.Nodup
import Registrar.Proofs.Freeform.Commuting

/-!
# The order of columns

A row is read cell by cell, and each cell changes what the ones before it have made. The order of
the columns does not matter all the same: what a cell changes is given by the cell alone, and cells
of different columns change different parts of the payload. The columns of a user that hold the
name and a part of the name are the only exception.

```
suspended  userKey  emails               emails               suspended  userKey
true       a@b.org  {address~a@b.org}    {address~a@b.org}    true       a@b.org
```

* `Header.ofCells_eq_ok_iff` — the headers that are accepted.
* `Stepwise.putCells_perm` — cells that are put into a state in another order.
* `Builder.collect_perm` — the key and the payload of a row.
* `Builder.build_perm` — building a row.
-/

set_option autoImplicit false

namespace Registrar

/-! ## Putting cells into a state by steps -/

/-- Changes that commute one by one commute together. -/
theorem foldl_foldl_comm {σ α : Type} {step : σ → α → σ} {as bs : List α}
    (h : ∀ a ∈ as, ∀ b ∈ bs, ∀ s, step (step s a) b = step (step s b) a) (s : σ) :
    bs.foldl step (as.foldl step s) = as.foldl step (bs.foldl step s) := by
  -- the first of the changes passes all of the others
  have first : ∀ a ∈ as, ∀ s, bs.foldl step (step s a) = step (bs.foldl step s) a := by
    intro a ha s
    have ha' := h a ha
    clear h
    induction bs generalizing s with
    | nil => rfl
    | cons b bs ih =>
        rw [List.foldl_cons, List.foldl_cons, ha' b List.mem_cons_self]
        exact ih _ fun b' hb' => ha' b' (List.mem_cons_of_mem _ hb')
  clear h
  induction as generalizing s with
  | nil => rfl
  | cons a as ih =>
      rw [List.foldl_cons, List.foldl_cons, ← first a List.mem_cons_self]
      exact ih _ fun a' ha' => first a' (List.mem_cons_of_mem _ ha')

/-- **A way of putting cells into a state by steps.** The steps that a cell takes depend on the
cell alone. Steps of different columns commute unless the columns overlap. -/
structure Stepwise (σ α : Type) where
  put : σ → String → String → Except Error σ
  steps : String → String → Except Error (List α)
  step : σ → α → σ
  overlap : String → String → Prop
  put_eq : ∀ s column cell, put s column cell = (steps column cell).map fun as => as.foldl step s
  step_comm : ∀ {x y : String × String} {as bs : List α}, steps x.1 x.2 = .ok as →
    steps y.1 y.2 = .ok bs → x.1 ≠ y.1 → ¬overlap x.1 y.1 →
    ∀ a ∈ as, ∀ b ∈ bs, ∀ s, step (step s a) b = step (step s b) a

namespace Stepwise

variable {σ α : Type} (k : Stepwise σ α) (keyColumn : String)

/-- Whether the cell of a column is taken. Every key is. -/
def Takes (cell : String × String) : Prop :=
  cell.1 ≠ keyColumn → ∃ as, k.steps cell.1 cell.2 = .ok as

/-- What a cell that is taken makes of the key and the state. -/
def effect (acc : Option String × σ) (cell : String × String) : Option String × σ :=
  if cell.1 = keyColumn then (keyOfCell cell.2, acc.2)
  else (acc.1, ((k.steps cell.1 cell.2).toOption.getD []).foldl k.step acc.2)

variable {k keyColumn}

theorem effect_of_key {cell : String × String} (h : cell.1 = keyColumn)
    (acc : Option String × σ) : k.effect keyColumn acc cell = (keyOfCell cell.2, acc.2) := by
  rw [effect, if_pos h]

theorem effect_of_steps {cell : String × String} (h : cell.1 ≠ keyColumn) {as : List α}
    (has : k.steps cell.1 cell.2 = .ok as) (acc : Option String × σ) :
    k.effect keyColumn acc cell = (acc.1, as.foldl k.step acc.2) := by
  rw [effect, if_neg h, has]
  rfl

/-- **Cells are put into a state exactly if each of them is taken**, and then have their effects
one after the other. -/
theorem putCells_eq_ok_iff {cells : List (String × String)} {key : Option String} {s : σ}
    {result : Option String × σ} :
    putCells keyColumn k.put key s cells = .ok result ↔
      (∀ cell ∈ cells, k.Takes keyColumn cell) ∧
        result = cells.foldl (k.effect keyColumn) (key, s) := by
  induction cells generalizing key s with
  | nil => simp [putCells, eq_comm]
  | cons cell cells ih =>
      obtain ⟨column, text⟩ := cell
      rw [putCells, List.forall_mem_cons, List.foldl_cons]
      by_cases hkey : column = keyColumn
      -- a cell of the key column is always taken
      · have htakes : k.Takes keyColumn (column, text) := fun hne => absurd hkey hne
        rw [if_pos hkey, ih, effect_of_key hkey, and_iff_right htakes]
      · rw [if_neg hkey, k.put_eq]
        cases hsteps : k.steps column text with
        | error e =>
            refine iff_of_false (by simp [Except.map]) ?_
            rintro ⟨⟨htakes, -⟩, -⟩
            obtain ⟨as, has⟩ := htakes hkey
            rw [hsteps] at has
            cases has
        | ok as =>
            have htakes : k.Takes keyColumn (column, text) := fun _ => ⟨as, hsteps⟩
            simp only [Except.map]
            rw [ih, effect_of_steps hkey hsteps, and_iff_right htakes]

/-- The effects of cells that are taken commute if their columns are different and do not
overlap. -/
theorem effect_comm {x y : String × String} (hx : k.Takes keyColumn x) (hy : k.Takes keyColumn y)
    (hne : x.1 ≠ y.1) (ho : ¬k.overlap x.1 y.1) (acc : Option String × σ) :
    k.effect keyColumn (k.effect keyColumn acc x) y
      = k.effect keyColumn (k.effect keyColumn acc y) x := by
  by_cases hxkey : x.1 = keyColumn
  · have hykey : y.1 ≠ keyColumn := fun h => hne (hxkey.trans h.symm)
    obtain ⟨bs, hbs⟩ := hy hykey
    rw [effect_of_key hxkey, effect_of_steps hykey hbs, effect_of_steps hykey hbs,
      effect_of_key hxkey]
  · obtain ⟨as, has⟩ := hx hxkey
    by_cases hykey : y.1 = keyColumn
    · rw [effect_of_steps hxkey has, effect_of_key hykey, effect_of_key hykey,
        effect_of_steps hxkey has]
    · obtain ⟨bs, hbs⟩ := hy hykey
      rw [effect_of_steps hxkey has, effect_of_steps hykey hbs, effect_of_steps hykey hbs,
        effect_of_steps hxkey has]
      exact congrArg (acc.1, ·) (foldl_foldl_comm (k.step_comm has hbs hne ho) acc.2)

/-- **Cells can be put into a state in any order**, if their columns are different and do not
overlap. -/
theorem putCells_perm {cells cells' : List (String × String)} (hperm : cells.Perm cells')
    (hapart : ∀ x ∈ cells, ∀ y ∈ cells, x = y ∨ (x.1 ≠ y.1 ∧ ¬k.overlap x.1 y.1))
    {key : Option String} {s : σ} {result : Option String × σ} :
    putCells keyColumn k.put key s cells = .ok result ↔
      putCells keyColumn k.put key s cells' = .ok result := by
  have htakes : (∀ cell ∈ cells, k.Takes keyColumn cell) ↔
      ∀ cell ∈ cells', k.Takes keyColumn cell :=
    forall_congr' fun cell => imp_congr_left hperm.mem_iff
  rw [putCells_eq_ok_iff, putCells_eq_ok_iff, ← htakes]
  refine and_congr_right fun htaken => ?_
  have hfold : cells.foldl (k.effect keyColumn) (key, s)
      = cells'.foldl (k.effect keyColumn) (key, s) := by
    refine hperm.foldl_eq' (fun x hx y hy acc => ?_) (key, s)
    rcases hapart x hx y hy with rfl | ⟨hne, ho⟩
    · rfl
    · exact effect_comm (htaken x hx) (htaken y hy) hne ho acc
  rw [hfold]

end Stepwise

/-! ## Cells of both kinds of objects -/

namespace Record

variable {shape : Shape}

/-- The values that the cell of a column puts into a record. -/
def cellSteps (column cell : String) : Except Error (List (Assignment shape)) :=
  match shape.member? column with
  | none => .error (.unknownAttribute column)
  | some f =>
      if cell.isEmpty then
        if h : f.val.clearable = true then .ok [⟨f, f.val.cleared h⟩] else .ok []
      else (f.val.kind.convert f.val.name cell).map fun v => [⟨f, v⟩]

/-- A cell puts values into the field of its column. -/
theorem name_of_mem_cellSteps {column cell : String} {as : List (Assignment shape)}
    (h : cellSteps column cell = .ok as) : ∀ a ∈ as, a.1.val.name = column := by
  intro a ha
  unfold cellSteps at h
  split at h
  · cases h
  · rename_i f hf
    have hname := Shape.member?_eq_some_iff.mp hf
    split at h
    · split at h
      · cases h
        rw [List.mem_singleton.mp ha]
        exact hname
      · cases h
        cases ha
    · obtain ⟨v, -, rfl⟩ := map_eq_ok_iff.mp h
      rw [List.mem_singleton.mp ha]
      exact hname

theorem putCell_eq (r : Record shape) (column cell : String) :
    r.putCell column cell = (cellSteps column cell).map r.putAll := by
  unfold putCell cellSteps
  cases shape.member? column with
  | none => rfl
  | some f =>
      by_cases hcell : cell.isEmpty = true
      · simp only [if_pos hcell]
        by_cases hclear : f.val.clearable = true
        · simp only [dif_pos hclear]
          rfl
        · simp only [dif_neg hclear]
          rfl
      · simp only [if_neg hcell]
        cases f.val.kind.convert f.val.name cell <;> rfl

/-- **The cells of a flat object** put values into its record. -/
def stepwise (shape : Shape) : Stepwise (Record shape) (Assignment shape) where
  put := putCell
  steps := cellSteps
  step r a := r.put a.1 a.2
  overlap _ _ := False
  put_eq := putCell_eq
  step_comm := by
    intro x y as bs has hbs hne _ a ha b hb r
    have hnames : a.1.val.name ≠ b.1.val.name := by
      rw [name_of_mem_cellSteps has a ha, name_of_mem_cellSteps hbs b hb]
      exact hne
    exact r.put_comm a.2 b.2 hnames

end Record

namespace User

/-- The edits that the cell of a column makes. -/
def cellSteps (column cell : String) : Except Error (List Edit) :=
  match Composite.ofField? column with
  | some c => if cell.isEmpty then .ok [] else c.edits cell.toList
  | none =>
      match Slot.ofName? column with
      | none => .error (.unknownAttribute column)
      | some s =>
          if cell.isEmpty then
            if h : s.field.clearable = true then .ok [.put s (s.field.cleared h)] else .ok []
          else (s.edit cell).map ([·])

/-- A cell makes edits of the attribute of its column. -/
theorem column_of_mem_cellSteps {column cell : String} {es : List Edit}
    (h : cellSteps column cell = .ok es) : ∀ e ∈ es, e.column = column := by
  intro e he
  unfold cellSteps at h
  split at h
  · rename_i c hc
    obtain rfl := Composite.field_of_ofField? hc
    split at h
    · cases h
      cases he
    · exact Edit.column_of_mem_edits h he
  · split at h
    · cases h
    · rename_i s hs
      obtain rfl := Slot.name_of_ofName? hs
      split at h
      · split at h
        · cases h
          rw [List.mem_singleton.mp he]
          rfl
        · cases h
          cases he
      · obtain ⟨e', he', rfl⟩ := map_eq_ok_iff.mp h
        rw [List.mem_singleton.mp he]
        exact Edit.column_of_edit he'

theorem putCell_eq (hasher : Hasher) (u : User) (column cell : String) :
    u.putCell hasher column cell = (cellSteps column cell).map (u.editAll hasher) := by
  unfold putCell cellSteps
  cases Composite.ofField? column with
  | some c =>
      by_cases hcell : cell.isEmpty = true
      · simp only [if_pos hcell]
        rfl
      · simp only [if_neg hcell]
        exact u.settled_applyBody hasher c cell.toList
  | none =>
      cases Slot.ofName? column with
      | none => rfl
      | some s =>
          by_cases hcell : cell.isEmpty = true
          · simp only [if_pos hcell]
            by_cases hclear : s.field.clearable = true
            · simp only [dif_pos hclear]
              rfl
            · simp only [dif_neg hclear]
              rfl
          · simp only [if_neg hcell, u.assign_eq hasher s cell]
            cases s.edit cell <;> rfl

/-- **The cells of a user** make edits. -/
def stepwise (hasher : Hasher) : Stepwise User Edit where
  put u := u.putCell hasher
  steps := cellSteps
  step := edit hasher
  overlap := Overlap
  put_eq := putCell_eq hasher
  step_comm := by
    intro x y es fs hes hfs hne ho e he f hf u
    rw [← column_of_mem_cellSteps hes e he, ← column_of_mem_cellSteps hfs f hf] at hne ho
    exact u.edit_comm hasher hne ho

end User

/-! ## Rows -/

namespace Builder

/-- **The key and the payload of a row do not depend on the order of its cells**, if their columns
are different and do not overlap. -/
theorem collect_perm {b : Builder} {cells cells' : List (String × String)}
    (hperm : cells.Perm cells')
    (hne : ∀ x ∈ cells, ∀ y ∈ cells, x = y ∨ x.1 ≠ y.1)
    (ho : b.object = .user → ∀ x ∈ cells, ∀ y ∈ cells, ¬User.Overlap x.1 y.1)
    (result : Option String × Payload) :
    b.collect cells = .ok result ↔ b.collect cells' = .ok result := by
  obtain ⟨object, mode, hasher⟩ := b
  cases object with
  | flat type =>
      simp only [collect_flat, map_eq_ok_iff]
      refine exists_congr fun r => and_congr_left fun _ => ?_
      refine (Record.stepwise type.shape).putCells_perm hperm fun x hx y hy => ?_
      exact (hne x hx y hy).imp_right fun h => ⟨h, id⟩
  | user =>
      simp only [collect, map_eq_ok_iff]
      refine exists_congr fun r => and_congr_left fun _ => ?_
      refine (User.stepwise hasher).putCells_perm hperm fun x hx y hy => ?_
      exact (hne x hx y hy).imp_right fun h => ⟨h, ho rfl x hx y hy⟩

/-- What a row that is built gives. -/
theorem build_eq_ok_iff {b : Builder} {header : Header} {row : List String} {built : BuiltRow} :
    b.build header row = .ok built ↔
      header.object = b.object ∧
        b.collect (Header.pair header.columns row) = .ok (built.key, built.payload) ∧
        b.missing? built.key built.payload = none := by
  unfold build
  by_cases hobject : header.object = b.object
  · rw [if_neg (not_not.mpr hobject), and_iff_right hobject]
    cases hcollect : b.collect (Header.pair header.columns row) with
    | error e => simp
    | ok r =>
        obtain ⟨key, payload⟩ := r
        obtain ⟨key', payload'⟩ := built
        simp only [Except.ok.injEq, Prod.mk.injEq]
        constructor
        · intro h
          split at h
          · cases h
          · rename_i hmissing
            cases h
            exact ⟨⟨rfl, rfl⟩, hmissing⟩
        · rintro ⟨⟨rfl, rfl⟩, hmissing⟩
          rw [hmissing]
  · rw [if_pos hobject]
    exact iff_of_false (fun h => nomatch h) fun h => hobject h.1

end Builder

theorem mem_of_findValue? {α : Type} {name : String} {value : α} {es : List (String × α)}
    (h : findValue? name es = some value) : (name, value) ∈ es := by
  induction es with
  | nil => cases h
  | cons e es ih =>
      rw [findValue?] at h
      split at h
      · rename_i hname
        rw [hname, ← Option.some.inj h]
        exact List.mem_cons_self
      · exact List.mem_cons_of_mem _ (ih h)

namespace Header

/-- The column that a cell of a header names. -/
def column? (object : ObjectType) (cell : String) : Option String :=
  if (Text.trimString cell).isEmpty then none else object.columns.get? (Text.trimString cell)

/-- The column that a cell of an accepted header names. -/
def column (object : ObjectType) (cell : String) : String := (column? object cell).getD ""

theorem resolveFrom_eq_ok_iff {object : ObjectType} {number : Nat} {cells columns : List String} :
    resolveFrom object.columns number cells = .ok columns ↔
      (∀ cell ∈ cells, (column? object cell).isSome = true) ∧
        columns = cells.map (column object) := by
  induction cells generalizing number columns with
  | nil =>
      constructor
      · intro h
        cases h
        exact ⟨fun cell hcell => absurd hcell List.not_mem_nil, rfl⟩
      · rintro ⟨-, rfl⟩
        rfl
  | cons cell cells ih =>
      rw [resolveFrom, List.forall_mem_cons, List.map_cons]
      -- a blank cell is refused although no vocabulary is asked for it
      by_cases hempty : (Text.trimString cell).isEmpty = true
      · have hnone : column? object cell = none := by rw [column?, if_pos hempty]
        simp [hempty, hnone]
      · have hcolumn : column? object cell = object.columns.get? (Text.trimString cell) := by
          rw [column?, if_neg hempty]
        simp only [if_neg hempty]
        cases hresolve : object.columns.resolve (Text.trimString cell) with
        | error e =>
            have hget := (Vocabulary.resolve_eq_error_iff.mp hresolve).1
            simp [hcolumn, hget]
        | ok name =>
            have hget := Vocabulary.resolve_eq_ok_iff.mp hresolve
            have hname : column object cell = name := by rw [column, hcolumn, hget]; rfl
            simp only [map_eq_ok_iff, ih, hcolumn, hget, hname, Option.isSome_some, true_and]
            constructor
            · rintro ⟨names, ⟨hcells, rfl⟩, rfl⟩
              exact ⟨hcells, rfl⟩
            · rintro ⟨hcells, rfl⟩
              exact ⟨_, ⟨hcells, rfl⟩, rfl⟩

/-- **The headers that are accepted**: there is a cell, and each cell names a column. -/
theorem ofCells_eq_ok_iff {object : ObjectType} {cells : List String} {h : Header} :
    ofCells object cells = .ok h ↔
      cells ≠ [] ∧ (∀ cell ∈ cells, (column? object cell).isSome = true) ∧
        h = ⟨object, cells.map (column object)⟩ := by
  unfold ofCells
  by_cases hempty : cells.isEmpty = true
  · rw [if_pos hempty]
    exact iff_of_false (fun h => nomatch h) fun h => h.1 (List.isEmpty_iff.mp hempty)
  · have hne : cells ≠ [] := fun hnil => hempty (List.isEmpty_iff.mpr hnil)
    rw [if_neg hempty, and_iff_right hne, map_eq_ok_iff]
    simp only [resolveFrom_eq_ok_iff]
    constructor
    · rintro ⟨columns, ⟨hcells, rfl⟩, rfl⟩
      exact ⟨hcells, rfl⟩
    · rintro ⟨hcells, rfl⟩
      exact ⟨_, ⟨hcells, rfl⟩, rfl⟩

theorem exists_entry_of_mem {object : ObjectType} {cells : List String} {h : Header}
    (hheader : ofCells object cells = .ok h) {column : String} (hcolumn : column ∈ h.columns) :
    ∃ e ∈ object.columns.entries, e.2 = column := by
  obtain ⟨-, haccepted, rfl⟩ := ofCells_eq_ok_iff.mp hheader
  obtain ⟨cell, hcell, rfl⟩ := List.mem_map.mp hcolumn
  obtain ⟨name, hname⟩ := Option.isSome_iff_exists.mp (haccepted cell hcell)
  have hget : object.columns.get? (Text.trimString cell) = some name := by
    unfold column? at hname
    split at hname
    · cases hname
    · exact hname
  rw [Header.column, hname]
  exact ⟨_, mem_of_findValue? hget, rfl⟩

theorem pair_map (f : String → String) (xs : List (String × String)) :
    pair ((xs.map Prod.fst).map f) (xs.map Prod.snd) = xs.map fun x => (f x.1, x.2) := by
  induction xs with
  | nil => rfl
  | cons x xs ih => rw [List.map_cons, List.map_cons, List.map_cons, pair, ih, List.map_cons]

theorem map_fst_pair (f : String → String) (xs : List (String × String)) :
    (xs.map fun x => (f x.1, x.2)).map Prod.fst = (xs.map Prod.fst).map f := by
  rw [List.map_map, List.map_map]
  rfl

/-- **Whether a header keeps the name of a user apart**: it does not hold the name together with a
part of it. -/
def KeepsNameApart (h : Header) : Prop :=
  h.object = .user → "name" ∈ h.columns → "familyName" ∉ h.columns ∧ "givenName" ∉ h.columns

instance (h : Header) : Decidable h.KeepsNameApart := by
  unfold KeepsNameApart
  infer_instance

theorem KeepsNameApart.not_overlap {h : Header} (hname : h.KeepsNameApart)
    (huser : h.object = .user) {a b : String} (ha : a ∈ h.columns) (hb : b ∈ h.columns) :
    ¬User.Overlap a b := by
  have hpart : ∀ c ∈ h.columns, "name" ∈ h.columns → c ∉ User.partsOfName := by
    intro c hc hn hmem
    obtain ⟨hfamily, hgiven⟩ := hname huser hn
    rcases List.mem_pair.mp hmem with rfl | rfl
    · exact hfamily hc
    · exact hgiven hc
  rintro (⟨rfl, hmem⟩ | ⟨rfl, hmem⟩)
  · exact hpart b hb ha hmem
  · exact hpart a ha hb hmem

/-- The header that cells name, if they are accepted. -/
def named (object : ObjectType) (cells : List String) : Header :=
  ⟨object, cells.map (column object)⟩

end Header

namespace Builder

/-- The cells of a row, each with its column. -/
def cellsOf (object : ObjectType) (columns : List (String × String)) : List (String × String) :=
  columns.map fun x => (Header.column object x.1, x.2)

theorem pair_named (object : ObjectType) (columns : List (String × String)) :
    Header.pair (Header.named object (columns.map Prod.fst)).columns (columns.map Prod.snd)
      = cellsOf object columns :=
  Header.pair_map (Header.column object) columns

theorem columns_named (object : ObjectType) (columns : List (String × String)) :
    (Header.named object (columns.map Prod.fst)).columns
      = (cellsOf object columns).map Prod.fst :=
  (Header.map_fst_pair (Header.column object) columns).symm

/-- **Building a row does not depend on the order of its columns**, if they are different and keep
the name apart. Each column is given with its cell. -/
theorem build_named_perm {b : Builder} {columns columns' : List (String × String)}
    (hperm : columns.Perm columns')
    (hnodup : (Header.named b.object (columns.map Prod.fst)).columns.Nodup)
    (hname : (Header.named b.object (columns.map Prod.fst)).KeepsNameApart) (built : BuiltRow) :
    b.build (.named b.object (columns.map Prod.fst)) (columns.map Prod.snd) = .ok built ↔
      b.build (.named b.object (columns'.map Prod.fst)) (columns'.map Prod.snd) = .ok built := by
  have hcells : (cellsOf b.object columns).Perm (cellsOf b.object columns') := hperm.map _
  rw [build_eq_ok_iff, build_eq_ok_iff, pair_named, pair_named]
  refine and_congr_right fun _ => and_congr_left fun _ => collect_perm hcells ?_ ?_ _
  · -- cells of one column are one cell
    rw [columns_named] at hnodup
    intro x hx y hy
    by_cases hxy : x.1 = y.1
    · exact Or.inl (List.inj_on_of_nodup_map hnodup hx hy hxy)
    · exact Or.inr hxy
  · intro huser x hx y hy
    have hcolumn : ∀ z ∈ cellsOf b.object columns,
        z.1 ∈ (Header.named b.object (columns.map Prod.fst)).columns := by
      intro z hz
      rw [columns_named]
      exact List.mem_map_of_mem hz
    exact hname.not_overlap huser (hcolumn x hx) (hcolumn y hy)

/-- **The order of columns does not matter.** A header with the columns in another order is
accepted, and a row with its cells in that order gives the same key and the same payload, or is
not built either. -/
theorem build_perm {b : Builder} {columns columns' : List (String × String)}
    (hperm : columns.Perm columns') {header : Header}
    (hheader : Header.ofCells b.object (columns.map Prod.fst) = .ok header)
    (hnodup : header.columns.Nodup) (hname : header.KeepsNameApart) :
    ∃ header', Header.ofCells b.object (columns'.map Prod.fst) = .ok header' ∧
      ∀ built, b.build header (columns.map Prod.snd) = .ok built ↔
        b.build header' (columns'.map Prod.snd) = .ok built := by
  obtain ⟨hne, hcells, rfl⟩ := Header.ofCells_eq_ok_iff.mp hheader
  have hnames := hperm.map Prod.fst
  have hne' : columns'.map Prod.fst ≠ [] := fun hnil => by
    rw [hnil] at hnames
    exact hne hnames.eq_nil
  have hcells' : ∀ cell ∈ columns'.map Prod.fst, (Header.column? b.object cell).isSome = true :=
    fun cell hcell => hcells cell (hnames.mem_iff.mpr hcell)
  exact ⟨.named b.object (columns'.map Prod.fst),
    Header.ofCells_eq_ok_iff.mpr ⟨hne', hcells', rfl⟩, build_named_perm hperm hnodup hname⟩

/-- A row about a user with its columns in two orders. -/
theorem build_perm_suspended :
    ∃ header header' built,
      Header.ofCells .user ["suspended", "UserKey", "email"] = .ok header ∧
      header.columns.Nodup ∧ header.KeepsNameApart ∧
      Header.ofCells .user ["email", "suspended", "UserKey"] = .ok header' ∧
      (⟨.user, .update, .sha512⟩ : Builder).build header
        ["false", "a@b.org", "\x7baddress~a@b.org\x7d"] = .ok built ∧
      (⟨.user, .update, .sha512⟩ : Builder).build header'
        ["\x7baddress~a@b.org\x7d", "false", "a@b.org"] = .ok built := by
  let b : Builder := ⟨.user, .update, .sha512⟩
  let columns := [("suspended", "false"), ("UserKey", "a@b.org"),
    ("email", "\x7baddress~a@b.org\x7d")]
  let columns' := [("email", "\x7baddress~a@b.org\x7d"), ("suspended", "false"),
    ("UserKey", "a@b.org")]
  let header : Header := ⟨.user, ["suspended", "userKey", "emails"]⟩
  have hperm : columns.Perm columns' := by decide +kernel
  have hheader : Header.ofCells b.object (columns.map Prod.fst) = .ok header :=
    toOption_eq_some_iff.mp (by decide +kernel)
  have htaken : (b.build header (columns.map Prod.snd)).toOption.isSome = true := by
    decide +kernel
  obtain ⟨built, hbuilt⟩ := Option.isSome_iff_exists.mp htaken
  have hbuild := toOption_eq_some_iff.mp hbuilt
  have hnodup : header.columns.Nodup := by decide +kernel
  have hname : header.KeepsNameApart := by decide +kernel
  obtain ⟨header', hheader', hiff⟩ := build_perm hperm hheader hnodup hname
  exact ⟨header, header', built, hheader, hnodup, hname, hheader', hbuild, (hiff built).mp hbuild⟩

end Builder

end Registrar
