import Registrar.Proofs.Checked

/-!
# Columns with an empty cell

An empty cell clears the field of a clearable attribute. In any other column it should say nothing,
so that the row means the same without the column. For fields, scalar attributes and composite
ones it does. For the key it does not: the last cell of the key column counts, also if it is empty,
and takes a key back that a column in front of it has given.

```
userKey  userKey  suspended          userKey  suspended
a@b.org           true               a@b.org  true
```

The first row has no key, the second one has.

* `putCells_eq_map` — the key that cells give is apart from what they put into the state.
* `Builder.collect_insert` — what an empty cell adds to a row.
* `Builder.build_insert` — building a row with and without an empty cell.
-/

set_option autoImplicit false

namespace Registrar

/-! ## The key that cells give -/

section

variable {keyColumn : String} {cells : List (String × String)}

theorem keyAfter_append (key : Option String) (front behind : List (String × String)) :
    keyAfter keyColumn key (front ++ behind)
      = keyAfter keyColumn (keyAfter keyColumn key front) behind := List.foldl_append

theorem keyAfter_eq_self (h : ∀ x ∈ cells, x.1 ≠ keyColumn) (key : Option String) :
    keyAfter keyColumn key cells = key := by
  induction cells with
  | nil => rfl
  | cons cell cells ih =>
      rw [List.forall_mem_cons] at h
      rw [keyAfter, List.foldl_cons, if_neg h.1]
      exact ih h.2

/-- A cell of the key column makes the key before it forgotten. -/
theorem keyAfter_congr (h : ∃ x ∈ cells, x.1 = keyColumn) (key key' : Option String) :
    keyAfter keyColumn key cells = keyAfter keyColumn key' cells := by
  -- the two keys are told apart until the first cell of the key column
  induction cells generalizing key key' with
  | nil =>
      obtain ⟨x, hx, -⟩ := h
      cases hx
  | cons cell cells ih =>
      rw [keyAfter, keyAfter, List.foldl_cons, List.foldl_cons]
      by_cases hcell : cell.1 = keyColumn
      · rw [if_pos hcell, if_pos hcell]
      · rw [if_neg hcell, if_neg hcell]
        refine ih ?_ key key'
        obtain ⟨x, hx, hxkey⟩ := h
        rcases List.mem_cons.mp hx with rfl | hx
        · exact absurd hxkey hcell
        · exact ⟨x, hx, hxkey⟩

end

/-! ## Cells that are put into a state -/

section

variable {σ : Type} {keyColumn : String} {put : σ → String → String → Except Error σ}

/-- **The key that cells give is apart from what they put into the state.** -/
theorem putCells_eq_map (key : Option String) (s : σ) (cells : List (String × String)) :
    putCells keyColumn put key s cells
      = (putCells keyColumn put none s (cells.filter fun x => x.1 ≠ keyColumn)).map
          fun r => (keyAfter keyColumn key cells, r.2) := by
  -- the state goes through the cells of the other columns, the key through its own
  induction cells generalizing key s with
  | nil => rfl
  | cons cell cells ih =>
      obtain ⟨column, text⟩ := cell
      rw [putCells, keyAfter, List.foldl_cons]
      by_cases hkey : column = keyColumn
      · rw [if_pos hkey, if_pos hkey, List.filter_cons_of_neg (by simpa using hkey)]
        exact ih (keyOfCell text) s
      · rw [if_neg hkey, if_neg hkey, List.filter_cons_of_pos (by simpa using hkey), putCells,
          if_neg hkey]
        cases put s column text with
        | error e => rfl
        | ok s' => exact ih key s'

theorem putCells_insert {column text : String} (hput : ∀ s, put s column text = .ok s)
    (hkey : column ≠ keyColumn) (front behind : List (String × String)) (key : Option String)
    (s : σ) :
    putCells keyColumn put key s (front ++ (column, text) :: behind)
      = putCells keyColumn put key s (front ++ behind) := by
  -- the induction is on the cells in front, which may change the state or be in error
  induction front generalizing key s with
  | nil => rw [List.nil_append, List.nil_append, putCells, if_neg hkey, hput]
  | cons cell front ih =>
      rw [List.cons_append, List.cons_append, putCells, putCells]
      split
      · exact ih _ s
      · split
        · rfl
        · exact ih key _

end

/-! ## Empty cells that put nothing -/

theorem Record.putCell_empty {type : FlatType} {column : String}
    (hknown : (type.shape.find? column).isSome = true)
    (h : (ObjectType.flat type).clearable.contains column = false) (r : Record type.shape) :
    r.putCell column "" = .ok r := by
  obtain ⟨f, hf⟩ := Option.isSome_iff_exists.mp hknown
  have hname := Shape.name_of_find? hf
  have hmember : type.shape.member? column = some ⟨f, hname ▸ hf⟩ :=
    Shape.member?_eq_some_iff.mpr hname
  have hclear : f.clearable = false := by
    rw [← type.contains_clearable f (Shape.mem_of_find? hf), hname]
    exact h
  rw [putCell, hmember]
  simp [hclear]

theorem User.putCell_empty {column : String}
    (hknown : (Composite.ofField? column).isSome = true ∨ (Slot.ofName? column).isSome = true)
    (h : ObjectType.user.clearable.contains column = false) (hasher : Hasher) (u : User) :
    u.putCell hasher column "" = .ok u := by
  unfold putCell
  cases hfield : Composite.ofField? column with
  | some c => rfl
  | none =>
      rw [hfield] at hknown
      obtain ⟨s, hs⟩ := Option.isSome_iff_exists.mp (hknown.resolve_left Bool.false_ne_true)
      obtain rfl := Slot.name_of_ofName? hs
      rw [s.contains_clearable] at h
      have hclear : ¬s.field.clearable = true := Bool.eq_false_iff.mp h
      simp [hs, hclear]

namespace Builder

theorem collect_eq_map (b : Builder) (cells : List (String × String)) :
    b.collect cells
      = (b.collect (cells.filter fun x => x.1 ≠ b.object.key)).map
          fun r => (keyAfter b.object.key none cells, r.2) := by
  obtain ⟨object, mode, hasher⟩ := b
  cases object with
  | flat type =>
      rw [collect_flat, collect_flat, putCells_eq_map]
      cases putCells (ObjectType.flat type).key Record.putCell none
        (Record.empty : Record type.shape) _ <;> rfl
  | user =>
      simp only [collect]
      rw [putCells_eq_map]
      cases putCells ObjectType.user.key (User.putCell · hasher) none User.empty _ <;> rfl

theorem map_collect (b : Builder) (cells : List (String × String)) :
    ((b.collect cells).map fun r => (keyAfter b.object.key none cells, r.2)) = b.collect cells := by
  rw [collect_eq_map b cells]
  cases b.collect (cells.filter fun x => x.1 ≠ b.object.key) <;> rfl

theorem key_of_collect {b : Builder} {cells : List (String × String)}
    {r : Option String × Payload} (h : b.collect cells = .ok r) :
    r.1 = keyAfter b.object.key none cells := by
  rw [← map_collect] at h
  obtain ⟨r', -, rfl⟩ := map_eq_ok_iff.mp h
  rfl

/-- A cell that an accepted header has a column for puts nothing into the payload if it is empty
and clears nothing. -/
theorem collect_insert_of_ne {b : Builder} {column : String}
    (hentry : ∃ e ∈ b.object.columns.entries, e.2 = column) (hkey : column ≠ b.object.key)
    (hclear : b.object.clearable.contains column = false) (front behind : List (String × String)) :
    b.collect (front ++ (column, "") :: behind) = b.collect (front ++ behind) := by
  obtain ⟨object, mode, hasher⟩ := b
  obtain ⟨e, he, rfl⟩ := hentry
  cases object with
  | flat type =>
      have hknown := (type.columns_table e he).resolve_left hkey
      rw [collect_flat, collect_flat, putCells_insert (Record.putCell_empty hknown hclear) hkey]
  | user =>
      have hknown := (ObjectType.userColumns_table e he).resolve_left hkey
      simp only [collect]
      rw [putCells_insert (User.putCell_empty hknown hclear hasher) hkey]

/-- **What an empty cell that clears nothing adds to a row** is nothing but, possibly, the end of
the key. -/
theorem collect_insert {b : Builder} {column : String}
    (hentry : ∃ e ∈ b.object.columns.entries, e.2 = column)
    (hclear : b.object.clearable.contains column = false) (front behind : List (String × String)) :
    b.collect (front ++ (column, "") :: behind)
      = (b.collect (front ++ behind)).map
          fun r => (keyAfter b.object.key none (front ++ (column, "") :: behind), r.2) := by
  by_cases hkey : column = b.object.key
  · -- the cells of other columns are the same
    rw [collect_eq_map b (front ++ (column, "") :: behind), collect_eq_map b (front ++ behind),
      List.filter_append, List.filter_append, List.filter_cons_of_neg (by simpa using hkey)]
    cases b.collect _ <;> rfl
  · have hsame := collect_insert_of_ne hentry hkey hclear front behind
    rw [← hsame, map_collect]

/-! ## The end of the key -/

/-- **Whether an empty cell takes the key back** that the cells in front of it give: its column is
that of the key, and no cell behind it gives another. -/
def TakesKeyBack (object : ObjectType) (front : List (String × String)) (column : String)
    (behind : List (String × String)) : Prop :=
  column = object.key ∧ keyAfter object.key none front ≠ none ∧
    ∀ x ∈ behind, x.1 ≠ object.key

instance (object : ObjectType) (front : List (String × String)) (column : String)
    (behind : List (String × String)) : Decidable (TakesKeyBack object front column behind) :=
  inferInstanceAs (Decidable (column = object.key ∧ keyAfter object.key none front ≠ none ∧
    ∀ x ∈ behind, x.1 ≠ object.key))

variable {object : ObjectType} {front behind : List (String × String)} {column : String}

theorem keyAfter_of_takesKeyBack (h : TakesKeyBack object front column behind) :
    keyAfter object.key none (front ++ (column, "") :: behind) = none ∧
      keyAfter object.key none (front ++ behind) ≠ none := by
  obtain ⟨hkey, hfront, hbehind⟩ := h
  rw [keyAfter_append, keyAfter_append, keyAfter_eq_self hbehind, keyAfter, List.foldl_cons,
    if_pos hkey]
  exact ⟨keyAfter_eq_self hbehind _, hfront⟩

theorem keyAfter_of_not_takesKeyBack (h : ¬TakesKeyBack object front column behind) :
    keyAfter object.key none (front ++ (column, "") :: behind)
      = keyAfter object.key none (front ++ behind) := by
  rw [keyAfter_append, keyAfter_append]
  show keyAfter object.key (if column = object.key then keyOfCell "" else _) behind = _
  by_cases hkey : column = object.key
  · rw [if_pos hkey]
    by_cases hbehind : ∃ x ∈ behind, x.1 = object.key
    · exact keyAfter_congr hbehind _ _
    · -- no cell behind gives a key, so there was none to take back
      have hfront : keyAfter object.key none front = none := by
        by_contra hsome
        exact h ⟨hkey, hsome, fun x hx hxkey => hbehind ⟨x, hx, hxkey⟩⟩
      rw [hfront]
      rfl
  · rw [if_neg hkey]

/-! ## Building a row -/

/-- What is built from the key and the payload of a row. -/
def finish (b : Builder) : Except Error (Option String × Payload) → Except Error BuiltRow
  | .error e => .error e
  | .ok (key, payload) =>
      match b.missing? key payload with
      | some name => .error (.missingAttribute name)
      | none => .ok ⟨key, payload⟩

theorem build_named (b : Builder) (columns : List (String × String)) :
    b.build (.named b.object (columns.map Prod.fst)) (columns.map Prod.snd)
      = b.finish (b.collect (cellsOf b.object columns)) := by
  have hobject : (Header.named b.object (columns.map Prod.fst)).object = b.object := rfl
  rw [build, if_neg (not_not.mpr hobject), pair_named]
  rfl

theorem missing?_none_of_needsKey {b : Builder} (h : b.needsKey = true) (payload : Payload) :
    b.missing? none payload = some b.object.key := by
  simp [missing?, h]

theorem missing?_of_not_needsKey {b : Builder} (h : b.needsKey = false) (key : Option String)
    (payload : Payload) : b.missing? key payload = b.missing? none payload := by
  simp [missing?, h]

/-- **What becomes of a row that loses its key.** If it has been built, then it still is, without
the key, or the key is missed. If it is in error, then it stays so, or the key is missed first. -/
structure LosesKey (b : Builder) (before after : Except Error BuiltRow) : Prop where
  built : ∀ built, before = .ok built → built.key ≠ none ∧
    after = if b.needsKey then .error (.missingAttribute b.object.key)
      else .ok { built with key := none }
  failed : ∀ e, before = .error e → after = .error e ∨
    (b.needsKey = true ∧ after = .error (.missingAttribute b.object.key))

theorem losesKey_finish {b : Builder} {collected : Except Error (Option String × Payload)}
    (hkey : ∀ r, collected = .ok r → r.1 ≠ none) :
    b.LosesKey (b.finish collected) (b.finish (collected.map fun r => (none, r.2))) := by
  cases collected with
  | error e => exact ⟨fun _ h => (nomatch h), fun _ h => Or.inl h⟩
  | ok r =>
      obtain ⟨key, payload⟩ := r
      have hkey : key ≠ none := hkey _ rfl
      cases hneeds : b.needsKey with
      | true =>
          -- whatever else the row lacks, the key is looked for first
          have hafter :
              b.finish (.ok (none, payload)) = .error (.missingAttribute b.object.key) := by
            rw [finish, missing?_none_of_needsKey hneeds]
          refine ⟨fun built h => ⟨?_, by rw [hneeds]; exact hafter⟩,
            fun _ _ => Or.inr ⟨hneeds, hafter⟩⟩
          rw [finish] at h
          split at h
          · cases h
          · cases h
            exact hkey
      | false =>
          have hbefore := missing?_of_not_needsKey hneeds key payload
          simp only [finish, Except.map, hbefore]
          cases b.missing? none payload with
          | some name => exact ⟨fun _ h => (nomatch h), fun _ h => Or.inl h⟩
          | none =>
              refine ⟨fun built h => ?_, fun _ h => (nomatch h)⟩
              cases h
              exact ⟨hkey, by rw [hneeds]; rfl⟩

/-- **A row means the same without a column whose cell is empty**, if the column cannot be cleared
and the cell does not take the key back. If it does, then the row loses its key. -/
theorem build_insert {b : Builder} {front behind : List (String × String)} {name : String}
    {header : Header}
    (hheader : Header.ofCells b.object ((front ++ (name, "") :: behind).map Prod.fst) = .ok header)
    (hrest : front ++ behind ≠ [])
    (hclear : b.object.clearable.contains (Header.column b.object name) = false) :
    ∃ header', Header.ofCells b.object ((front ++ behind).map Prod.fst) = .ok header' ∧
      (¬TakesKeyBack b.object (cellsOf b.object front) (Header.column b.object name)
          (cellsOf b.object behind) →
        b.build header ((front ++ (name, "") :: behind).map Prod.snd)
          = b.build header' ((front ++ behind).map Prod.snd)) ∧
      (TakesKeyBack b.object (cellsOf b.object front) (Header.column b.object name)
          (cellsOf b.object behind) →
        b.LosesKey (b.build header' ((front ++ behind).map Prod.snd))
          (b.build header ((front ++ (name, "") :: behind).map Prod.snd))) := by
  obtain ⟨-, haccepted, rfl⟩ := Header.ofCells_eq_ok_iff.mp hheader
  have hentry : ∃ e ∈ b.object.columns.entries, e.2 = Header.column b.object name := by
    refine Header.exists_entry_of_mem hheader (List.mem_map_of_mem ?_)
    simp
  -- a header without one of its columns is accepted
  have haccepted' : ∀ cell ∈ (front ++ behind).map Prod.fst,
      (Header.column? b.object cell).isSome = true := by
    intro cell hcell
    refine haccepted cell ?_
    simp only [List.map_append, List.map_cons, List.mem_append, List.mem_cons] at hcell ⊢
    exact hcell.imp_right Or.inr
  have hne : (front ++ behind).map Prod.fst ≠ [] := fun hnil => hrest (List.map_eq_nil_iff.mp hnil)
  refine ⟨.named b.object ((front ++ behind).map Prod.fst),
    Header.ofCells_eq_ok_iff.mpr ⟨hne, haccepted', rfl⟩, ?_⟩
  have hlong : cellsOf b.object (front ++ (name, "") :: behind)
      = cellsOf b.object front ++ (Header.column b.object name, "") :: cellsOf b.object behind := by
    simp [cellsOf]
  have hshort : cellsOf b.object (front ++ behind)
      = cellsOf b.object front ++ cellsOf b.object behind := List.map_append
  rw [← Header.named, build_named, build_named, hlong, hshort, collect_insert hentry hclear]
  constructor
  · intro hkept
    rw [keyAfter_of_not_takesKeyBack hkept, map_collect]
  · intro hlost
    obtain ⟨hnone, hsome⟩ := keyAfter_of_takesKeyBack hlost
    rw [hnone]
    exact losesKey_finish fun r hr => key_of_collect hr ▸ hsome

/-- An empty cell in front of a key is nothing, but one behind it takes the key back. -/
theorem build_insert_userKey :
    let b : Builder := ⟨.user, .update, .sha512⟩
    let header : Header := ⟨.user, ["userKey", "userKey", "suspended"]⟩
    let header' : Header := ⟨.user, ["userKey", "suspended"]⟩
    Header.ofCells .user ["userKey", "userKey", "suspended"] = .ok header ∧
      Header.ofCells .user ["userKey", "suspended"] = .ok header' ∧
      b.build header ["", "a@b.org", "true"] = b.build header' ["a@b.org", "true"] ∧
      b.LosesKey (b.build header' ["a@b.org", "true"]) (b.build header ["a@b.org", "", "true"]) := by
  intro b header header'
  have hheader : Header.ofCells .user ["userKey", "userKey", "suspended"] = .ok header :=
    toOption_eq_some_iff.mp (by decide +kernel)
  have hheader' : Header.ofCells .user ["userKey", "suspended"] = .ok header' :=
    toOption_eq_some_iff.mp (by decide +kernel)
  have hclear : b.object.clearable.contains (Header.column b.object "userKey") = false := by
    decide +kernel
  obtain ⟨h₁, hh₁, hkept, -⟩ := @build_insert b [] [("userKey", "a@b.org"), ("suspended", "true")]
    "userKey" header hheader (by decide) hclear
  obtain ⟨h₂, hh₂, -, hlost⟩ := @build_insert b [("userKey", "a@b.org")] [("suspended", "true")]
    "userKey" header hheader (by decide) hclear
  obtain rfl := Except.ok.inj (hheader'.symm.trans hh₁)
  obtain rfl := Except.ok.inj (hheader'.symm.trans hh₂)
  exact ⟨hheader, hheader', hkept (by decide +kernel), hlost (by decide +kernel)⟩

/-- **An empty cell is not always nothing**: a row about a user is built without it, but not with
it. -/
theorem exists_build_insert_ne :
    ¬∀ (b : Builder) (front behind : List (String × String)) (name : String)
        (header header' : Header),
      Header.ofCells b.object ((front ++ (name, "") :: behind).map Prod.fst) = .ok header →
      Header.ofCells b.object ((front ++ behind).map Prod.fst) = .ok header' →
      b.object.clearable.contains (Header.column b.object name) = false →
      b.build header ((front ++ (name, "") :: behind).map Prod.snd)
        = b.build header' ((front ++ behind).map Prod.snd) := by
  intro h
  have hsame := h ⟨.user, .update, .sha512⟩ [("userKey", "a@b.org")] [("suspended", "true")]
    "userKey" ⟨.user, ["userKey", "userKey", "suspended"]⟩ ⟨.user, ["userKey", "suspended"]⟩
    (toOption_eq_some_iff.mp (by decide +kernel)) (toOption_eq_some_iff.mp (by decide +kernel))
    (by decide +kernel)
  have hbuilt := congrArg (fun outcome => outcome.toOption.isSome) hsame
  revert hbuilt
  decide +kernel

end Builder

end Registrar
