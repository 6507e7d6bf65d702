import Registrar.Proofs.Batches.Layouts
import Registrar.Proofs.FlatRows

/-!
# Built rows stated again

What has been built of a row can be stated as a row: the fields of its payload and the key make an
object, whose names are columns. The line of this object is built into the same row, with the same
names forced to be sent.

```
ouKey  description  BlockInheritance       a header
id:1                FALSE                  a row
{"blockInheritance":false,"description":"","ouKey":"id:1"}
```

The reason is that a value gives itself: its text, put under the name of its field, gives the value.

* `Shape.Gives.asText` — a value that a cell gives is given by its own text.
* `FlatRow.fill_eq_of_restates` — cells that restate a record fill it.
* `Batch.buildJson_restated`, `Batch.readJsonLines_restated` — the line of a built row.
-/

set_option autoImplicit false

namespace Registrar

/-! ## Values that give themselves -/

/-- A cell that is not empty converts to a value whose text is not empty. -/
theorem FieldKind.asText_ne_empty {k : FieldKind} (hk : k.isListed = true) {field cell : String}
    {w : k.Value} (h : k.convert field cell = .ok w) (hcell : cell ≠ "") :
    w.val.asText ≠ "" := by
  cases k with
  | text =>
      cases h
      exact hcell
  | boolean =>
      obtain ⟨b, -, rfl⟩ := map_eq_ok_iff.mp h
      cases b <;> decide
  | booleanText =>
      obtain ⟨b, -, rfl⟩ := map_eq_ok_iff.mp h
      cases b <;> decide
  | integer =>
      simp only [convert] at h
      split at h
      · rename_i n _
        cases h
        intro hempty
        have hnil : Json.intChars n.toInt = [] := String.ofList_eq_empty_iff.mp hempty
        -- digits are read back, and nothing is read from an empty text
        have hread := Text.readInt?_intChars n.toInt
        rw [hnil] at hread
        cases hread
      · cases h
  | enum d =>
      obtain ⟨s, hs, rfl⟩ := map_eq_ok_iff.mp h
      rintro rfl
      exact Domain.ne_empty_table d (mem_all_of_isListed hk)
        (Domain.mem_of_get? (Domain.check_eq_ok_iff.mp hs))

/-- **A value that a cell gives is given by its own text.** -/
theorem Shape.Gives.asText {shape : Shape} (hlisted : ∀ f ∈ shape.fields, f.kind.isListed = true)
    {column cell : String} {v : Scalar} (h : shape.Gives column cell v) :
    shape.Gives column v.asText v := by
  obtain ⟨f, rfl, h⟩ := h
  have hkind := hlisted f.val (Shape.mem_of_find? f.property)
  rcases h with ⟨hcell, w, hw, rfl⟩ | ⟨-, hclear, rfl⟩
  · have hback := FieldKind.convert_asText hkind f.val.name w (FieldKind.isCanonical_of_convert hw)
    have hfull := FieldKind.asText_ne_empty hkind hw hcell
    exact Shape.gives_member.mpr (Or.inl ⟨hfull, w, hback, rfl⟩)
  · exact Shape.gives_member.mpr (Or.inr ⟨rfl, hclear, rfl⟩)

theorem Batch.cellText_toJson (v : Scalar) : cellText v.toJson = v.asText := by
  cases v with
  | text s => rfl
  | flag b => cases b <;> rfl
  | number n => rfl

/-! ## Cells that restate a record -/

namespace FlatRow

variable {type : FlatType}

/-- **Whether cells restate a key and a record**: they hold the text of each value, and the key. -/
def Restates (key : Option String) (r : Record type.shape) (cells : List (String × String)) :
    Prop :=
  ∀ name cell, (name, cell) ∈ cells ↔
    (∃ v, r.get? name = some v ∧ cell = v.asText) ∨
      (name = (ObjectType.flat type).key ∧ key = some cell)

/-- **Whether a record is one that cells have filled**: each value is given by some cell, and
exactly those that count as unset are forced. -/
structure IsFilling (r : Record type.shape) : Prop where
  given : ∀ name v, r.get? name = some v → ∃ cell, type.shape.Gives name cell v
  marked : ∀ name, r.isForced name = true ↔ r.HasZero name

theorem isFilling_fill {cells : List (String × String)} (htaken : Taken type cells)
    (hone : ∀ x ∈ cells, ∀ y ∈ cells, x.1 = y.1 → x = y) : IsFilling (fill type cells) where
  given name v hv := by
    obtain ⟨cell, -, -, hgives⟩ := (get?_fill_eq_some_iff htaken hone).mp hv
    exact ⟨cell, hgives⟩
  marked name := isForced_fill htaken hone

theorem get?_key_eq_none (r : Record type.shape) : r.get? (ObjectType.flat type).key = none := by
  rw [Option.eq_none_iff_forall_ne_some]
  intro v hv
  obtain ⟨f, hname, -⟩ := Shape.exists_member_of_admits (Record.admits_of_get? hv)
  have hfind := f.property
  rw [hname, type.find?_key] at hfind
  cases hfind

section

variable {key : Option String} {r : Record type.shape} {cells : List (String × String)}
  (hfilling : IsFilling r) (hcells : Restates key r cells)
include hfilling hcells

theorem gives_of_restates {name cell : String} (hcell : (name, cell) ∈ cells)
    (hname : name ≠ (ObjectType.flat type).key) :
    ∃ v, r.get? name = some v ∧ type.shape.Gives name cell v := by
  obtain ⟨v, hv, rfl⟩ := ((hcells name cell).mp hcell).resolve_right fun h => hname h.1
  obtain ⟨cell, hgives⟩ := hfilling.given name v hv
  exact ⟨v, hv, hgives.asText fun f hf => (type.kinds_table f hf).1⟩

theorem taken_of_restates : Taken type cells := by
  intro cell hcell hname
  obtain ⟨v, -, f, hfield, hgives⟩ := gives_of_restates hfilling hcells hcell hname
  refine Record.exists_cellSteps_iff.mpr ⟨f, hfield, fun hfull => ?_⟩
  obtain ⟨-, w, hw, -⟩ := hgives.resolve_right fun h => hfull h.1
  exact ⟨w, hw⟩

variable (hone : ∀ x ∈ cells, ∀ y ∈ cells, x.1 = y.1 → x = y)
include hone

/-- **Cells that restate a record fill it.** -/
theorem fill_eq_of_restates : fill type cells = r := by
  have htaken := taken_of_restates hfilling hcells
  have hget : ∀ name v, (fill type cells).get? name = some v ↔ r.get? name = some v := by
    intro name v
    rw [get?_fill_eq_some_iff htaken hone]
    constructor
    · rintro ⟨cell, hcell, hname, hgives⟩
      obtain ⟨w, hw, hgives'⟩ := gives_of_restates hfilling hcells hcell hname
      rw [hw, hgives.unique hgives']
    · intro hv
      have hname : name ≠ (ObjectType.flat type).key := by
        rintro rfl
        rw [get?_key_eq_none] at hv
        cases hv
      have hcell : (name, v.asText) ∈ cells := (hcells _ _).mpr (Or.inl ⟨v, hv, rfl⟩)
      obtain ⟨w, hw, hgives⟩ := gives_of_restates hfilling hcells hcell hname
      rw [hv] at hw
      cases hw
      exact ⟨v.asText, hcell, hname, hgives⟩
  -- the same values, and so the same ones that count as unset
  refine Record.ext (fun name => Option.ext (hget name)) fun name => ?_
  rw [Bool.eq_iff_iff, isForced_fill htaken hone, hfilling.marked, Record.HasZero, Record.HasZero]
  simp only [hget]

omit hfilling in
theorem keyAfter_of_restates (hkey : key ≠ some "") :
    keyAfter (ObjectType.flat type).key none cells = key := by
  refine Option.ext fun k => ?_
  rw [keyAfter_eq_some_iff hone, hcells, get?_key_eq_none]
  constructor
  · rintro (⟨⟨v, hv, -⟩ | ⟨-, hk⟩, -⟩ | ⟨-, hk⟩)
    · cases hv
    · exact hk
    · cases hk
  · rintro rfl
    exact Or.inl ⟨Or.inr ⟨rfl, rfl⟩, fun he => hkey (congrArg some he)⟩

end

/-! ## The object of a built row -/

/-- **The entries that restate a key and a record**: the fields of the record, and the key. -/
def restated (key : Option String) (r : Record type.shape) : List (String × Json) :=
  r.values.entries.map (fun e => (e.1, e.2.toJson)) ++
    key.toList.map fun k => ((ObjectType.flat type).key, .str k)

theorem mem_restated_iff {key : Option String} {r : Record type.shape} {e : String × Json} :
    e ∈ restated key r ↔
      (∃ v, r.get? e.1 = some v ∧ e.2 = v.toJson) ∨
        ∃ k, key = some k ∧ e = ((ObjectType.flat type).key, .str k) := by
  obtain ⟨name, j⟩ := e
  simp only [restated, List.mem_append, List.mem_map, Option.mem_toList, Prod.exists,
    NameMap.mem_entries_iff, Prod.mk.injEq]
  refine or_congr ⟨?_, ?_⟩ ⟨?_, ?_⟩
  · rintro ⟨name, v, hv, rfl, rfl⟩
    exact ⟨v, hv, rfl⟩
  · rintro ⟨v, hv, rfl⟩
    exact ⟨name, v, hv, rfl, rfl⟩
  · rintro ⟨k, hk, rfl, rfl⟩
    exact ⟨k, hk, rfl, rfl⟩
  · rintro ⟨k, hk, rfl, rfl⟩
    exact ⟨k, hk, rfl, rfl⟩

theorem nodup_restated (key : Option String) (r : Record type.shape) :
    ((restated key r).map Prod.fst).Nodup := by
  have hfields : (r.values.entries.map Prod.fst).Nodup := by
    refine List.pairwise_map.mpr (r.values.sorted.imp fun {a b} hlt he => ?_)
    rw [he] at hlt
    exact String.lt_irrefl _ hlt
  -- the key is no field: it cannot stand for a second time
  have hkey : (ObjectType.flat type).key ∉ r.values.entries.map Prod.fst := by
    intro hmem
    obtain ⟨⟨name, v⟩, he, rfl⟩ := List.mem_map.mp hmem
    have hget := get?_key_eq_none r
    rw [Record.get?, NameMap.mem_entries_iff.mp he] at hget
    cases hget
  rw [restated, List.map_append, List.map_map, List.map_map]
  cases key with
  | none =>
      rw [Option.toList_none, List.map_nil, List.append_nil]
      exact hfields
  | some k =>
      rw [List.nodup_append]
      refine ⟨hfields, by simp, ?_⟩
      intro a ha b hb hab
      obtain rfl : b = (ObjectType.flat type).key := by simpa using hb
      exact hkey (hab ▸ ha)

theorem restates_columnOf {key : Option String} {r : Record type.shape}
    {entries : List (String × Json)} (hperm : entries.Perm (restated key r)) :
    Restates key r (entries.map Batch.columnOf) := by
  intro name cell
  simp only [List.mem_map, hperm.mem_iff, mem_restated_iff, Batch.columnOf, Prod.mk.injEq]
  constructor
  · rintro ⟨⟨n, j⟩, ⟨v, hv, rfl⟩ | ⟨k, hk, he⟩, rfl, rfl⟩
    · exact Or.inl ⟨v, hv, Batch.cellText_toJson v⟩
    · obtain ⟨rfl, rfl⟩ := Prod.mk.inj he
      exact Or.inr ⟨rfl, hk⟩
  · rintro (⟨v, hv, rfl⟩ | ⟨rfl, hk⟩)
    · exact ⟨(name, v.toJson), Or.inl ⟨v, hv, rfl⟩, rfl, Batch.cellText_toJson v⟩
    · exact ⟨(_, .str cell), Or.inr ⟨cell, hk, rfl⟩, rfl, rfl⟩

theorem text_or_bool_of_mem_restated {key : Option String} {r : Record type.shape}
    {e : String × Json} (he : e ∈ restated key r) :
    (∃ s, e.2 = .str s) ∨ ∃ b, e.2 = .bool b := by
  rcases mem_restated_iff.mp he with ⟨v, hv, hj⟩ | ⟨k, -, rfl⟩
  · rw [hj]
    cases v with
    | text s => exact Or.inl ⟨s, rfl⟩
    | flag b => exact Or.inr ⟨b, rfl⟩
    | number n =>
        obtain ⟨f, -, hadmits⟩ := Shape.exists_member_of_admits (Record.admits_of_get? hv)
        have hkind := (type.kinds_table f.val (Shape.mem_of_find? f.property)).2
        cases hk : f.val.kind with
        | integer => exact absurd hk hkind
        | _ => rw [hk] at hadmits; cases hadmits
  · exact Or.inl ⟨k, rfl⟩

/-- The names of fields and the key have no blanks around them and are canonical. -/
theorem names_table (type : FlatType) :
    ∀ name ∈ (ObjectType.flat type).key :: type.shape.fields.map Field.name,
      name ≠ "" ∧ Text.trimString name = name ∧
        (ObjectType.flat type).columns.get? name = some name := by
  cases type <;> decide +kernel

theorem column?_name {name : String}
    (h : name ∈ (ObjectType.flat type).key :: type.shape.fields.map Field.name) :
    Header.column? (.flat type) name = some name := by
  obtain ⟨hne, htrim, hget⟩ := names_table type name h
  rw [Header.column?, htrim, if_neg fun hempty => hne (String.isEmpty_iff.mp hempty), hget]

theorem column?_of_mem_restated {key : Option String} {r : Record type.shape}
    {e : String × Json} (he : e ∈ restated key r) :
    Header.column? (.flat type) e.1 = some e.1 := by
  rcases mem_restated_iff.mp he with ⟨v, hv, -⟩ | ⟨k, -, rfl⟩
  · obtain ⟨f, hname, -⟩ := Shape.exists_member_of_admits (Record.admits_of_get? hv)
    rw [← hname]
    exact column?_name (List.mem_cons_of_mem _
      (List.mem_map_of_mem (Shape.mem_of_find? f.property)))
  · exact column?_name List.mem_cons_self

end FlatRow

/-! ## The line of a built row -/

namespace Batch

open FlatRow
open Text (encode encodeChars)

theorem ofCells_restated {type : FlatType} {key : Option String} {r : Record type.shape}
    {entries : List (String × Json)} (hperm : entries.Perm (restated key r)) (hne : entries ≠ []) :
    Header.ofCells (.flat type) (entries.map Prod.fst)
      = .ok ⟨.flat type, entries.map Prod.fst⟩ := by
  have hcolumn : ∀ e ∈ entries, Header.column? (.flat type) e.1 = some e.1 := fun e he =>
    column?_of_mem_restated (hperm.mem_iff.mp he)
  have hself : (entries.map Prod.fst).map (Header.column (.flat type)) = entries.map Prod.fst := by
    rw [List.map_map]
    refine List.map_congr_left fun e he => ?_
    rw [Function.comp_apply, Header.column, hcolumn e he, Option.getD_some]
  refine Header.ofCells_eq_ok_iff.mpr ⟨?_, ?_, by rw [hself]⟩
  · simpa using hne
  · intro cell hcell
    obtain ⟨e, he, rfl⟩ := List.mem_map.mp hcell
    rw [hcolumn e he]
    rfl

/-- **The object of a built row is built into the row.** -/
theorem buildJson_restated {type : FlatType} {mode : BuildMode} {hasher : Hasher}
    {key : Option String} {r : Record type.shape} (hfilling : IsFilling r) (hkey : key ≠ some "")
    (hmissing : (⟨.flat type, mode, hasher⟩ : Builder).missing? key (.flat type r) = none)
    {entries : List (String × Json)} (hperm : entries.Perm (restated key r)) (hne : entries ≠ []) :
    buildJson ⟨.flat type, mode, hasher⟩ (Json.compact (.obj entries))
      = .ok ⟨key, .flat type r⟩ := by
  have hread : ∀ e ∈ entries, Json.IsReadBack e.2 := by
    intro e he
    rcases text_or_bool_of_mem_restated (hperm.mem_iff.mp he) with ⟨s, hs⟩ | ⟨b, hb⟩
    · exact hs ▸ Json.isReadBack_str s
    · exact hb ▸ Json.isReadBack_bool b
  have hnodup : (entries.map Prod.fst).Nodup :=
    (hperm.map Prod.fst).nodup_iff.mpr (nodup_restated key r)
  -- the entries are read in another order
  obtain ⟨entries', hparse, horder⟩ := parse_obj hread hnodup
  have hperm' := horder.symm.trans hperm
  have hne' : entries' ≠ [] := fun hnil => hne (List.perm_nil.mp (hnil ▸ horder))
  have hheader := ofCells_restated hperm' hne'
  have hcells := restates_columnOf hperm'
  have hone : ∀ x ∈ entries'.map columnOf, ∀ y ∈ entries'.map columnOf, x.1 = y.1 → x = y := by
    intro x hx y hy hxy
    have hnames : ((entries'.map columnOf).map Prod.fst).Nodup := by
      rw [map_fst_columnOf]
      exact (horder.map Prod.fst).nodup_iff.mp hnodup
    exact List.inj_on_of_nodup_map hnames hx hy hxy
  have hpair : Header.pair (entries'.map Prod.fst) (entries'.map fun e => cellText e.2)
      = entries'.map columnOf := by
    have hmap := Header.pair_map id (entries'.map columnOf)
    rw [List.map_id, map_fst_columnOf, map_snd_columnOf] at hmap
    rw [hmap]
    exact List.map_id _
  have hcollect : (⟨.flat type, mode, hasher⟩ : Builder).collect (entries'.map columnOf)
      = .ok (key, .flat type r) :=
    collect_eq_ok_iff.mpr ⟨taken_of_restates hfilling hcells,
      (keyAfter_of_restates hcells hone hkey).symm,
      congrArg (Payload.flat type) (fill_eq_of_restates hfilling hcells hone).symm⟩
  rw [buildJson, hparse]
  simp only [hheader]
  refine Builder.build_eq_ok_iff.mpr ⟨rfl, ?_, hmissing⟩
  rw [hpair]
  exact hcollect

theorem isOneLine_restated {type : FlatType} {key : Option String} {r : Record type.shape}
    {entries : List (String × Json)} (hperm : entries.Perm (restated key r)) :
    (Json.obj entries).IsOneLine := by
  refine Json.isOneLine_obj fun e he => ?_
  rcases text_or_bool_of_mem_restated (hperm.mem_iff.mp he) with ⟨s, hs⟩ | ⟨b, hb⟩
  · exact hs ▸ Json.isOneLine_str s
  · exact hb ▸ Json.isOneLine_bool b

theorem readJsonLines_of_line {b : Builder} {text : List UInt8} {entries : List (String × Json)}
    {built : BuiltRow}
    (hlines : lines text = [encodeChars (Json.compactChars (.obj entries))])
    (hbuild : buildJson b (Json.compact (.obj entries)) = .ok built) :
    readJsonLines b text = .ok [built] := by
  rw [readJsonLines, hlines, buildAll, buildLine_obj, hbuild]
  rfl

/-- **A row that has been built is read back from its own line.** The fields of the payload and the
key, in any order, make an object whose line is read as the one row, alike in key, payload and
forced names, whether or not the text ends behind the line. The columns have to be different, and
the row has to give something. -/
theorem readJsonLines_restated {type : FlatType} {mode : BuildMode} {hasher : Hasher}
    {header : Header} {row : List String} {built : BuiltRow} {fields entries : List (String × Json)}
    (hnodup : header.columns.Nodup)
    (hbuild : (⟨.flat type, mode, hasher⟩ : Builder).build header row = .ok built)
    (hfields : built.payload.toJson = .obj fields) (hgives : built.key ≠ none ∨ fields ≠ [])
    (hperm : entries.Perm
      (fields ++ built.key.toList.map fun k => ((ObjectType.flat type).key, .str k))) :
    readJsonLines ⟨.flat type, mode, hasher⟩ (encode (Json.compact (.obj entries) ++ "\n"))
        = .ok [built] ∧
      readJsonLines ⟨.flat type, mode, hasher⟩ (encode (Json.compact (.obj entries)))
        = .ok [built] := by
  have hone := Header.eq_of_mem_pair hnodup row
  obtain ⟨-, hcollect, hmissing⟩ := Builder.build_eq_ok_iff.mp hbuild
  obtain ⟨key, payload⟩ := built
  obtain ⟨htaken, (hkey : key = _), rfl⟩ := collect_eq_ok_iff.mp hcollect
  obtain rfl := Json.obj.inj hfields
  have hfilling := isFilling_fill htaken hone
  -- an empty cell of the key column is no key
  have hfull : key ≠ some "" := by
    intro hempty
    rw [hkey, keyAfter_eq_some_iff hone] at hempty
    simp at hempty
  -- what gives neither a key nor a value would be an empty line
  have hne : entries ≠ [] := by
    rintro rfl
    have hnil := List.append_eq_nil_iff.mp (List.nil_perm.mp hperm)
    rcases hgives with hgives | hgives
    · simp at hnil
      exact hgives hnil.2
    · exact hgives hnil.1
  have hline := buildJson_restated hfilling hfull hmissing hperm hne
  have honeLine := isOneLine_restated hperm
  have hbytes : encode (Json.compact (.obj entries))
      = encodeChars (Json.compactChars (.obj entries)) := Text.encode_ofList _
  constructor
  · refine readJsonLines_of_line ?_ hline
    rw [Text.encode_eq, String.toList_append, Text.encodeChars_append, ← Text.encode_eq, hbytes]
    exact lines_compactChars honeLine
  · refine readJsonLines_of_line ?_ hline
    rw [hbytes]
    refine lines_of_last (lineFeed_not_mem_compactChars honeLine) fun hnil => ?_
    rw [Json.compactChars_obj, Text.encodeChars_cons] at hnil
    exact String.utf8EncodeChar_ne_nil (List.append_eq_nil_iff.mp hnil).1

/-- The row of an organizational unit whose description is cleared, stated with the key in front. -/
theorem readJsonLines_restated_orgUnit :
    ∃ header built fields,
      header.columns.Nodup ∧
      (⟨.flat .orgUnit, .update, .sha512⟩ : Builder).build header ["id:1", "", "FALSE"]
        = .ok built ∧
      built.key = some "id:1" ∧
      built.payload.toJson.compact = "\x7b\"blockInheritance\":false,\"description\":\"\"\x7d" ∧
      built.payload.toJson = .obj fields ∧
      readJsonLines ⟨.flat .orgUnit, .update, .sha512⟩
        (encode (Json.compact (.obj (("ouKey", .str "id:1") :: fields)) ++ "\n")) = .ok [built] := by
  let header : Header := ⟨.flat .orgUnit, ["ouKey", "description", "blockInheritance", "name"]⟩
  let b : Builder := ⟨.flat .orgUnit, .update, .sha512⟩
  have hnodup : header.columns.Nodup := by decide +kernel
  have hgives : ((b.build header ["id:1", "", "FALSE"]).toOption.map fun built =>
      (built.key, built.payload.toJson.compact))
        = some (some "id:1", "\x7b\"blockInheritance\":false,\"description\":\"\"\x7d") := by
    decide +kernel
  obtain ⟨built, hbuilt, hgiven⟩ := Option.map_eq_some_iff.mp hgives
  obtain ⟨hkey, htext⟩ := Prod.mk.inj hgiven
  have hbuild := toOption_eq_some_iff.mp hbuilt
  obtain ⟨fields, hfields⟩ : ∃ fields, built.payload.toJson = .obj fields := by
    cases built.payload with
    | flat type r => exact ⟨_, rfl⟩
    | user u => exact ⟨_, rfl⟩
  have hperm : (("ouKey", Json.str "id:1") :: fields).Perm
      (fields ++ built.key.toList.map fun k => ((ObjectType.flat .orgUnit).key, .str k)) := by
    rw [hkey]
    exact (List.perm_append_singleton _ _).symm
  have hread := readJsonLines_restated hnodup hbuild hfields (Or.inl (by simp [hkey])) hperm
  exact ⟨header, built, fields, hnodup, hbuild, hkey, htext, hfields, hread.1⟩

end Batch

end Registrar
