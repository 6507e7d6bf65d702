import Registrar.Batch
import Registrar.Proofs.Batches.Delimited
import Registrar.Proofs.Columns
import Registrar.Proofs.Json.Rereading

/-!
# Both layouts of a batch

Rows of cells under a header can be written as delimited text, which names the columns once, or as
lines of JSON, each of which names them all. A reader of lines meets the columns of each row in the
order of their names, and makes a header for each row:

```
"suspended","UserKey"      {"suspended":"true","UserKey":"a@b.org"}
"true","a@b.org"           {"suspended":"false","UserKey":"c@d.org"}
"false","c@d.org"
```

What is read is the same: the order of the columns does not matter, and rows have the same numbers.

* `lines_jsonLinesText` — the lines that have been written.
* `buildJson_rowObject` — a line and a row are built alike.
* `read_csvText`, `agree_jsonLinesText` — reading each text.
* `read_agree` — reading both.
-/

set_option autoImplicit false

namespace Registrar.Batch

open Text (encode encodeChars)

/-! ## Writing -/

/-- **The delimited text of rows**, every cell quoted, behind their header. -/
def csvText (names : List String) (rows : List (List String)) : String :=
  Csv.written (names :: rows)

/-- The entry of an object that holds a cell as a text. -/
def entryOf (column : String × String) : String × Json := (column.1, .str column.2)

/-- The JSON object of a row: each name of the header with its cell. -/
def rowObject (names row : List String) : Json := .obj ((names.zip row).map entryOf)

/-- **The lines of JSON of rows.** -/
def jsonLinesText (names : List String) (rows : List (List String)) : String :=
  String.ofList (rows.flatMap fun row => Json.compactChars (rowObject names row) ++ ['\n'])

/-! ## The lines of a text -/

theorem splitOn_of_line {line : List UInt8} (hfeed : lineFeed ∉ line) :
    line.splitOn lineFeed = [line] := by
  refine List.splitOnP_eq_singleton fun b hb => ?_
  rw [beq_eq_false_iff_ne]
  exact fun he => hfeed (he ▸ hb)

theorem lines_of_line {line : List UInt8} (hfeed : lineFeed ∉ line)
    (hreturn : line.getLast? ≠ some 0x0D) : lines (line ++ [lineFeed]) = [line] := by
  have hsplit : (line ++ [lineFeed]).splitOn lineFeed = [line, []] := by
    have hparts : (line ++ lineFeed :: []).splitOn lineFeed
        = line.splitOn lineFeed ++ [].splitOn lineFeed :=
      List.splitOnP_append_cons line [] (beq_self_eq_true lineFeed)
    rw [hparts, splitOn_of_line hfeed]
    rfl
  have hdrop : dropReturn line = line := by rw [dropReturn, if_neg hreturn]
  rw [lines, hsplit]
  show [dropReturn line] ++ [] = [line]
  rw [hdrop]
  rfl

theorem lines_of_last {line : List UInt8} (hfeed : lineFeed ∉ line) (hne : line ≠ []) :
    lines line = [line] := by
  have hfull : line.isEmpty = false := by rw [List.isEmpty_eq_false_iff]; exact hne
  rw [lines, splitOn_of_line hfeed]
  simp [hfull]

theorem lineFeed_not_mem_compactChars {j : Json} (h : j.IsOneLine) :
    lineFeed ∉ encodeChars (Json.compactChars j) := by
  intro hmem
  have hchar : '\n' ∈ Json.compactChars j := Text.mem_of_mem_encodeChars (by decide) hmem
  exact absurd (h _ hchar) (by decide)

theorem lines_compactChars {j : Json} (h : j.IsOneLine) :
    lines (encodeChars (Json.compactChars j) ++ [lineFeed])
      = [encodeChars (Json.compactChars j)] := by
  refine lines_of_line (lineFeed_not_mem_compactChars h) ?_
  intro hlast
  have hmem := List.mem_of_getLast? hlast
  have hchar : '\r' ∈ Json.compactChars j := Text.mem_of_mem_encodeChars (by decide) hmem
  exact absurd (h _ hchar) (by decide)

theorem isOneLine_rowObject (names row : List String) : (rowObject names row).IsOneLine := by
  refine Json.isOneLine_obj fun e he => ?_
  obtain ⟨x, -, rfl⟩ := List.mem_map.mp he
  exact Json.isOneLine_str x.2

/-- **The lines that have been written** are the objects of the rows. -/
theorem lines_jsonLinesText (names : List String) (rows : List (List String)) :
    lines (encode (jsonLinesText names rows))
      = rows.map fun row => encodeChars (Json.compactChars (rowObject names row)) := by
  rw [jsonLinesText, Text.encode_ofList]
  induction rows with
  | nil => rfl
  | cons row rows ih =>
      have hfeed : encodeChars ['\n'] = [lineFeed] := rfl
      rw [List.flatMap_cons, Text.encodeChars_append, Text.encodeChars_append, hfeed,
        List.append_assoc, List.singleton_append, lines_append,
        lines_compactChars (isOneLine_rowObject names row), ih]
      rfl

/-! ## One row -/

/-- The column and the cell that an entry of an object gives. -/
def columnOf (entry : String × Json) : String × String := (entry.1, cellText entry.2)

theorem map_fst_columnOf (entries : List (String × Json)) :
    (entries.map columnOf).map Prod.fst = entries.map (·.1) := by
  rw [List.map_map]
  rfl

theorem map_snd_columnOf (entries : List (String × Json)) :
    (entries.map columnOf).map Prod.snd = entries.map fun e => cellText e.2 := by
  rw [List.map_map]
  rfl

theorem map_columnOf_entryOf (columns : List (String × String)) :
    (columns.map entryOf).map columnOf = columns := by
  rw [List.map_map]
  exact List.map_id columns

/-- **An object is read back** with its entries in some order, if their names are different. -/
theorem parse_obj {entries : List (String × Json)} (hread : ∀ e ∈ entries, Json.IsReadBack e.2)
    (hnodup : (entries.map Prod.fst).Nodup) :
    ∃ entries', Json.parse (Json.compact (.obj entries)) = .ok (.obj entries') ∧
      entries.Perm entries' := by
  have hperm : (Json.insertAll [] entries).Perm ([] ++ entries) := Json.insertAll_perm hnodup
  exact ⟨_, Json.parse_compact_obj hread, hperm.symm⟩

/-- **The object of a row is read back** with its columns in some order. -/
theorem parse_entries {columns : List (String × String)} (hnodup : (columns.map Prod.fst).Nodup) :
    ∃ entries, Json.parse (Json.compact (.obj (columns.map entryOf))) = .ok (.obj entries) ∧
      columns.Perm (entries.map columnOf) := by
  have hread : ∀ e ∈ columns.map entryOf, Json.IsReadBack e.2 := by
    intro e he
    obtain ⟨x, -, rfl⟩ := List.mem_map.mp he
    exact Json.isReadBack_str x.2
  have hnames : ((columns.map entryOf).map Prod.fst).Nodup := by
    rw [List.map_map]
    exact hnodup
  obtain ⟨entries, hparse, hperm⟩ := parse_obj hread hnames
  have hcolumns := hperm.map columnOf
  rw [map_columnOf_entryOf] at hcolumns
  exact ⟨entries, hparse, hcolumns⟩

/-- **A line and a row are built alike**, if the columns are different and keep the name apart. -/
theorem buildJson_rowObject {b : Builder} {names row : List String} {header : Header}
    (hheader : Header.ofCells b.object names = .ok header) (hnodup : header.columns.Nodup)
    (hname : header.KeepsNameApart) (hwidth : row.length = names.length) (built : BuiltRow) :
    b.build header row = .ok built ↔
      buildJson b (Json.compact (rowObject names row)) = .ok built := by
  obtain ⟨hne, haccepted, rfl⟩ := Header.ofCells_eq_ok_iff.mp hheader
  have hfst : (names.zip row).map Prod.fst = names := List.map_fst_zip hwidth.ge
  have hsnd : (names.zip row).map Prod.snd = row := List.map_snd_zip hwidth.le
  unfold rowObject
  generalize names.zip row = columns at hfst hsnd ⊢
  subst hfst hsnd
  -- the columns in the order of the line make a header of their own
  obtain ⟨entries, hparse, hperm⟩ := parse_entries (List.Nodup.of_map _ hnodup)
  have hnames := hperm.map Prod.fst
  have hline : Header.ofCells b.object ((entries.map columnOf).map Prod.fst)
      = .ok (.named b.object ((entries.map columnOf).map Prod.fst)) := by
    refine Header.ofCells_eq_ok_iff.mpr ⟨fun hnil => ?_, fun cell hcell => ?_, rfl⟩
    · rw [hnil] at hnames
      exact hne hnames.eq_nil
    · exact haccepted cell (hnames.mem_iff.mpr hcell)
  have hbuild : buildJson b (Json.compact (.obj (columns.map entryOf)))
      = b.build (.named b.object ((entries.map columnOf).map Prod.fst))
          ((entries.map columnOf).map Prod.snd) := by
    rw [buildJson, hparse]
    simp only [← map_fst_columnOf, ← map_snd_columnOf, hline]
  rw [hbuild]
  exact Builder.build_named_perm hperm hnodup hname built

/-! ## Agreement -/

/-- **Whether two readings agree**: they give the same, or both say that the row of some number is
wrong. -/
inductive Agree {α : Type} : Except Failure α → Except Failure α → Prop where
  | ok (a : α) : Agree (.ok a) (.ok a)
  | row (number : Nat) (e e' : Error) : Agree (.error (.row number e)) (.error (.row number e'))

theorem Agree.map {α β : Type} {x y : Except Failure α} (h : Agree x y) (f : α → β) :
    Agree (x.map f) (y.map f) := by
  cases h with
  | ok a => exact .ok (f a)
  | row number e e' => exact .row number e e'

theorem Agree.eq_ok {α : Type} {x y : Except Failure α} (h : Agree x y) {a : α}
    (hx : x = .ok a) : y = .ok a := by
  cases h with
  | ok a => exact hx
  | row number e e' => cases hx

section Rows

variable {α β : Type} {first : Nat → α → Except Failure (Option BuiltRow)}
  {second : Nat → β → Except Failure (Option BuiltRow)} {as : List α} {bs : List β}

theorem buildAll_congr
    (h : List.Forall₂ (fun a b => ∀ number, first number a = second number b) as bs)
    (number : Nat) : buildAll first number as = buildAll second number bs := by
  induction h generalizing number with
  | nil => rfl
  | cons hrow _ ih => rw [buildAll, buildAll, hrow number, ih]

/-- **Readings agree if they agree on each row**, whatever its number is. -/
theorem agree_buildAll
    (h : List.Forall₂ (fun a b => ∀ number, Agree (first number a) (second number b)) as bs)
    (number : Nat) : Agree (buildAll first number as) (buildAll second number bs) := by
  induction h generalizing number with
  | nil => exact .ok []
  | @cons a b as bs hrow _ ih =>
      have hagree := hrow number
      rw [buildAll, buildAll]
      generalize first number a = x at hagree ⊢
      generalize second number b = y at hagree ⊢
      cases hagree with
      | row number e e' => exact .row number e e'
      | ok built => exact (ih (number + 1)).map _

end Rows

theorem forall₂_of_map_eq {α β γ : Type} {f : α → γ} {g : β → γ} {as : List α} {bs : List β}
    (h : as.map f = bs.map g) : List.Forall₂ (fun a b => f a = g b) as bs := by
  rw [← List.forall₂_eq_eq_eq, List.forall₂_map_left_iff, List.forall₂_map_right_iff] at h
  exact h

/-- What building a row gives, under the number of the row. -/
def numbered (number : Nat) : Except Error BuiltRow → Except Failure (Option BuiltRow)
  | .error e => .error (.row number e)
  | .ok built => .ok (some built)

/-- **What building rows under a header gives**, the first of them being number one. -/
def buildRows (b : Builder) (header : Header) (rows : List (List String)) :
    Except Failure (List BuiltRow) :=
  buildAll (fun number row => numbered number (b.build header row)) 1 rows

theorem agree_numbered {x y : Except Error BuiltRow}
    (h : ∀ built, x = .ok built ↔ y = .ok built) (number : Nat) :
    Agree (numbered number x) (numbered number y) := by
  cases x with
  | ok built =>
      rw [(h built).mp rfl]
      exact .ok _
  | error e =>
      cases y with
      | ok built => exact nomatch (h built).mpr rfl
      | error e' => exact .row number e e'

/-! ## Both texts -/

theorem buildRecord_of_fields {b : Builder} {header : Header} {record : Csv.RawRecord}
    {row : List String} (h : record.fields = row.map encode) (number : Nat) :
    buildRecord b header number record = numbered number (b.build header row) := by
  rw [buildRecord, Csv.texts_of_fields h]
  cases hbuild : b.build header row with
  | error e => simp [hbuild, numbered]
  | ok built => simp [hbuild, numbered]

theorem trim_compactChars_obj (entries : List (String × Json)) :
    Text.trim (Json.compactChars (.obj entries)) ≠ [] := by
  intro hnil
  have hblank := Text.trim_eq_nil_iff.mp hnil '\x7b'
    (Json.compactChars_obj entries ▸ List.mem_cons_self)
  exact absurd hblank (by decide)

theorem buildLine_obj (b : Builder) (entries : List (String × Json)) (number : Nat) :
    buildLine b number (encodeChars (Json.compactChars (.obj entries)))
      = numbered number (buildJson b (Json.compact (.obj entries))) := by
  have hdecode : Text.decode? (encodeChars (Json.compactChars (.obj entries)))
      = some (Json.compact (.obj entries)) := by
    rw [← Text.encode_ofList, Text.decode?_encode]
    rfl
  have hblank : ¬(Text.trim (Json.compact (.obj entries)).toList).isEmpty = true := by
    rw [Json.compact, String.toList_ofList, List.isEmpty_iff]
    exact trim_compactChars_obj _
  rw [buildLine, hdecode]
  simp only [if_neg hblank]
  cases buildJson b (Json.compact (.obj entries)) <;> rfl

section Texts

variable {b : Builder} {names : List String} {header : Header} {rows : List (List String)}

/-- **The delimited text of rows is read as the rows.** -/
theorem read_csvText (hheader : Header.ofCells b.object names = .ok header)
    (hwidth : ∀ row ∈ rows, row.length = names.length) :
    read .csv b (encode (csvText names rows)) = buildRows b header rows := by
  have hne : names ≠ [] := (Header.ofCells_eq_ok_iff.mp hheader).1
  have hfilled : ∀ cells ∈ names :: rows, cells ≠ [] := by
    refine List.forall_mem_cons.mpr ⟨hne, fun row hrow hnil => hne ?_⟩
    have hlength := hwidth row hrow
    rw [hnil] at hlength
    exact List.length_eq_zero_iff.mp hlength.symm
  have hrecords := Csv.records_written hfilled
  rw [read, readCsv, csvText]
  -- the first of the records is the header, and the others hold the rows
  generalize Csv.records (encode (Csv.written (names :: rows))) = records at hrecords ⊢
  obtain ⟨first, records, rfl, hfirst, hrest⟩ := List.map_eq_cons_iff.mp hrecords
  have hread : readHeader b.object (some first) = .ok header := by
    rw [readHeader, Csv.texts_of_fields hfirst]
    exact hheader
  rw [buildRecords, List.head?_cons, hread, List.tail_cons]
  exact buildAll_congr ((forall₂_of_map_eq hrest).imp fun _ _ => buildRecord_of_fields) 1

/-- **The lines of JSON of rows are read as the rows**, up to what is said to be wrong with one. -/
theorem agree_jsonLinesText (hheader : Header.ofCells b.object names = .ok header)
    (hnodup : header.columns.Nodup) (hname : header.KeepsNameApart)
    (hwidth : ∀ row ∈ rows, row.length = names.length) :
    Agree (buildRows b header rows) (read .jsonLines b (encode (jsonLinesText names rows))) := by
  rw [read, readJsonLines, lines_jsonLinesText, buildRows]
  refine agree_buildAll (List.forall₂_map_right_iff.mpr (List.forall₂_same.mpr ?_)) 1
  intro row hrow number
  rw [rowObject, buildLine_obj]
  exact agree_numbered (buildJson_rowObject hheader hnodup hname (hwidth row hrow)) number

/-- **Both layouts of a batch are read alike**: they give the same rows, or fail at the row of the
same number. The rows are those that building the cells under the header gives. The columns of the
header have to be different and to keep the name apart, and each row has a cell for each column. -/
theorem read_agree (hheader : Header.ofCells b.object names = .ok header)
    (hnodup : header.columns.Nodup) (hname : header.KeepsNameApart)
    (hwidth : ∀ row ∈ rows, row.length = names.length) :
    Agree (read .csv b (encode (csvText names rows)))
        (read .jsonLines b (encode (jsonLinesText names rows))) ∧
      read .csv b (encode (csvText names rows)) = buildRows b header rows := by
  have hcsv := read_csvText hheader hwidth
  refine ⟨?_, hcsv⟩
  rw [hcsv]
  exact agree_jsonLinesText hheader hnodup hname hwidth

end Texts

/-- Rows about two users in both layouts. -/
theorem read_agree_suspended :
    ∃ header built,
      Header.ofCells .user ["suspended", "UserKey"] = .ok header ∧ header.columns.Nodup ∧
      header.KeepsNameApart ∧
      buildRows ⟨.user, .update, .sha512⟩ header
        [["true", "a@b.org"], ["false", "c@d.org"]] = .ok built ∧
      read .csv ⟨.user, .update, .sha512⟩ (encode (csvText ["suspended", "UserKey"]
        [["true", "a@b.org"], ["false", "c@d.org"]])) = .ok built ∧
      read .jsonLines ⟨.user, .update, .sha512⟩ (encode (jsonLinesText ["suspended", "UserKey"]
        [["true", "a@b.org"], ["false", "c@d.org"]])) = .ok built := by
  let b : Builder := ⟨.user, .update, .sha512⟩
  let names := ["suspended", "UserKey"]
  let rows := [["true", "a@b.org"], ["false", "c@d.org"]]
  let header : Header := ⟨.user, ["suspended", "userKey"]⟩
  have hheader : Header.ofCells b.object names = .ok header :=
    toOption_eq_some_iff.mp (by decide +kernel)
  have hnodup : header.columns.Nodup := by decide +kernel
  have hname : header.KeepsNameApart := by decide +kernel
  have hwidth : ∀ row ∈ rows, row.length = names.length := by decide
  have htaken : (buildRows b header rows).toOption.isSome = true := by decide +kernel
  obtain ⟨built, hbuilt⟩ := Option.isSome_iff_exists.mp htaken
  have hrows := toOption_eq_some_iff.mp hbuilt
  obtain ⟨hagree, hcsv⟩ := read_agree hheader hnodup hname hwidth
  rw [hrows] at hcsv
  exact ⟨header, built, hheader, hnodup, hname, hrows, hcsv, hagree.eq_ok hcsv⟩

end Registrar.Batch
