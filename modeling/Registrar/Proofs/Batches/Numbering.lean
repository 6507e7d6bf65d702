import Registrar.Proofs.Batches.Layouts

/-!
# The numbers of rows

A batch is read row by row, and what is wrong with a row is reported under its number. Lines of
JSON are numbered with the blank ones, and records of delimited text without the header:

```
{"alias":"a"}        1        "email","role"
                     2        "a@b.org","owner"      1
{"alias":"b"}        3        "c@d.org","chief"      2
```

So what is read from a text does not depend on what stands behind it, and what is read from the
lines behind a text is what would be read from them alone, under numbers that go on.

* `readJsonLines_append` — the lines of two texts.
* `exists_row_of_readJsonLines` — only the lines of a text can be wrong, not the text as a whole.
* `buildAll_numbered_eq_ok_iff`, `buildAll_numbered_eq_error_iff` — which row is reported.
* `reads_rowwise` — both layouts.
-/

set_option autoImplicit false

namespace Registrar.Batch

open Text (encode encodeChars)

/-! ## Rows behind other rows -/

/-- **The failure with `count` rows in front**: the number of a row is increased. -/
def Failure.behind (count : Nat) : Failure → Failure
  | .whole cause => .whole cause
  | .row number cause => .row (number + count) cause

/-- Whether a way of building rows uses the number of a row to report it and for nothing else. -/
def IsNumbering {α : Type} (build : Nat → α → Except Failure (Option BuiltRow)) : Prop :=
  ∀ number count a, build (number + count) a = (build number a).mapError (.behind count)

theorem buildAll_add {α : Type} {build : Nat → α → Except Failure (Option BuiltRow)}
    (h : IsNumbering build) (number count : Nat) (as : List α) :
    buildAll build (number + count) as
      = (buildAll build number as).mapError (.behind count) := by
  induction as generalizing number with
  | nil => rfl
  | cons a as ih =>
      have hnext : number + count + 1 = number + 1 + count := Nat.add_right_comm _ _ _
      rw [buildAll, buildAll, h, hnext, ih]
      cases build number a with
      | error f => rfl
      | ok built => cases buildAll build (number + 1) as <;> rfl

theorem isNumbering_buildLine (b : Builder) : IsNumbering (buildLine b) := by
  intro number count line
  unfold buildLine
  cases Text.decode? line with
  | none => rfl
  | some text =>
      dsimp only
      split
      · rfl
      · cases buildJson b text <;> rfl

/-! ## The lines of two texts -/

/-- Whether a text ends with one of its lines. -/
def IsEnded (bytes : List UInt8) : Prop := bytes = [] ∨ bytes.getLast? = some lineFeed

/-- **The lines of a text that is ended are followed by the lines behind it.** -/
theorem lines_append_of_isEnded {front : List UInt8} (h : IsEnded front) (rest : List UInt8) :
    lines (front ++ rest) = lines front ++ lines rest := by
  rcases h with rfl | h
  · rfl
  · obtain ⟨body, rfl⟩ := List.getLast?_eq_some_iff.mp h
    rw [List.append_assoc, List.singleton_append, lines_append]

/-- **A text that is ended has as many lines as line feeds.** -/
theorem length_lines_of_isEnded {bytes : List UInt8} (h : IsEnded bytes) :
    (lines bytes).length = bytes.count lineFeed := by
  -- one line feed ends each part but the last
  have parts : ∀ body : List UInt8,
      (body.splitOn lineFeed).length = body.count lineFeed + 1 := by
    intro body
    induction body with
    | nil => rfl
    | cons b body ih =>
        rw [List.splitOn_cons_eq_if_modifyHead, List.count_cons]
        by_cases hb : b = lineFeed
        · subst hb
          simp [ih]
        · simp [hb, ih]
  rcases h with rfl | h
  · rfl
  · obtain ⟨body, rfl⟩ := List.getLast?_eq_some_iff.mp h
    have hsplit : (body ++ lineFeed :: []).splitOn lineFeed
        = body.splitOn lineFeed ++ [].splitOn lineFeed :=
      List.splitOnP_append_cons body [] (beq_self_eq_true lineFeed)
    rw [lines, hsplit]
    simp [List.splitOn_nil, parts]

/-- **Lines of JSON behind a text that is ended**: a failure of the text is the failure of both;
otherwise its rows are followed by theirs, or they fail under numbers that go on. -/
theorem readJsonLines_append (b : Builder) {front : List UInt8} (h : IsEnded front)
    (rest : List UInt8) :
    readJsonLines b (front ++ rest) =
      match readJsonLines b front with
      | .error f => .error f
      | .ok rows =>
          ((readJsonLines b rest).map (rows ++ ·)).mapError (.behind (front.count lineFeed)) := by
  rw [readJsonLines, lines_append_of_isEnded h, buildAll_append, length_lines_of_isEnded h,
    buildAll_add (isNumbering_buildLine b)]
  simp only [readJsonLines]
  cases buildAll (buildLine b) 1 (lines front) with
  | error f => rfl
  | ok rows => cases buildAll (buildLine b) 1 (lines rest) <;> rfl

/-! ## The lines of a text that is Unicode -/

theorem splitOn_append_of_not_mem {front : List UInt8} (h : lineFeed ∉ front)
    (rest : List UInt8) :
    (front ++ rest).splitOn lineFeed = (rest.splitOn lineFeed).modifyHead (front ++ ·) := by
  induction front with
  | nil =>
      obtain ⟨r, rs, hr⟩ := List.exists_cons_of_ne_nil (List.splitOn_ne_nil lineFeed rest)
      simp [hr]
  | cons b front ih =>
      rw [List.mem_cons, not_or] at h
      have hb : ¬b = lineFeed := fun e => h.1 e.symm
      obtain ⟨r, rs, hr⟩ := List.exists_cons_of_ne_nil (List.splitOn_ne_nil lineFeed rest)
      rw [List.cons_append, List.splitOn_cons_eq_if_modifyHead, ih h.2, hr]
      simp [hb]

/-- The bytes between line feeds are those of the characters between line breaks. -/
theorem splitOn_encodeChars (cs : List Char) :
    (encodeChars cs).splitOn lineFeed = (cs.splitOn '\n').map encodeChars := by
  induction cs with
  | nil => rfl
  | cons c cs ih =>
      rw [Text.encodeChars_cons, List.splitOn_cons_eq_if_modifyHead]
      by_cases hc : c = '\n'
      · subst hc
        have hfeed : String.utf8EncodeChar '\n' = [lineFeed] := rfl
        rw [hfeed, List.singleton_append, List.splitOn_cons_eq_if_modifyHead, ih]
        simp
      · have hnot : lineFeed ∉ String.utf8EncodeChar c := by
          intro hm
          have ha : UInt8.ofNat '\n'.toNat ∈ String.utf8EncodeChar c := hm
          exact hc (Text.eq_of_mem_utf8EncodeChar (by decide) ha)
        obtain ⟨p, ps, hp⟩ := List.exists_cons_of_ne_nil (List.splitOn_ne_nil '\n' cs)
        rw [splitOn_append_of_not_mem hnot, ih, hp]
        simp [hc]

/-- A carriage return at the end is a character of its own. -/
theorem exists_dropReturn_encodeChars (cs : List Char) :
    ∃ ds, dropReturn (encodeChars cs) = encodeChars ds := by
  by_cases hlast : (encodeChars cs).getLast? = some 0x0D
  · have hreturn : '\r' ∈ cs :=
      Text.mem_of_mem_encodeChars (by decide) (List.mem_of_getLast? hlast)
    have hne : cs ≠ [] := List.ne_nil_of_mem hreturn
    -- the last byte belongs to the last character
    have hcut : encodeChars cs
        = encodeChars cs.dropLast ++ String.utf8EncodeChar (cs.getLast hne) := by
      conv_lhs => rw [← List.dropLast_concat_getLast hne]
      rw [Text.encodeChars_append, Text.encodeChars_cons, Text.encodeChars_nil, List.append_nil]
    have hfilled : String.utf8EncodeChar (cs.getLast hne) ≠ [] :=
      String.utf8EncodeChar_ne_nil
    have hbyte : UInt8.ofNat '\r'.toNat ∈ String.utf8EncodeChar (cs.getLast hne) := by
      rw [hcut, List.getLast?_append_of_ne_nil _ hfilled] at hlast
      exact List.mem_of_getLast? hlast
    have hchar : cs.getLast hne = '\r' := Text.eq_of_mem_utf8EncodeChar (by decide) hbyte
    have hone : String.utf8EncodeChar '\r' = [0x0D] := rfl
    refine ⟨cs.dropLast, ?_⟩
    rw [dropReturn, if_pos hlast, hcut, hchar, hone, List.dropLast_concat]
  · exact ⟨cs, by rw [dropReturn, if_neg hlast]⟩

/-- **The lines of a text are texts.** -/
theorem exists_of_mem_lines {s : String} {line : List UInt8} (h : line ∈ lines (encode s)) :
    ∃ t, Text.decode? line = some t := by
  have hchars : ∃ cs, line = encodeChars cs := by
    have hparts : ∀ part ∈ (encode s).splitOn lineFeed, ∃ cs, part = encodeChars cs := by
      intro part hpart
      rw [Text.encode_eq, splitOn_encodeChars] at hpart
      obtain ⟨cs, -, rfl⟩ := List.mem_map.mp hpart
      exact ⟨cs, rfl⟩
    rcases List.mem_append.mp h with hm | hm
    · obtain ⟨part, hpart, rfl⟩ := List.mem_map.mp hm
      obtain ⟨cs, rfl⟩ := hparts part (List.dropLast_subset _ hpart)
      exact exists_dropReturn_encodeChars cs
    · have hmem := (List.mem_filter.mp hm).1
      exact hparts line (List.mem_of_getLast? (Option.mem_toList.mp hmem))
  obtain ⟨cs, rfl⟩ := hchars
  exact ⟨String.ofList cs, by rw [← Text.encode_ofList, Text.decode?_encode]⟩

/-- **What is wrong with the lines of a text is wrong with one of them.** -/
theorem exists_row_of_readJsonLines {b : Builder} {s : String} {f : Failure}
    (h : readJsonLines b (encode s) = .error f) : ∃ number cause, f = .row number cause := by
  -- a line that is a text is wrong in itself, never in its bytes
  have row : ∀ (ls : List (List UInt8)) (start : Nat),
      (∀ line ∈ ls, ∃ t, Text.decode? line = some t) →
      buildAll (buildLine b) start ls = .error f → ∃ number cause, f = .row number cause := by
    intro ls
    induction ls with
    | nil => exact fun _ _ h => nomatch h
    | cons line ls ih =>
        intro start htexts hfail
        obtain ⟨⟨t, ht⟩, hrest⟩ := List.forall_mem_cons.mp htexts
        rw [buildAll] at hfail
        cases hline : buildLine b start line with
        | ok built =>
            rw [hline] at hfail
            exact ih (start + 1) hrest (map_eq_error_iff.mp hfail)
        | error g =>
            rw [hline] at hfail
            obtain rfl := Except.error.inj hfail
            simp only [buildLine, ht] at hline
            split at hline
            · cases hline
            · split at hline
              · obtain rfl := Except.error.inj hline
                exact ⟨_, _, rfl⟩
              · cases hline
  exact row _ 1 (fun line hline => exists_of_mem_lines hline) h

/-! ## Which row is reported -/

section Rows

variable {α : Type} {build : Nat → α → Except Error BuiltRow} {start : Nat} {as : List α}

/-- **Rows are built exactly if each of them is**, and then one for each, in order. -/
theorem buildAll_numbered_eq_ok_iff {rows : List BuiltRow} :
    buildAll (fun number a => numbered number (build number a)) start as = .ok rows ↔
      rows.length = as.length ∧
        ∀ (i : Nat) (a : α), as[i]? = some a →
          ∃ built, rows[i]? = some built ∧ build (start + i) a = .ok built := by
  induction as generalizing start rows with
  | nil => cases rows <;> simp [buildAll]
  | cons a as ih =>
      -- a row behind the first has one number, counted from either end
      have hshift : ∀ i, start + (i + 1) = start + 1 + i := fun i => by omega
      rw [buildAll]
      cases hbuild : build start a with
      | error e =>
          constructor
          · intro h
            cases h
          · rintro ⟨-, hall⟩
            obtain ⟨built, -, hfirst⟩ := hall 0 a rfl
            rw [Nat.add_zero, hbuild] at hfirst
            cases hfirst
      | ok built =>
          have hrow : numbered start (.ok built) = .ok (some built) := rfl
          simp only [hrow, map_eq_ok_iff, ih, Option.toList_some, List.singleton_append]
          constructor
          · rintro ⟨more, ⟨hlength, hall⟩, rfl⟩
            refine ⟨by simp [hlength], fun i x hx => ?_⟩
            cases i with
            | zero =>
                obtain rfl := Option.some.inj hx
                exact ⟨built, rfl, hbuild⟩
            | succ i =>
                rw [hshift]
                exact hall i x hx
          · rintro ⟨hlength, hall⟩
            cases rows with
            | nil => cases hlength
            | cons row rows =>
                obtain ⟨first, hrow, hfirst⟩ := hall 0 a rfl
                obtain rfl := Option.some.inj hrow
                obtain rfl := Except.ok.inj (hbuild.symm.trans hfirst)
                refine ⟨rows, ⟨Nat.succ.inj hlength, fun i x hx => ?_⟩, rfl⟩
                rw [← hshift]
                exact hall (i + 1) x hx

/-- **The row that is reported is the first that is not built.** -/
theorem buildAll_numbered_eq_error_iff {f : Failure} :
    buildAll (fun number a => numbered number (build number a)) start as = .error f ↔
      ∃ i a e, as[i]? = some a ∧ build (start + i) a = .error e ∧ f = .row (start + i) e ∧
        ∀ (j : Nat) (x : α), j < i → as[j]? = some x → ∃ built, build (start + j) x = .ok built := by
  induction as generalizing start with
  | nil => simp [buildAll]
  | cons a as ih =>
      have hshift : ∀ i, start + (i + 1) = start + 1 + i := fun i => by omega
      rw [buildAll]
      cases hbuild : build start a with
      | error e =>
          constructor
          · intro h
            exact ⟨0, a, e, rfl, hbuild, (Except.error.inj h).symm, fun j x hj => by omega⟩
          -- only the first row can be the one reported: it is accepted if a later one is
          · rintro ⟨i, x, e', hx, hfail, rfl, hall⟩
            cases i with
            | zero =>
                obtain rfl := Option.some.inj hx
                obtain rfl := Except.error.inj (hbuild.symm.trans hfail)
                rfl
            | succ i =>
                obtain ⟨built, hfirst⟩ := hall 0 a (Nat.succ_pos i) rfl
                rw [Nat.add_zero, hbuild] at hfirst
                cases hfirst
      | ok built =>
          have hrow : numbered start (.ok built) = .ok (some built) := rfl
          simp only [hrow, map_eq_error_iff, ih]
          constructor
          -- the index moves by one place, and the number that is reported stays
          · rintro ⟨i, x, e, hx, hfail, rfl, hall⟩
            have hnumber := congrArg (Failure.row · e) (hshift i).symm
            refine ⟨i + 1, x, e, hx, hshift i ▸ hfail, hnumber, fun j y hj hy => ?_⟩
            cases j with
            | zero =>
                obtain rfl := Option.some.inj hy
                exact ⟨built, hbuild⟩
            | succ j =>
                rw [hshift]
                exact hall j y (Nat.lt_of_succ_lt_succ hj) hy
          · rintro ⟨i, x, e, hx, hfail, rfl, hall⟩
            cases i with
            | zero =>
                obtain rfl := Option.some.inj hx
                rw [Nat.add_zero, hbuild] at hfail
                cases hfail
            | succ i =>
                have hnumber := congrArg (Failure.row · e) (hshift i)
                refine ⟨i, x, e, hx, hshift i ▸ hfail, hnumber, fun j y hj hy => ?_⟩
                rw [← hshift]
                exact hall (j + 1) y (Nat.succ_lt_succ hj) hy

end Rows

/-! ## Both layouts -/

/-- The row that a record gives: the one that its texts give under the header. -/
def rowOfRecord (b : Builder) (header : Header) (number : Nat) (record : Csv.RawRecord) :
    Except Error BuiltRow :=
  match record.texts number with
  | .error e => .error (.csv e)
  | .ok cells => b.build header cells

theorem buildRecord_eq (b : Builder) (header : Header) (number : Nat) (record : Csv.RawRecord) :
    buildRecord b header number record = numbered number (rowOfRecord b header number record) := by
  unfold buildRecord rowOfRecord
  cases record.texts number with
  | error e => rfl
  | ok cells =>
      dsimp only
      cases b.build header cells <;> rfl

theorem readCsv_eq (b : Builder) (bytes : List UInt8) :
    readCsv b bytes =
      match readHeader b.object (Csv.records bytes).head? with
      | .error e => .error (.whole e)
      | .ok header =>
          buildAll (fun number record => numbered number (rowOfRecord b header number record)) 1
            (Csv.records bytes).tail := by
  have hbuild : ∀ header, buildRecord b header
      = fun number record => numbered number (rowOfRecord b header number record) :=
    fun header => funext fun number => funext fun record => buildRecord_eq b header number record
  rw [readCsv, buildRecords]
  cases readHeader b.object (Csv.records bytes).head? with
  | error e => rfl
  | ok header => simp only [hbuild]

theorem length_tail_of_readHeader {object : ObjectType} {records : List Csv.RawRecord}
    {header : Header} (h : readHeader object records.head? = .ok header) :
    records.tail.length + 1 = records.length := by
  cases records with
  | nil => cases h
  | cons first records => rfl

/-- **A batch is read row by row.** Lines of JSON behind a text that is ended give the rows that
they give on their own, behind the rows of the text; if one of them is wrong, its number goes on
from the lines of the text, and if a row of the text is wrong, the lines do not matter. Records
behind the header give one row each, in order; the record that is reported as wrong is the first
that gives none. -/
theorem reads_rowwise (b : Builder) :
    (∀ front rest : List UInt8, IsEnded front →
      readJsonLines b (front ++ rest) =
        match readJsonLines b front with
        | .error f => .error f
        | .ok rows =>
            match readJsonLines b rest with
            | .error f => .error (f.behind (front.count lineFeed))
            | .ok more => .ok (rows ++ more)) ∧
    (∀ s f, readJsonLines b (encode s) = .error f → ∃ number cause, f = .row number cause) ∧
    (∀ bytes rows, readCsv b bytes = .ok rows ↔
      ∃ header, readHeader b.object (Csv.records bytes).head? = .ok header ∧
        rows.length + 1 = (Csv.records bytes).length ∧
        ∀ i record, (Csv.records bytes)[i + 1]? = some record →
          ∃ built, rows[i]? = some built ∧ rowOfRecord b header (i + 1) record = .ok built) ∧
    ∀ bytes number cause, readCsv b bytes = .error (.row number cause) ↔
      ∃ header, readHeader b.object (Csv.records bytes).head? = .ok header ∧ 0 < number ∧
        (∃ record, (Csv.records bytes)[number]? = some record ∧
          rowOfRecord b header number record = .error cause) ∧
        ∀ i record, 0 < i → i < number → (Csv.records bytes)[i]? = some record →
          ∃ built, rowOfRecord b header i record = .ok built := by
  refine ⟨fun front rest h => ?_, fun s f => exists_row_of_readJsonLines, fun bytes rows => ?_,
    fun bytes number cause => ?_⟩
  · rw [readJsonLines_append b h rest]
    cases readJsonLines b front with
    | error f => rfl
    | ok rows => cases readJsonLines b rest <;> rfl
  · rw [readCsv_eq]
    cases hheader : readHeader b.object (Csv.records bytes).head? with
    | error e => simp
    | ok header =>
        -- the header is a record, too, but gives no row
        have hlength := length_tail_of_readHeader hheader
        simp only [buildAll_numbered_eq_ok_iff, List.getElem?_tail, Nat.add_comm 1, ← hlength,
          Nat.add_right_cancel_iff, Except.ok.injEq, exists_eq_left']
  · rw [readCsv_eq]
    cases hheader : readHeader b.object (Csv.records bytes).head? with
    | error e => simp
    | ok header =>
        simp only [buildAll_numbered_eq_error_iff, List.getElem?_tail, Nat.add_comm 1,
          Except.ok.injEq, exists_eq_left', Failure.row.injEq]
        -- rows are counted from one behind the header: `number` is the index of a record
        constructor
        · rintro ⟨i, record, e, hrecord, hfail, ⟨rfl, rfl⟩, hall⟩
          refine ⟨Nat.succ_pos i, ⟨record, hrecord, hfail⟩, fun j x hj hlt hx => ?_⟩
          obtain ⟨j, rfl⟩ := Nat.exists_eq_succ_of_ne_zero (Nat.ne_of_gt hj)
          exact hall j x (Nat.lt_of_succ_lt_succ hlt) hx
        · rintro ⟨hpos, ⟨record, hrecord, hfail⟩, hall⟩
          obtain ⟨i, rfl⟩ := Nat.exists_eq_succ_of_ne_zero (Nat.ne_of_gt hpos)
          exact ⟨i, record, cause, hrecord, hfail, ⟨rfl, rfl⟩, fun j x hj hx =>
            hall (j + 1) x (Nat.succ_pos j) (Nat.succ_lt_succ hj) hx⟩

/-- Lines behind two lines, of which the second is blank. -/
theorem reads_rowwise_blank :
    ∃ rows,
      IsEnded (encode "\x7b\"name\":\"Sales\"\x7d\n\n") ∧
      readJsonLines ⟨.flat .orgUnit, .create, .sha512⟩
        (encode "\x7b\"name\":\"Sales\"\x7d\n\n") = .ok rows ∧
      readJsonLines ⟨.flat .orgUnit, .create, .sha512⟩ (encode "\n[]")
        = .error (.row 2 .notAnObject) ∧
      readJsonLines ⟨.flat .orgUnit, .create, .sha512⟩
        (encode "\x7b\"name\":\"Sales\"\x7d\n\n" ++ encode "\n[]")
        = .error (.row 4 .notAnObject) := by
  let b : Builder := ⟨.flat .orgUnit, .create, .sha512⟩
  let front := encode "\x7b\"name\":\"Sales\"\x7d\n\n"
  let rest := encode "\n[]"
  have hended : IsEnded front := Or.inr (by decide +kernel)
  have htaken : (readJsonLines b front).toOption.isSome = true := by decide +kernel
  obtain ⟨rows, hrows⟩ := Option.isSome_iff_exists.mp htaken
  have hfront := toOption_eq_some_iff.mp hrows
  have hrest : readJsonLines b rest = .error (.row 2 .notAnObject) :=
    error?_eq_some_iff.mp (by decide +kernel)
  have hboth := (reads_rowwise b).1 front rest hended
  have hcount : front.count lineFeed = 2 := by decide +kernel
  rw [hfront, hrest, hcount] at hboth
  exact ⟨rows, hended, hfront, hrest, hboth⟩

end Registrar.Batch
