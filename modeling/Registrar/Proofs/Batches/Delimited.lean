import Registrar.Csv
import Registrar.Proofs.Bytes

/-!
# Delimited text that is quoted throughout

Records can be written with every cell in quotes, and then any cell can be written: a quote in it is
doubled, and commas and line breaks are text.

```
"userKey","notes"
"a@b.org","says ""hi"", twice"
```

The reader is a machine on bytes that also counts lines and bytes. `Reader.Holds` says what it has
read so far, and leaves the counts aside.

* `Reader.Holds.quotedChars` — one cell.
* `Reader.Holds.recordChars` — one record.
* `records_written` — reading what has been written.
-/

set_option autoImplicit false

namespace Registrar.Csv

open Text (encode encodeChars)

/-! ## Writing -/

/-- The text of a cell between its quotes. -/
def quotedBody (cs : List Char) : List Char :=
  cs.flatMap fun c => if c = '"' then ['"', '"'] else [c]

/-- The text of a cell. -/
def quotedChars (cell : String) : List Char := '"' :: (quotedBody cell.toList ++ ['"'])

/-- The text of a record: its cells with commas between them. -/
def recordChars : List String → List Char
  | [] => []
  | [cell] => quotedChars cell
  | cell :: next :: rest => quotedChars cell ++ ',' :: recordChars (next :: rest)

/-- **The text of records with every cell quoted**, each record on a line. -/
def written (records : List (List String)) : String :=
  String.ofList (records.flatMap fun cells => recordChars cells ++ ['\n'])

/-! ## Reading in parts -/

theorem advance_append (r : Reader) (s t : List UInt8) :
    advance r (s ++ t) = ((advance r s).1 ++ (advance (advance r s).2 t).1,
      (advance (advance r s).2 t).2) := by
  induction s generalizing r with
  | nil => rfl
  | cons b s ih =>
      show ((r.step b).2.toList ++ (advance (r.step b).1 (s ++ t)).1,
        (advance (r.step b).1 (s ++ t)).2) = _
      rw [ih]
      exact Prod.ext (List.append_assoc _ _ _).symm rfl

namespace Reader

/-- **What a reader has read**, wherever that stands: where it is in a record, the fields in front
of the one at hand, and that field. Fields and bytes are held with the last one first. -/
structure Holds (r : Reader) (place : Place) (fields : List (List UInt8)) (field : List UInt8) :
    Prop where
  place_eq : r.place = place
  fields_eq : r.fields = fields
  field_eq : r.field = field

/-- Whether bytes that end no record lead a reader to hold something else. -/
def Moves (r : Reader) (bytes : List UInt8) (place : Place) (fields : List (List UInt8))
    (field : List UInt8) : Prop :=
  (advance r bytes).1 = [] ∧ (advance r bytes).2.Holds place fields field

variable {r : Reader} {place place' : Place} {fields fields' : List (List UInt8)}
  {field field' : List UInt8}

theorem Moves.append {s t : List UInt8} (hs : r.Moves s place fields field)
    (ht : ∀ r' : Reader, r'.Holds place fields field → r'.Moves t place' fields' field') :
    r.Moves (s ++ t) place' fields' field' := by
  obtain ⟨hnone, hholds⟩ := hs
  obtain ⟨hnone', hholds'⟩ := ht _ hholds
  unfold Moves
  rw [advance_append, hnone, hnone']
  exact ⟨rfl, hholds'⟩

theorem moves_of_step {b : UInt8} {r' : Reader} (hstep : r.step b = (r', none))
    (h : r'.Holds place fields field) : r.Moves [b] place fields field := by
  unfold Moves
  show (r.step b).2.toList ++ [] = [] ∧ (r.step b).1.Holds place fields field
  rw [hstep]
  exact ⟨rfl, h⟩

/-! ## One cell -/

theorem Holds.openQuote (h : r.Holds place fields field)
    (hplace : place = .recordStart ∨ place = .fieldStart) :
    r.Moves [quote] .quoted fields field := by
  obtain ⟨hp, rfl, rfl⟩ := h
  have hstep : r.step quote = ({ r.consume quote with place := .quoted }, none) := by
    have hp' : (r.consume quote).place = place := hp
    rcases hplace with rfl | rfl
    · simp only [step, hp']
      rfl
    · simp only [step, hp']
      rfl
  exact moves_of_step hstep ⟨rfl, rfl, rfl⟩

theorem Holds.text (h : r.Holds .quoted fields field) {b : UInt8} (hb : b ≠ quote) :
    r.Moves [b] .quoted fields (b :: field) := by
  obtain ⟨hp, rfl, rfl⟩ := h
  have hstep : r.step b = ((r.consume b).push .quoted b, none) := by
    have hp' : (r.consume b).place = .quoted := hp
    simp only [step, hp', if_neg hb]
  exact moves_of_step hstep ⟨rfl, rfl, rfl⟩

theorem Holds.closeQuote (h : r.Holds .quoted fields field) :
    r.Moves [quote] .quoteInQuoted fields field := by
  obtain ⟨hp, rfl, rfl⟩ := h
  have hstep : r.step quote = ({ r.consume quote with place := .quoteInQuoted }, none) := by
    have hp' : (r.consume quote).place = .quoted := hp
    simp only [step, hp', if_pos]
  exact moves_of_step hstep ⟨rfl, rfl, rfl⟩

theorem Holds.secondQuote (h : r.Holds .quoteInQuoted fields field) :
    r.Moves [quote] .quoted fields (quote :: field) := by
  obtain ⟨hp, rfl, rfl⟩ := h
  have hstep : r.step quote = ((r.consume quote).push .quoted quote, none) := by
    have hp' : (r.consume quote).place = .quoteInQuoted := hp
    simp only [step, hp', if_pos]
  exact moves_of_step hstep ⟨rfl, rfl, rfl⟩

theorem Holds.texts (h : r.Holds .quoted fields field) {bytes : List UInt8}
    (hb : quote ∉ bytes) : r.Moves bytes .quoted fields (bytes.reverse ++ field) := by
  induction bytes generalizing r field with
  | nil => exact ⟨rfl, h⟩
  | cons b bytes ih =>
      have hne : b ≠ quote := fun he => hb (he ▸ List.mem_cons_self)
      have hrest : quote ∉ bytes := fun hm => hb (List.mem_cons_of_mem _ hm)
      have hmoves := (h.text hne).append fun r' hr' => ih hr' hrest
      rwa [List.reverse_cons, List.append_assoc]

/-- What stands between the quotes is the text of the cell. -/
theorem Holds.quotedBody (h : r.Holds .quoted fields field) (cs : List Char) :
    r.Moves (encodeChars (quotedBody cs)) .quoted fields ((encodeChars cs).reverse ++ field) := by
  induction cs generalizing r field with
  | nil => exact ⟨rfl, h⟩
  | cons c cs ih =>
      have hbody : Csv.quotedBody (c :: cs)
          = (if c = '"' then ['"', '"'] else [c]) ++ Csv.quotedBody cs := List.flatMap_cons
      rw [hbody, Text.encodeChars_append, Text.encodeChars_cons, List.reverse_append,
        List.append_assoc]
      by_cases hc : c = '"'
      · subst hc
        -- a quote is written twice, and the second one reopens the field
        have htwo := h.closeQuote.append fun r' hr' => hr'.secondQuote
        exact htwo.append fun r' hr' => ih hr'
      -- no byte of another character reads as a quote
      · have hquote : quote ∉ String.utf8EncodeChar c := by
          intro hm
          have ha : (UInt8.ofNat '"'.toNat) ∈ String.utf8EncodeChar c := hm
          exact hc (Text.eq_of_mem_utf8EncodeChar (by decide) ha)
        have hchar : encodeChars [c] = String.utf8EncodeChar c := by
          rw [Text.encodeChars_cons, Text.encodeChars_nil, List.append_nil]
        rw [if_neg hc, hchar]
        exact (h.texts hquote).append fun r' hr' => ih hr'

/-- **A cell in quotes is read up to its closing quote.** -/
theorem Holds.quotedChars (h : r.Holds place fields [])
    (hplace : place = .recordStart ∨ place = .fieldStart) (cell : String) :
    r.Moves (encodeChars (quotedChars cell)) .quoteInQuoted fields (encode cell).reverse := by
  have hcell : encodeChars (Csv.quotedChars cell)
      = [quote] ++ (encodeChars (Csv.quotedBody cell.toList) ++ [quote]) := by
    rw [Csv.quotedChars, Text.encodeChars_cons, Text.encodeChars_append]
    rfl
  rw [hcell]
  refine (h.openQuote hplace).append fun r₁ h₁ => ?_
  refine (h₁.quotedBody cell.toList).append fun r₂ h₂ => ?_
  rw [← Text.encode_eq, List.append_nil] at h₂
  exact h₂.closeQuote

/-! ## One record -/

theorem Holds.comma (h : r.Holds .quoteInQuoted fields field) :
    r.Moves [comma] .fieldStart (field.reverse :: fields) [] := by
  obtain ⟨hp, rfl, rfl⟩ := h
  have hstep : r.step Csv.comma = ((r.consume Csv.comma).endField, none) := by
    have hp' : (r.consume Csv.comma).place = .quoteInQuoted := hp
    simp only [step, hp']
    rfl
  exact moves_of_step hstep ⟨rfl, rfl, rfl⟩

theorem Holds.lineFeed (h : r.Holds .quoteInQuoted fields field) :
    (advance r [lineFeed]).1.map (·.fields) = [(field.reverse :: fields).reverse] ∧
      (advance r [lineFeed]).2.Holds .recordStart [] [] := by
  obtain ⟨hp, rfl, rfl⟩ := h
  have hstep : r.step Csv.lineFeed
      = ((r.consume Csv.lineFeed).endRecord Csv.lineFeed,
        some (r.consume Csv.lineFeed).record) := by
    have hp' : (r.consume Csv.lineFeed).place = .quoteInQuoted := hp
    simp only [step, hp']
    rfl
  show ((r.step Csv.lineFeed).2.toList ++ []).map RawRecord.fields = _ ∧
    (r.step Csv.lineFeed).1.Holds .recordStart [] []
  rw [hstep]
  exact ⟨rfl, rfl, rfl, rfl⟩

/-- **A record is read up to the end of its line**, behind the fields that have been read. -/
theorem Holds.recordChars (h : r.Holds place fields [])
    (hplace : place = .recordStart ∨ place = .fieldStart) {cells : List String}
    (hne : cells ≠ []) :
    (advance r (encodeChars (recordChars cells ++ ['\n']))).1.map (·.fields)
        = [fields.reverse ++ cells.map encode] ∧
      (advance r (encodeChars (recordChars cells ++ ['\n']))).2.Holds .recordStart [] [] := by
  have hlast : encodeChars ['\n'] = [Csv.lineFeed] := rfl
  induction cells generalizing r place fields with
  | nil => exact absurd rfl hne
  | cons cell cells ih =>
      obtain ⟨hnone, hholds⟩ := h.quotedChars hplace cell
      cases cells with
      | nil =>
          obtain ⟨hrecord, hbehind⟩ := hholds.lineFeed
          rw [Csv.recordChars, Text.encodeChars_append, hlast, advance_append, hnone]
          refine ⟨?_, hbehind⟩
          rw [List.nil_append, hrecord]
          simp
      | cons next rest =>
          obtain ⟨hnone', hholds'⟩ := hholds.comma
          obtain ⟨hrecord, hbehind⟩ := ih hholds' (Or.inr rfl) (List.cons_ne_nil _ _)
          -- the cell, a comma, and a record of the remaining cells
          have hcut : encodeChars (Csv.recordChars (cell :: next :: rest) ++ ['\n'])
              = encodeChars (Csv.quotedChars cell)
                ++ ([Csv.comma] ++ encodeChars (Csv.recordChars (next :: rest) ++ ['\n'])) := by
            rw [Csv.recordChars, List.append_assoc, Text.encodeChars_append, List.cons_append,
              Text.encodeChars_cons]
            rfl
          rw [hcut, advance_append, advance_append, hnone, hnone']
          refine ⟨?_, hbehind⟩
          rw [List.nil_append, List.nil_append, hrecord]
          simp

end Reader

/-! ## All records -/

theorem fields_recordsFrom {r : Reader} (h : r.Holds .recordStart [] [])
    {records : List (List String)} (hne : ∀ cells ∈ records, cells ≠ []) :
    (recordsFrom r (encodeChars (records.flatMap fun cells => recordChars cells ++ ['\n']))).map
        (·.fields) = records.map fun cells => cells.map encode := by
  induction records generalizing r with
  | nil =>
      have hplace : r.place = .recordStart := h.place_eq
      show (([] : List RawRecord) ++ r.finish).map (·.fields) = []
      rw [Reader.finish, hplace]
      rfl
  | cons cells records ih =>
      obtain ⟨hcells, hrecords⟩ := List.forall_mem_cons.mp hne
      obtain ⟨hrecord, hbehind⟩ := h.recordChars (Or.inl rfl) hcells
      rw [List.flatMap_cons, Text.encodeChars_append, recordsFrom_append, List.map_append, hrecord,
        ih hbehind hrecords]
      rfl

theorem isPrefixOf_written {records : List (List String)} (hne : ∀ cells ∈ records, cells ≠ []) :
    byteOrderMark.isPrefixOf (encode (written records)) = false := by
  cases records with
  | nil => rfl
  | cons cells records =>
      cases cells with
      | nil => exact absurd rfl (hne [] List.mem_cons_self)
      | cons cell cells =>
          have hquote : ∃ rest, recordChars (cell :: cells) = '"' :: rest := by
            cases cells with
            | nil => exact ⟨_, rfl⟩
            | cons next rest => exact ⟨_, rfl⟩
          obtain ⟨rest, hrest⟩ := hquote
          rw [written, Text.encode_ofList, List.flatMap_cons, hrest]
          rfl

/-- **What has been written is read back**, its places aside. -/
theorem records_written {records : List (List String)} (hne : ∀ cells ∈ records, cells ≠ []) :
    (Csv.records (encode (written records))).map (·.fields)
      = records.map fun cells => cells.map encode := by
  rw [Csv.records, if_neg (Bool.eq_false_iff.mp (isPrefixOf_written hne)), written,
    Text.encode_ofList]
  exact fields_recordsFrom ⟨rfl, rfl, rfl⟩ hne

theorem texts_of_fields {r : RawRecord} {cells : List String} (h : r.fields = cells.map encode)
    (number : Nat) : r.texts number = .ok cells := by
  have texts : ∀ (cells : List String) (field : Nat),
      textsFrom r number field (cells.map encode) = .ok cells := by
    intro cells
    induction cells with
    | nil => exact fun _ => rfl
    | cons cell cells ih =>
        intro field
        rw [List.map_cons, textsFrom, Text.decode?_encode]
        simp only [ih]
        rfl
  rw [RawRecord.texts, h]
  exact texts cells 0

end Registrar.Csv
