import Registrar.Proofs.Freeform.Edits
import Registrar.Proofs.Users

/-!
# Users and the attribute strings that they are written as

A user is written as a list of groups, each with its text (`User.written`): one for each scalar
that is not secret, and one for each composite attribute that has a record with a value. Writing
fails only on the characters of values (`User.Writable`).

* `User.encode_eq_ok_iff` — what a user is written as, and when it is.
* `User.Writable.spells` — the texts of a user spell its groups.
-/

set_option autoImplicit false

namespace Registrar

/-! ## Scalars -/

namespace User

/-- The text of the group of a scalar. -/
def scalarText (name value : List Char) : List Char :=
  if ':' ∉ value then name ++ ':' :: value else name ++ '~' :: '\x7b' :: (value ++ ['\x7d'])

/-- The group of a scalar, and its text. -/
def scalarGroup (e : String × Scalar) : Group × List Char :=
  (.scalar e.1.toList e.2.asText.toList, scalarText e.1.toList e.2.asText.toList)

theorem encodeScalar_eq_ok_iff {name value : String} {cs : List Char} :
    encodeScalar name value = .ok cs ↔
      closesEarly value.toList = false ∧ cs = scalarText name.toList value.toList := by
  by_cases h : ':' ∈ value.toList
  · rw [encodeScalar_of_colon h, scalarText, if_neg (not_not.mpr h)]
    cases closesEarly value.toList <;> simp [eq_comm]
  · rw [encodeScalar_of_noColon h, scalarText, if_pos h]
    simp [closesEarly_of_noColon h, eq_comm]

theorem spells_scalarText {name value : List Char} (hn : name.any Group.endsName = false)
    (hk : Composite.ofKey? (String.ofList name) = none) (hc : closesEarly value = false) :
    (Group.scalar name value).Spells (scalarText name value) := by
  unfold scalarText
  split
  · rename_i h
    exact .colon hn h
  · exact .braced hn hk hc

end User

/-! ## Records -/

namespace Record

variable {shape : Shape}

/-- What is written for a record: its occurrence in braces, if it has a value. -/
def block (r : Record shape) : List Char := if r.isEmpty then [] else Occurrence.braced r.text

theorem encodeField_eq_ok_iff {name : String} {v : Scalar} {ts : List (List Char)} :
    User.encodeField name v = .ok ts ↔
      Text.isPlain v.asText.toList = true ∧ ts = [name.toList, v.asText.toList] := by
  simp only [User.encodeField, Text.isPlain]
  cases v.asText.toList.any User.isReserved with
  | true => simp
  | false =>
      simp only [Bool.false_eq_true, if_false, Except.ok.injEq, Bool.not_false, true_and]
      exact eq_comm

/-- **A record is written exactly if it holds no reserved character.** -/
theorem encodeOccurrence_eq_ok_iff {r : Record shape} {cs : List Char} :
    User.encodeOccurrence r = .ok cs ↔ r.IsPlain ∧ cs = r.block := by
  have hplain : (∀ e ∈ r.values.entries, Text.isPlain e.2.asText.toList = true) ↔ r.IsPlain :=
    ⟨fun h name v hv => h (name, v) (NameMap.mem_entries_iff.mpr hv),
      fun h e he => h e.1 e.2 (NameMap.mem_entries_iff.mp he)⟩
  have htokens : ∀ ts, (r.values.entries.mapM fun e => User.encodeField e.1 e.2) = .ok ts ↔
      (∀ e ∈ r.values.entries, Text.isPlain e.2.asText.toList = true) ∧
        ts = r.values.entries.map fun e => [e.1.toList, e.2.asText.toList] :=
    fun _ => mapM_eq_ok_iff fun _ _ _ => encodeField_eq_ok_iff
  rw [User.encodeOccurrence, map_eq_ok_iff]
  simp only [htokens, hplain]
  -- what is written is the text of the record between braces
  have hblock : (if (r.values.entries.map fun e => [e.1.toList, e.2.asText.toList]).isEmpty then []
      else '\x7b' :: (['~'].intercalate
        (r.values.entries.map fun e => [e.1.toList, e.2.asText.toList]).flatten ++ ['\x7d']))
      = r.block := by
    rw [List.isEmpty_map, block, isEmpty, NameMap.isEmpty, Occurrence.braced, text, tokens,
      List.flatMap_map, List.flatMap_def]
  constructor
  · rintro ⟨ts, ⟨hp, rfl⟩, rfl⟩
    exact ⟨hp, hblock⟩
  · rintro ⟨hp, rfl⟩
    exact ⟨_, ⟨hp, rfl⟩, hblock.symm⟩

end Record

namespace User

variable (u : User)

/-- The records of a composite attribute that have a value. -/
def writtenRecords (c : Composite) : List (Record c.shape) :=
  (u.records c).filter fun r => !r.isEmpty

/-- The body that is written for a composite attribute. -/
def body (c : Composite) : List Char :=
  ((u.writtenRecords c).map Record.text).flatMap Occurrence.braced

/-- The group of a composite attribute that has something to write, and its text. -/
def compositeGroups (c : Composite) : List (Group × List Char) :=
  if (u.writtenRecords c).isEmpty then []
  else [(.composite c c.key.toList (u.body c), c.key.toList ++ '~' :: u.body c)]

variable {u} in
theorem mem_writtenRecords {c : Composite} {r : Record c.shape} :
    r ∈ u.writtenRecords c ↔ r ∈ u.records c ∧ r.isEmpty = false := by
  simp [writtenRecords]

theorem flatten_blocks {shape : Shape} (rs : List (Record shape)) :
    (rs.map Record.block).flatten
      = ((rs.filter fun r => !r.isEmpty).map Record.text).flatMap Occurrence.braced := by
  induction rs with
  | nil => rfl
  | cons r rs ih =>
      rw [List.map_cons, List.flatten_cons, ih, Record.block]
      cases hr : r.isEmpty <;> simp [hr]

theorem body_eq_nil_iff (c : Composite) : u.body c = [] ↔ u.writtenRecords c = [] := by
  rw [body]
  cases u.writtenRecords c <;> simp [Occurrence.braced]

theorem encodeComposite_eq_ok_iff {c : Composite} {ts : List (List Char)} :
    u.encodeComposite c = .ok ts ↔
      (∀ r ∈ u.records c, r.IsPlain) ∧ ts = (u.compositeGroups c).map Prod.snd := by
  have hrecords : ∀ bs, (u.records c).mapM encodeOccurrence = .ok bs ↔
      (∀ r ∈ u.records c, r.IsPlain) ∧ bs = (u.records c).map Record.block :=
    fun _ => mapM_eq_ok_iff fun _ _ _ => Record.encodeOccurrence_eq_ok_iff
  rw [encodeComposite, map_eq_ok_iff]
  simp only [hrecords]
  -- records without a value write nothing, so only the written ones are left
  have htexts : (if ((u.records c).map Record.block).flatten.isEmpty then []
      else [c.key.toList ++ '~' :: ((u.records c).map Record.block).flatten])
      = (u.compositeGroups c).map Prod.snd := by
    have hbody : ((u.records c).map Record.block).flatten = u.body c := flatten_blocks (u.records c)
    have hempty : (u.body c).isEmpty = (u.writtenRecords c).isEmpty := by
      rw [Bool.eq_iff_iff, List.isEmpty_iff, List.isEmpty_iff, u.body_eq_nil_iff]
    rw [hbody, hempty, compositeGroups]
    cases (u.writtenRecords c).isEmpty <;> rfl
  constructor
  · rintro ⟨bs, ⟨hp, rfl⟩, rfl⟩
    exact ⟨hp, htexts⟩
  · rintro ⟨hp, rfl⟩
    exact ⟨_, ⟨hp, rfl⟩, htexts.symm⟩

/-! ## The attribute string -/

/-- **The groups that a user is written as**, each with its text. -/
def written : List (Group × List Char) :=
  u.writtenScalars.map scalarGroup ++ Composite.all.flatMap u.compositeGroups

/-- **Whether a user can be written**: no scalar closes its braces early, and no record of a
composite attribute holds a reserved character. -/
structure Writable : Prop where
  scalars : ∀ e ∈ u.writtenScalars, closesEarly e.2.asText.toList = false
  records : ∀ c, ∀ r ∈ u.records c, r.IsPlain

/-- **A user is written exactly if it is writable**, as the texts of its groups. -/
theorem encode_eq_ok_iff {t : String} :
    u.encode = .ok t ↔
      u.Writable ∧ t = String.ofList ([':'].intercalate (u.written.map Prod.snd)) := by
  have hscalars : ∀ ts, (u.writtenScalars.mapM fun e => encodeScalar e.1 e.2.asText) = .ok ts ↔
      (∀ e ∈ u.writtenScalars, closesEarly e.2.asText.toList = false) ∧
        ts = u.writtenScalars.map fun e => scalarText e.1.toList e.2.asText.toList :=
    fun _ => mapM_eq_ok_iff fun _ _ _ => encodeScalar_eq_ok_iff
  have hcomposites : ∀ ts, Composite.all.mapM u.encodeComposite = .ok ts ↔
      (∀ c ∈ Composite.all, ∀ r ∈ u.records c, r.IsPlain) ∧
        ts = Composite.all.map fun c => (u.compositeGroups c).map Prod.snd :=
    fun _ => mapM_eq_ok_iff fun _ _ _ => u.encodeComposite_eq_ok_iff
  -- what is written comes in this order: scalars, then one attribute after the other
  have htexts : u.written.map Prod.snd
      = (u.writtenScalars.map fun e => scalarText e.1.toList e.2.asText.toList)
        ++ (Composite.all.map fun c => (u.compositeGroups c).map Prod.snd).flatten := by
    rw [written, List.map_append, List.map_map, List.map_flatMap, List.flatMap_def]
    rfl
  unfold encode
  simp only [bind_eq_ok_iff, hscalars, hcomposites]
  rw [htexts]
  constructor
  · rintro ⟨ss, ⟨hs, rfl⟩, cs, ⟨hc, rfl⟩, ht⟩
    cases ht
    exact ⟨⟨hs, fun c => hc c c.mem_all⟩, rfl⟩
  · rintro ⟨⟨hs, hc⟩, rfl⟩
    exact ⟨_, ⟨hs, rfl⟩, _, ⟨fun c _ => hc c, rfl⟩, rfl⟩

theorem encode_eq_error_iff : (∃ e, u.encode = .error e) ↔ ¬u.Writable := by
  cases h : u.encode with
  | error e =>
      refine iff_of_true ⟨e, rfl⟩ fun hw => ?_
      have hok := u.encode_eq_ok_iff.mpr ⟨hw, rfl⟩
      rw [h] at hok
      cases hok
  | ok t =>
      have hw := (u.encode_eq_ok_iff.mp h).1
      simp [hw]

variable {u}

theorem mem_writtenScalars {e : String × Scalar} :
    e ∈ u.writtenScalars ↔ u.scalars.get? e.1 = some e.2 ∧ isSecret e.1 = false := by
  rw [writtenScalars, List.mem_filter, Bool.not_eq_true', Record.get?, ← NameMap.mem_entries_iff]

theorem exists_slot_of_mem {e : String × Scalar} (h : e ∈ u.writtenScalars) :
    ∃ s : Slot, s.field.name = e.1 ∧ s.inName = false ∧ s ≠ .password ∧
      s.field.kind.admits e.2 = true := by
  obtain ⟨hget, hs⟩ := mem_writtenScalars.mp h
  exact Shape.exists_slot_of_admits (Record.admits_of_get? hget) hs

/-- **The texts of a user spell its groups.** -/
theorem Writable.spells (h : u.Writable) : ∀ p ∈ u.written, p.1.Spells p.2 := by
  intro p hp
  -- names and keys of the schema hold no colon or tilde, and stand for what they should
  rcases List.mem_append.mp hp with hp | hp
  · obtain ⟨e, he, rfl⟩ := List.mem_map.mp hp
    obtain ⟨s, hs, -, -, -⟩ := exists_slot_of_mem he
    obtain ⟨-, hk, hn⟩ := Slot.names_table s s.mem_all
    rw [hs] at hk hn
    exact spells_scalarText hn (by rwa [String.ofList_toList]) (h.scalars e he)
  · obtain ⟨c, hc, hp⟩ := List.mem_flatMap.mp hp
    unfold compositeGroups at hp
    split at hp
    · cases hp
    · rw [List.mem_singleton.mp hp]
      refine .body (Composite.key_table c hc) (by rw [String.ofList_toList, c.ofKey?_key]) ?_
      refine Occurrence.isBody_flatMap fun o ho => ?_
      obtain ⟨r, hr, rfl⟩ := List.mem_map.mp ho
      exact Record.any_isBrace_text (h.records c r (mem_writtenRecords.mp hr).1)

end User

end Registrar
