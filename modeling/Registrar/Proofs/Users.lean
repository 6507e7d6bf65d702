import Registrar.Freeform.Encoding
import Registrar.Proofs.Records

/-!
# Users that are rebuilt

A user is rebuilt from the empty one by filling its record and by adding the records of each
composite attribute in turn (`User.addEach`). What comes out is the user with the names forced
that its values ask for (`User.marked`), without the password (`User.withoutPassword`).

* `User.records_addEach` — what adding the records of each attribute gives.
* `Cardinality.foldl_store_written` — the records of an attribute, added to none.
* `User.toJson_mapRecords`, `User.encode_mapRecords` — forced names show neither in the JSON of a
  user nor in its text.
-/

set_option autoImplicit false

namespace Registrar

/-! ## Adding records -/

namespace Cardinality

variable {s : Shape}

/-- **The records of an attribute that have a value, added to none**, are its records. Only the
name, whose records are merged, may be empty. -/
theorem foldl_store_written {k : Cardinality} {rs : List (Record s)}
    (hk : k.allows rs.length = true) (hne : k ≠ .merged → ∀ r ∈ rs, r.isEmpty = false) :
    ((rs.filter fun r => !r.isEmpty).map Record.marked).foldl (fun old r => k.store old r) k.initial
      = rs.map Record.marked := by
  have keep : (∀ r ∈ rs, r.isEmpty = false) → rs.filter (fun r => !r.isEmpty) = rs := fun h =>
    List.filter_eq_self.mpr fun r hr => by simp [h r hr]
  have append : ∀ (more old : List (Record s)),
      more.foldl (fun old r => list.store old r) old = old ++ more := by
    intro more
    induction more with
    | nil => simp
    | cons r more ih =>
        intro old
        rw [List.foldl_cons, ih]
        show (old ++ [r]) ++ more = old ++ r :: more
        rw [List.append_assoc, List.singleton_append]
  cases k with
  | list =>
      rw [keep (hne (by decide)), append]
      rfl
  | single =>
      -- the last record counts, but there is at most one
      rw [keep (hne (by decide))]
      rcases eq_nil_or_singleton_of_allows hk with rfl | ⟨r, rfl⟩ <;> rfl
  | merged =>
      -- an empty name is not written, and the empty user has it already
      obtain ⟨r, rfl⟩ := exists_singleton_of_allows hk
      cases hr : r.isEmpty with
      | true => simp [hr, initial, Record.marked_of_isEmpty hr]
      | false => simp [hr, initial, store, Record.empty_merge]

end Cardinality

theorem Composite.nodup_all : Composite.all.Nodup := by decide

namespace User

/-- The user with records added to a composite attribute, one after the other. -/
def addAll (u : User) (c : Composite) (rs : List (Record c.shape)) : User := rs.foldl (·.add c ·) u

theorem scalars_addAll (u : User) (c : Composite) (rs : List (Record c.shape)) :
    (u.addAll c rs).scalars = u.scalars := by
  induction rs generalizing u with
  | nil => rfl
  | cons r rs ih => exact ih (u.add c r)

theorem records_addAll (u : User) (c : Composite) (rs : List (Record c.shape)) :
    (u.addAll c rs).records c
      = rs.foldl (fun old r => c.cardinality.store old r) (u.records c) := by
  induction rs generalizing u with
  | nil => rfl
  | cons r rs ih =>
      rw [List.foldl_cons, ← u.records_add c r]
      exact ih (u.add c r)

theorem records_addAll_of_ne (u : User) {c c' : Composite} (rs : List (Record c.shape))
    (h : c' ≠ c) : (u.addAll c rs).records c' = u.records c' := by
  induction rs generalizing u with
  | nil => rfl
  | cons r rs ih => exact (ih (u.add c r)).trans (u.records_add_of_ne r h)

/-- The user with records added to each attribute of a list. -/
def addEach (u : User) (rs : (c : Composite) → List (Record c.shape)) (cs : List Composite) :
    User :=
  cs.foldl (fun u c => u.addAll c (rs c)) u

theorem scalars_addEach (u : User) (rs : (c : Composite) → List (Record c.shape))
    (cs : List Composite) : (u.addEach rs cs).scalars = u.scalars := by
  induction cs generalizing u with
  | nil => rfl
  | cons c cs ih => exact (ih (u.addAll c (rs c))).trans (u.scalars_addAll c (rs c))

/-- **Adding records to each attribute of a list** changes the attributes of the list. -/
theorem records_addEach (u : User) (rs : (c : Composite) → List (Record c.shape))
    {cs : List Composite} (h : cs.Nodup) (c : Composite) :
    (u.addEach rs cs).records c =
      if c ∈ cs then (rs c).foldl (fun old r => c.cardinality.store old r) (u.records c)
      else u.records c := by
  induction cs generalizing u with
  | nil => rfl
  | cons d ds ih =>
      obtain ⟨hd, hds⟩ := List.nodup_cons.mp h
      have hrec := ih (u.addAll d (rs d)) hds
      rw [addEach, List.foldl_cons, ← addEach, hrec]
      -- each attribute stands in the list once, so the others leave it alone
      by_cases hc : c = d
      · subst hc
        rw [if_neg hd, if_pos List.mem_cons_self, records_addAll]
      · rw [u.records_addAll_of_ne _ hc]
        simp [hc]

/-! ## Forced names and the password -/

/-- The user with each of its records changed in the same way. -/
def mapRecords (f : (s : Shape) → Record s → Record s) (u : User) : User where
  scalars := f _ u.scalars
  records c := (u.records c).map (f _)
  fits c := by simpa using u.fits c

/-- **The user with exactly its unset values forced to be sent.** -/
def marked : User → User := mapRecords fun _ => Record.marked

def unforced : User → User := mapRecords fun _ => Record.unforced

/-- The user without the password and the way it was hashed. -/
def withoutPassword (u : User) : User :=
  { u with scalars := u.scalars.restrict fun name => !isSecret name }

theorem toJson?_map {s : Shape} (k : Cardinality) {f : Record s → Record s}
    (h : ∀ r, (f r).values = r.values) (rs : List (Record s)) :
    k.toJson? (rs.map f) = k.toJson? rs := by
  have hj : ∀ r, (f r).toJson = r.toJson := fun r => by rw [Record.toJson, h, Record.toJson]
  have he : ∀ r, (f r).isEmpty = r.isEmpty := fun r => by rw [Record.isEmpty, h, Record.isEmpty]
  cases k with
  | list => simp [Cardinality.toJson?, Function.comp_def, hj]
  | single => cases rs <;> simp [Cardinality.toJson?, hj]
  | merged =>
      cases rs with
      | nil => rfl
      | cons r rs => cases hr : r.isEmpty <;> simp [Cardinality.toJson?, Option.filter, hj, he, hr]

/-- **Forced names do not show in the JSON of a user.** -/
theorem toJson_mapRecords {f : (s : Shape) → Record s → Record s}
    (h : ∀ s r, (f s r).values = r.values) (u : User) : (u.mapRecords f).toJson = u.toJson := by
  simp only [toJson, jsonFields, mapRecords, h, toJson?_map _ (h _)]

/-- **Forced names do not show in the text of a user.** -/
theorem encode_mapRecords {f : (s : Shape) → Record s → Record s}
    (h : ∀ s r, (f s r).values = r.values) (u : User) : (u.mapRecords f).encode = u.encode := by
  have hoccurrence : ∀ s, encodeOccurrence ∘ f s = encodeOccurrence := fun s => by
    funext r
    rw [Function.comp_apply, encodeOccurrence, encodeOccurrence, h]
  have hcomposite : (u.mapRecords f).encodeComposite = u.encodeComposite := by
    funext c
    have hmap : (u.mapRecords f).records c = (u.records c).map (f _) := rfl
    rw [encodeComposite, hmap, List.mapM_map, hoccurrence, encodeComposite]
  have hwritten : (u.mapRecords f).writtenScalars = u.writtenScalars := by
    simp only [writtenScalars, mapRecords, h]
  rw [encode, encode, hcomposite, hwritten]

theorem toJson_marked (u : User) : u.marked.toJson = u.toJson :=
  toJson_mapRecords (f := fun _ => Record.marked) (fun _ _ => rfl) u

theorem writtenScalars_withoutPassword (u : User) :
    u.withoutPassword.writtenScalars = u.writtenScalars := by
  simp [writtenScalars, withoutPassword, Record.restrict, NameMap.filter]

theorem values_name_marked (u : User) : u.marked.name.values = u.name.values := by
  have hrec : u.marked.records .name = (u.records .name).map Record.marked := rfl
  rw [name, name, hrec]
  cases u.records .name <;> rfl

theorem get?_marked (u : User) (s : Slot) : u.marked.get? s = u.get? s := by
  have hname : u.marked.name.get? s.field.name = u.name.get? s.field.name :=
    congrArg (·.get? s.field.name) u.values_name_marked
  rw [get?, get?, hname]
  rfl

theorem isSecret_of_ne_password {s : Slot} (h : s ≠ .password) : isSecret s.field.name = false := by
  cases s <;> first | exact absurd rfl h | decide

end User

end Registrar
