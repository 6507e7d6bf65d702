import Registrar.Record
import Registrar.Schema.PayloadTypes

/-!
# Users

A `User` has a record of scalars and, for each composite attribute, the records of its
occurrences, as many as the cardinality of the attribute allows. The name is always one record,
which may be empty.

* `User.ext` — scalars and occurrences decide the user.
* `User.records_add` — an occurrence changes its own attribute.
* `User.get?_put` — a scalar put in changes its own attribute.
-/

set_option autoImplicit false

namespace Registrar

namespace Cardinality

variable {s : Shape}

/-- The numbers of records that an attribute may have. -/
def allows : Cardinality → Nat → Bool
  | .list, _ => true
  | .single, n => n ≤ 1
  | .merged, n => n = 1

/-- The records of an attribute that has not been given. -/
def initial : Cardinality → List (Record s)
  | .merged => [.empty]
  | _ => []

/-- **The records with one more occurrence.** -/
def store (old : List (Record s)) (r : Record s) : Cardinality → List (Record s)
  | .list => old ++ [r]
  | .single => [r]
  | .merged => old.map (·.merge r)

/-- An attribute that is no list has at most one record, … -/
theorem eq_nil_or_singleton_of_allows {rs : List (Record s)}
    (h : single.allows rs.length = true) : rs = [] ∨ ∃ r, rs = [r] := by
  have hlen : rs.length ≤ 1 := of_decide_eq_true h
  cases rs with
  | nil => exact Or.inl rfl
  | cons r rest =>
      rw [List.length_cons] at hlen
      exact Or.inr ⟨r, by rw [List.length_eq_zero_iff.mp (by omega : rest.length = 0)]⟩

/-- … and one into which others are merged always has one. -/
theorem exists_singleton_of_allows {rs : List (Record s)} (h : merged.allows rs.length = true) :
    ∃ r, rs = [r] := List.length_eq_one_iff.mp (of_decide_eq_true h)

theorem allows_initial (k : Cardinality) : k.allows (k.initial (s := s)).length = true := by
  cases k <;> rfl

theorem allows_store {k : Cardinality} {old : List (Record s)} (h : k.allows old.length = true)
    (r : Record s) : k.allows (k.store old r).length = true := by
  cases k with
  | list => rfl
  | single => rfl
  | merged => simpa [store] using h

/-- The JSON of an attribute, if it has something to show. -/
def toJson? (records : List (Record s)) : Cardinality → Option Json
  | .list => if records.isEmpty then none else some (.arr (records.map Record.toJson))
  | .single => records.head?.map Record.toJson
  | .merged => (records.head?.filter fun r => !r.isEmpty).map Record.toJson

/-- The records that JSON gives for an attribute: an array of them, one or null, or one. -/
def ofJson (j : Json) : Cardinality → Except Json.Mismatch (List (Record s))
  | .list =>
      match j with
      | .arr items => items.mapM Record.ofJson
      | _ => .error (.wrongType j.found "a sequence")
  | .single => if j.isNull then .ok [] else (Record.ofJson j).map ([·])
  | .merged => (Record.ofJson j).map ([·])

theorem length_of_mapM {α β ε : Type} {f : α → Except ε β} {xs : List α} {ys : List β}
    (h : xs.mapM f = .ok ys) : ys.length = xs.length := by
  induction xs generalizing ys with
  | nil => cases h; rfl
  | cons x xs ih =>
      rw [List.mapM_cons] at h
      cases hx : f x with
      | error e => rw [hx] at h; cases h
      | ok y =>
          cases hxs : xs.mapM f with
          | error e => rw [hx, hxs] at h; cases h
          | ok rest =>
              rw [hx, hxs] at h
              cases h
              simp [ih hxs]

theorem allows_ofJson {k : Cardinality} {j : Json} {rs : List (Record s)}
    (h : k.ofJson j = .ok rs) : k.allows rs.length = true := by
  cases k with
  | list => rfl
  | single =>
      simp only [ofJson] at h
      split at h
      · cases h; rfl
      · cases hr : @Record.ofJson s j with
        | error e => rw [hr] at h; cases h
        | ok r => rw [hr] at h; cases h; rfl
  | merged =>
      simp only [ofJson] at h
      cases hr : @Record.ofJson s j with
      | error e => rw [hr] at h; cases h
      | ok r => rw [hr] at h; cases h; rfl

end Cardinality

/-- **A user.** -/
structure User where
  scalars : Record .ofUser
  records : (c : Composite) → List (Record c.shape)
  fits : ∀ c : Composite, c.cardinality.allows (records c).length = true

namespace User

/-! ## Values -/

def empty : User where
  scalars := .empty
  records c := c.cardinality.initial
  fits c := c.cardinality.allows_initial

/-- **Scalars and occurrences decide the user.** -/
theorem ext {u v : User} (hs : u.scalars = v.scalars) (hr : ∀ c, u.records c = v.records c) :
    u = v := by
  obtain ⟨us, ur, uf⟩ := u
  obtain ⟨vs, vr, vf⟩ := v
  cases hs
  cases (funext hr : ur = vr)
  rfl

instance : DecidableEq User := fun u v =>
  if h : u.scalars = v.scalars ∧ ∀ c ∈ Composite.all, u.records c = v.records c then
    .isTrue (ext h.1 fun c => h.2 c c.mem_all)
  else .isFalse fun e => h (e ▸ ⟨rfl, fun _ _ => rfl⟩)

/-- The names of scalars that are forced to be sent. -/
def forced (u : User) : NameSet := u.scalars.forced

def force (u : User) (name : String) : User := { u with scalars := u.scalars.force name }

/-- The user with other records for an attribute. -/
def setRecords (u : User) (c : Composite) (rs : List (Record c.shape))
    (h : c.cardinality.allows rs.length = true) : User where
  scalars := u.scalars
  records c' := if e : c' = c then e ▸ rs else u.records c'
  fits c' := by
    by_cases e : c' = c
    · subst e
      simpa using h
    · simpa [e] using u.fits c'

@[simp] theorem records_setRecords (u : User) (c : Composite) (rs : List (Record c.shape))
    (h : c.cardinality.allows rs.length = true) : (u.setRecords c rs h).records c = rs := by
  simp [setRecords]

theorem records_setRecords_of_ne (u : User) {c c' : Composite} (rs : List (Record c.shape))
    (h : c.cardinality.allows rs.length = true) (e : c' ≠ c) :
    (u.setRecords c rs h).records c' = u.records c' := by
  simp [setRecords, e]

/-- **The user with one more occurrence of a composite attribute.** -/
def add (u : User) (c : Composite) (r : Record c.shape) : User :=
  u.setRecords c (c.cardinality.store (u.records c) r) (Cardinality.allows_store (u.fits c) r)

/-- **An occurrence changes its own attribute.** -/
theorem records_add (u : User) (c : Composite) (r : Record c.shape) :
    (u.add c r).records c = c.cardinality.store (u.records c) r :=
  u.records_setRecords c _ _

theorem records_add_of_ne (u : User) {c c' : Composite} (r : Record c.shape) (e : c' ≠ c) :
    (u.add c r).records c' = u.records c' :=
  u.records_setRecords_of_ne _ _ e

def name (u : User) : Record Composite.name.shape := (u.records .name).headD .empty

theorem name_allows_one (r : Record Composite.name.shape) :
    Composite.name.cardinality.allows [r].length = true := rfl

def setName (u : User) (r : Record Composite.name.shape) : User :=
  u.setRecords .name [r] (name_allows_one r)

@[simp] theorem name_setName (u : User) (r : Record Composite.name.shape) :
    (u.setName r).name = r := by
  rw [name, setName, records_setRecords]
  rfl

@[simp] theorem scalars_setName (u : User) (r : Record Composite.name.shape) :
    (u.setName r).scalars = u.scalars := rfl

/-! ## Scalar attributes -/

def get? (u : User) (s : Slot) : Option Scalar :=
  if s.inName then u.name.get? s.field.name else u.scalars.get? s.field.name

/-- **Puts a value into a scalar attribute.** One that counts as unset is also forced to be
sent. -/
def put (u : User) (s : Slot) (v : s.field.kind.Value) : User :=
  if h : s.inName = true then u.setName (u.name.put (s.nameMember h) v)
  else { u with scalars := u.scalars.put (s.userMember (Bool.eq_false_iff.mpr h)) v }

def passwordField : Shape.ofUser.Member := ⟨.text "password", by decide⟩

def hashField : Shape.ofUser.Member := ⟨.text "hashFunction", by decide⟩

/-- The user with a password, which is held as its hash together with the name of the hash. -/
def setPassword (u : User) (hashName hash : String) : User :=
  { u with
    scalars := (u.scalars.set passwordField (Field.textValue "password" hash)).set hashField
      (Field.textValue "hashFunction" hashName) }

theorem name_inj {s t : Slot} (h : s.field.name = t.field.name) : s = t := by
  have hs := Slot.ofName?_name s
  rw [h, Slot.ofName?_name] at hs
  exact (Option.some.inj hs).symm

/-- **A scalar put in changes its own attribute.** -/
theorem get?_put (u : User) (s t : Slot) (v : s.field.kind.Value) :
    (u.put s v).get? t = if t = s then some v.val else u.get? t := by
  by_cases ht : t = s
  · subst ht
    unfold put get?
    by_cases h : t.inName = true
    · simp [h, Slot.nameMember, Record.get?_put]
    · simp [h, Slot.userMember, Record.get?_put]
  · have hn : t.field.name ≠ s.field.name := fun e => ht (name_inj e)
    unfold put get?
    by_cases h : s.inName = true
    · by_cases h' : t.inName = true <;>
        simp [h, h', ht, hn, Slot.nameMember, Record.get?_put]
    · have hname : ∀ r : Record .ofUser, ({ u with scalars := r } : User).name = u.name :=
        fun _ => rfl
      by_cases h' : t.inName = true <;>
        simp [h, h', ht, hn, hname, Slot.userMember, Record.get?_put]

/-! ## JSON -/

/-- The fields of the JSON object: scalars that have a value and attributes that have something
to show. -/
def jsonFields (u : User) : List (String × Option Json) :=
  u.scalars.values.entries.map (fun e => (e.1, some e.2.toJson))
    ++ Composite.all.map fun c => (c.field, c.cardinality.toJson? (u.records c))

/-- **The JSON object of a user.** -/
def toJson (u : User) : Json := Json.object u.jsonFields

/-- The user with the value that one JSON field gives. A field that users do not have is passed
over, and so is a scalar that is null. -/
def readField (u : User) (name : String) (j : Json) : Except Json.Mismatch User :=
  match Composite.ofField? name with
  | some c =>
      match h : Cardinality.ofJson (s := c.payload) j c.cardinality with
      | .ok rs =>
          .ok (u.setRecords c (rs.map (Record.restored c.stores))
            (by simpa using Cardinality.allows_ofJson h))
      | .error e => .error e
  | none =>
      ((u.scalars.stored Shape.userPayload_stores).readFields [(name, j)]).map fun r =>
        { u with scalars := r.restored Shape.userPayload_stores }

/-- **Reads a user** from a JSON object. -/
def ofJson : Json → Except Json.Mismatch User
  | .obj entries => entries.foldlM (fun u e => u.readField e.1 e.2) empty
  | j => .error (.wrongType j.found ("struct " ++ Shape.ofUser.label))

end User

end Registrar
