import Registrar.NameMap
import Registrar.Schema.Shape

/-!
# Records

A `Record` gives values to some fields of its shape, and holds the names that are forced to be
sent although their values count as unset. `Record.put` is how input becomes part of a record: it
sets a value and forces it if it has to be.

* `Record.get?_put`, `Record.isForced_put` — what putting a value in changes.
* `Record.ext` — values and forced names decide the record.
* `Record.ofJson_toJson` — a record reads back from its JSON, forced names apart.
* `Record.stored`, `Record.restored` — records of a shape and of a type that holds them.
-/

set_option autoImplicit false

namespace Registrar

/-- **A record of a shape.** Each value is one that the field of its name admits. -/
structure Record (shape : Shape) where
  values : NameMap Scalar := {}
  forced : NameSet := {}
  conforms : ∀ e ∈ values.entries, shape.admits e.1 e.2 = true := by simp

namespace Record

variable {shape : Shape}

instance : DecidableEq (Record shape) := fun a b =>
  if h : a.values = b.values ∧ a.forced = b.forced then
    .isTrue (by cases a; cases b; obtain ⟨h₁, h₂⟩ := h; cases h₁; cases h₂; rfl)
  else .isFalse fun e => h (e ▸ ⟨rfl, rfl⟩)

def empty : Record shape where
  values := .empty
  forced := .empty
  conforms _ h := absurd h List.not_mem_nil

def get? (r : Record shape) (name : String) : Option Scalar := r.values.get? name

def isForced (r : Record shape) (name : String) : Bool := r.forced.contains name

def isEmpty (r : Record shape) : Bool := r.values.isEmpty

def force (r : Record shape) (name : String) : Record shape :=
  { r with forced := r.forced.insert name }

/-- The record with a value given to a field. -/
def set (r : Record shape) (f : shape.Member) (v : f.val.kind.Value) : Record shape where
  values := r.values.insert f.val.name v.val
  forced := r.forced
  conforms e he := by
    rcases NameMap.mem_entries_insert he with rfl | he
    · exact shape.admits_member f v
    · exact r.conforms e he

/-- **Puts a value into a record**: one that counts as unset is also forced to be sent. -/
def put (r : Record shape) (f : shape.Member) (v : f.val.kind.Value) : Record shape :=
  if f.val.isZero v.val then (r.set f v).force f.val.name else r.set f v

/-- **Empties a field**: it gets the empty text, which is forced to be sent. -/
def clear (r : Record shape) (f : shape.Member) (h : f.val.clearable = true) : Record shape :=
  r.put f ⟨.text "", Field.admits_of_clearable h ""⟩

def unforced (r : Record shape) : Record shape := { r with forced := .empty }

/-! ## Merging -/

theorem mem_entries_merge {m n : NameMap Scalar} {e : String × Scalar}
    (h : e ∈ (m.merge n).entries) : e ∈ m.entries ∨ e ∈ n.entries := by
  have step : ∀ (es : List (String × Scalar)) (m : NameMap Scalar),
      e ∈ (es.foldl (fun acc e => acc.insert e.1 e.2) m).entries → e ∈ m.entries ∨ e ∈ es := by
    intro es
    induction es with
    | nil => intro m h; exact Or.inl h
    | cons hd tl ih =>
        intro m h
        rcases ih _ h with h | h
        · rcases NameMap.mem_entries_insert h with rfl | h
          · exact Or.inr List.mem_cons_self
          · exact Or.inl h
        · exact Or.inr (List.mem_cons_of_mem _ h)
  exact step n.entries m h

/-- The record with the values and forced names of `other` put in, those of `other` winning. -/
def merge (r other : Record shape) : Record shape where
  values := r.values.merge other.values
  forced := r.forced.union other.forced
  conforms e he := by
    rcases mem_entries_merge he with he | he
    · exact r.conforms e he
    · exact other.conforms e he

/-! ## Laws -/

/-- **Values and forced names decide the record.** -/
theorem ext {a b : Record shape} (hv : ∀ name, a.get? name = b.get? name)
    (hf : ∀ name, a.isForced name = b.isForced name) : a = b := by
  have h₁ : a.values = b.values := NameMap.ext hv
  have h₂ : a.forced = b.forced := NameSet.ext hf
  cases a; cases b; cases h₁; cases h₂; rfl

@[simp] theorem get?_empty (name : String) : (empty : Record shape).get? name = none := rfl

@[simp] theorem isForced_empty (name : String) :
    (empty : Record shape).isForced name = false := rfl

@[simp] theorem get?_force (r : Record shape) (name other : String) :
    (r.force name).get? other = r.get? other := rfl

theorem isForced_force (r : Record shape) (name other : String) :
    (r.force name).isForced other = (decide (other = name) || r.isForced other) :=
  NameSet.contains_insert r.forced name other

theorem get?_set (r : Record shape) (f : shape.Member) (v : f.val.kind.Value)
    (name : String) :
    (r.set f v).get? name = if name = f.val.name then some v.val else r.get? name :=
  NameMap.get?_insert r.values f.val.name name v.val

@[simp] theorem isForced_set (r : Record shape) (f : shape.Member) (v : f.val.kind.Value)
    (name : String) : (r.set f v).isForced name = r.isForced name := rfl

/-- **A value put in changes its own field.** -/
theorem get?_put (r : Record shape) (f : shape.Member) (v : f.val.kind.Value)
    (name : String) :
    (r.put f v).get? name = if name = f.val.name then some v.val else r.get? name := by
  unfold put
  split
  · rw [get?_force, get?_set]
  · rw [get?_set]

/-- **A value put in is forced exactly if it counts as unset.** -/
theorem isForced_put (r : Record shape) (f : shape.Member) (v : f.val.kind.Value)
    (name : String) :
    (r.put f v).isForced name
      = ((f.val.isZero v.val && decide (name = f.val.name)) || r.isForced name) := by
  unfold put
  split
  · rename_i h
    rw [isForced_force, isForced_set, h, Bool.true_and]
  · rename_i h
    rw [isForced_set, Bool.eq_false_iff.mpr h, Bool.false_and, Bool.false_or]

theorem admits_of_get? {r : Record shape} {name : String} {v : Scalar}
    (h : r.get? name = some v) : shape.admits name v = true :=
  r.conforms (name, v) (NameMap.mem_entries_iff.mpr h)

/-! ## JSON -/

/-- **The JSON object of a record**: the fields that have a value. -/
def toJson (r : Record shape) : Json := .obj (r.values.entries.map fun e => (e.1, e.2.toJson))

/-- The record with the values that JSON fields give. A field that the shape does not have is
passed over, and so is one that is null. -/
def readFields (r : Record shape) :
    List (String × Json) → Except Json.Mismatch (Record shape)
  | [] => .ok r
  | (name, j) :: rest =>
      match shape.member? name with
      | none => r.readFields rest
      | some f =>
          if j.isNull then r.readFields rest
          else match f.val.kind.ofJson j with
            | .ok v => (r.set f v).readFields rest
            | .error e => .error e

/-- **Reads a record** from a JSON object. -/
def ofJson : Json → Except Json.Mismatch (Record shape)
  | .obj entries => empty.readFields entries
  | j => .error (.wrongType j.found ("struct " ++ shape.label))

theorem isNull_toJson (v : Scalar) : v.toJson.isNull = false := by
  cases v <;> rfl

/-- Reading the JSON of values puts each of them in. -/
theorem readFields_values (es : List (String × Scalar))
    (h : ∀ e ∈ es, shape.admits e.1 e.2 = true) (r : Record shape) :
    ∃ s : Record shape, r.readFields (es.map fun e => (e.1, e.2.toJson)) = .ok s ∧
      s.values = es.foldl (fun m e => m.insert e.1 e.2) r.values ∧ s.forced = r.forced := by
  induction es generalizing r with
  | nil => exact ⟨r, rfl, rfl, rfl⟩
  | cons e es ih =>
      obtain ⟨f, hn, hv⟩ := Shape.exists_member_of_admits (h e List.mem_cons_self)
      have hf : shape.member? e.1 = some f := Shape.member?_eq_some_iff.mpr hn
      have hj := FieldKind.ofJson_toJson f.val.kind ⟨e.2, hv⟩
      obtain ⟨s, hs, hval, hfor⟩ := ih (fun e' he' => h e' (List.mem_cons_of_mem _ he'))
        (r.set f ⟨e.2, hv⟩)
      refine ⟨s, ?_, ?_, hfor⟩
      · simp only [List.map_cons, readFields, hf, isNull_toJson]
        rw [hj]
        exact hs
      · rw [hval]
        simp only [List.foldl_cons, set, hn]

theorem foldl_insert_entries (m : NameMap Scalar) :
    m.entries.foldl (fun m e => m.insert e.1 e.2) .empty = m := by
  refine NameMap.ext fun name => ?_
  rw [NameMap.get?_foldl_insert m.sorted, NameMap.get?_empty, Option.or_none]
  rfl

/-- **A record reads back** from its JSON, forced names apart. -/
theorem ofJson_toJson (r : Record shape) : ofJson r.toJson = .ok r.unforced := by
  obtain ⟨s, hs, hval, hfor⟩ := readFields_values r.values.entries r.conforms empty
  have hval' : s.values = r.values := by
    rw [hval]
    exact foldl_insert_entries r.values
  have : s = r.unforced := by
    cases s; cases r
    simp_all [unforced, empty]
  rw [toJson, ofJson, hs, this]

/-! ## Types of payloads -/

section

variable {type : Shape} (h : type.Stores shape)

/-- The record as one of a type that holds the records of its shape. -/
def stored (r : Record shape) : Record type where
  values := r.values
  forced := r.forced
  conforms e he := (h.admits_eq e.1 e.2).trans (r.conforms e he)

/-- A record of a type as one of the shape whose records the type holds. -/
def restored (r : Record type) : Record shape where
  values := r.values
  forced := r.forced
  conforms e he := (h.admits_eq e.1 e.2).symm.trans (r.conforms e he)

@[simp] theorem restored_stored (r : Record shape) : (r.stored h).restored h = r := rfl

@[simp] theorem toJson_stored (r : Record shape) : (r.stored h).toJson = r.toJson := rfl

@[simp] theorem isEmpty_stored (r : Record shape) : (r.stored h).isEmpty = r.isEmpty := rfl

end

end Record

end Registrar
