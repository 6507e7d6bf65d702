import Registrar.Schema.FieldKind

/-!
# Shapes

The fields of a record: their names, their kinds, and whether an empty value clears them. A
`Shape.Member` is a field together with the proof that the shape has it under its name.

* `Shape.member?_eq_some_iff` — a name finds at most one field.
* `Field.isZero_eq_true_iff` — the values that are sent only when that is forced.
* `Shape.Stores` — the fields of a type in a payload against those that input can name.
-/

set_option autoImplicit false

namespace Registrar

/-- **A field of a record.** Only texts can be cleared. -/
structure Field where
  name : String
  kind : FieldKind
  clearable : Bool := false
  text_of_clearable : clearable = true → kind = .text := by simp
deriving DecidableEq

namespace Field

def text (name : String) : Field := { name, kind := .text }

def clearableText (name : String) : Field := { name, kind := .text, clearable := true }

def boolean (name : String) : Field := { name, kind := .boolean }

def booleanText (name : String) : Field := { name, kind := .booleanText }

def integer (name : String) : Field := { name, kind := .integer }

def enum (name : String) (domain : Domain) : Field := { name, kind := .enum domain }

/-- Whether a value of the field counts as unset unless it is forced to be sent: the truth value
false, and the empty text in a field that it clears. -/
def isZero (f : Field) (v : Scalar) : Bool :=
  v == .flag false || (f.clearable && v == .text "")

theorem isZero_eq_true_iff {f : Field} {v : Scalar} :
    f.isZero v = true ↔ v = .flag false ∨ (f.clearable = true ∧ v = .text "") := by
  simp [isZero]

/-- A text as the value of a field for texts. -/
def textValue (name s : String) : (text name).kind.Value := ⟨.text s, FieldKind.admits_text s⟩

theorem admits_of_clearable {f : Field} (h : f.clearable = true) (s : String) :
    f.kind.admits (.text s) = true := by
  rw [f.text_of_clearable h]
  rfl

end Field

/-- **The shape of a record**: the name of its type and its fields. -/
structure Shape where
  label : String
  fields : List Field

namespace Shape

def find? (s : Shape) (name : String) : Option Field := s.fields.find? (·.name == name)

/-- A field of the shape: it is what the shape has under its name. -/
abbrev Member (s : Shape) : Type := { f : Field // s.find? f.name = some f }

theorem name_of_find? {s : Shape} {name : String} {f : Field} (h : s.find? name = some f) :
    f.name = name := by
  simpa using List.find?_some h

theorem mem_of_find? {s : Shape} {name : String} {f : Field} (h : s.find? name = some f) :
    f ∈ s.fields :=
  List.mem_of_find?_eq_some h

def member? (s : Shape) (name : String) : Option s.Member :=
  match h : s.find? name with
  | some f => some ⟨f, (name_of_find? h).symm ▸ h⟩
  | none => none

/-- Whether the shape has a field of the name for the value. -/
def admits (s : Shape) (name : String) (v : Scalar) : Bool :=
  (s.find? name).any (·.kind.admits v)

/-- **A name finds at most one field.** -/
theorem member?_eq_some_iff {s : Shape} {name : String} {f : s.Member} :
    s.member? name = some f ↔ f.val.name = name := by
  unfold member?
  constructor
  · intro h
    split at h
    · rename_i g hg
      cases h
      exact name_of_find? hg
    · cases h
  · intro h
    subst h
    split
    · rename_i g hg
      have := f.property.symm.trans hg
      exact congrArg some (Subtype.ext (Option.some.inj this).symm)
    · rename_i hg
      have := f.property.symm.trans hg
      simp at this

theorem member?_eq_none_iff {s : Shape} {name : String} :
    s.member? name = none ↔ s.find? name = none := by
  unfold member?
  split <;> simp_all

theorem member?_name {s : Shape} (f : s.Member) : s.member? f.val.name = some f :=
  member?_eq_some_iff.mpr rfl

/-- **Fields of one name are one field.** -/
theorem member_ext {s : Shape} {f g : s.Member} (h : f.val.name = g.val.name) : f = g :=
  Option.some.inj ((member?_name f).symm.trans (member?_eq_some_iff.mpr h.symm))

theorem admits_member {s : Shape} (f : s.Member) (v : f.val.kind.Value) :
    s.admits f.val.name v.val = true := by
  rw [admits, f.property]
  exact v.property

theorem exists_member_of_admits {s : Shape} {name : String} {v : Scalar}
    (h : s.admits name v = true) :
    ∃ f : s.Member, f.val.name = name ∧ f.val.kind.admits v = true := by
  rw [admits, Option.any_eq_true] at h
  obtain ⟨f, hf, hv⟩ := h
  exact ⟨⟨f, (name_of_find? hf).symm ▸ hf⟩, name_of_find? hf, hv⟩

/-! ## Types of payloads -/

/-- **Whether a type holds the records of a shape**: it has the fields of the shape and no others,
each in the kind in which its values are stored. -/
structure Stores (type shape : Shape) : Prop where
  label : type.label = shape.label
  fields : type.fields.map (fun f => (f.name, f.kind))
    = shape.fields.map fun f => (f.name, f.kind.stored)

namespace Stores

variable {type shape : Shape}

theorem map_kind_find? (h : type.Stores shape) (name : String) :
    (type.find? name).map (fun f => f.kind) = (shape.find? name).map fun f => f.kind.stored := by
  have hfind := congrArg (List.find? fun e => e.1 == name) h.fields
  rw [List.find?_map, List.find?_map] at hfind
  have hkind := congrArg (Option.map Prod.snd) hfind
  rwa [Option.map_map, Option.map_map] at hkind

theorem admits_eq (h : type.Stores shape) (name : String) (v : Scalar) :
    type.admits name v = shape.admits name v := by
  have hany := congrArg (Option.any fun k => k.admits v) (h.map_kind_find? name)
  simpa [Option.any_map, Function.comp_def, FieldKind.admits_stored, admits] using hany

end Stores

end Shape

end Registrar
