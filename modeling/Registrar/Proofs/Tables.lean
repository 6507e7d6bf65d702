import Registrar.Freeform.Decoding
import Registrar.Proofs.Values
import Registrar.Schema.ObjectTables

/-!
# What the tables of the schema promise

Reading back what has been written relies on a few facts about the tables: names are told apart
by the lookups that they go through, and they hold none of the characters that structure an
attribute string.

* `Composite.subField?_name` — the field of an occurrence is found under its own name.
* `Slot.names_table` — the name of a scalar attribute stands for it and for no composite one.
* `Shape.exists_slot_of_ofUser` — what stands in the record of a user is a scalar attribute or
  secret.
* `Slot.contains_clearable`, `Composite.contains_clearable`, `FlatType.contains_clearable` — what an
  empty cell clears.
* `ObjectType.userColumns_table`, `FlatType.columns_table`, `FlatType.find?_key` — what a column is
  about.
-/

set_option autoImplicit false

namespace Registrar

/-! ## Composite attributes -/

namespace Composite

/-- No two fields of an occurrence have names that differ in case only; their names hold no
reserved character, no empty value clears them, and their domains are listed. -/
theorem fields_table : ∀ c ∈ all,
    (c.shape.fields.map fun f => Text.lowerChars f.name).Nodup ∧
      ∀ f ∈ c.shape.fields, Text.isPlain f.name.toList = true ∧ f.clearable = false ∧
        f.kind.isListed = true := by
  decide

variable (c : Composite)

theorem mem_fields (f : c.shape.Member) : f.val ∈ c.shape.fields := Shape.mem_of_find? f.property

/-- **The field of an occurrence is found under its own name.** -/
theorem subField?_name (f : c.shape.Member) : c.subField? f.val.name = some f := by
  have hf := Text.find?_sameName Field.name (fields_table c c.mem_all).1 (c.mem_fields f)
  rw [subField?, hf]
  exact Shape.member?_name f

theorem isPlain_name (f : c.shape.Member) : Text.isPlain f.val.name.toList = true :=
  ((fields_table c c.mem_all).2 f.val (c.mem_fields f)).1

theorem clearable_eq_false (f : c.shape.Member) : f.val.clearable = false :=
  ((fields_table c c.mem_all).2 f.val (c.mem_fields f)).2.1

theorem isListed_kind (f : c.shape.Member) : f.val.kind.isListed = true :=
  ((fields_table c c.mem_all).2 f.val (c.mem_fields f)).2.2

/-- No field of an occurrence holds truth values as text. -/
theorem kind_table : ∀ c ∈ all, ∀ f ∈ c.shape.fields, f.kind ≠ .booleanText := by
  decide

theorem isZero_iff (f : c.shape.Member) (v : Scalar) : f.val.isZero v = true ↔ v = .flag false := by
  simp [Field.isZero_eq_true_iff, c.clearable_eq_false f]

/-- The name that introduces a composite attribute ends nowhere early. -/
theorem key_table : ∀ c ∈ all, c.key.toList.any Group.endsName = false := by
  decide

end Composite

/-! ## Scalar attributes -/

/-- The name of a scalar attribute stands for it, introduces no composite attribute, and ends
nowhere early. -/
theorem Slot.names_table : ∀ s ∈ Slot.all,
    Vocabulary.ofUser.get? s.field.name = some s.field.name ∧
      Composite.ofKey? s.field.name = none ∧ s.field.name.toList.any Group.endsName = false := by
  decide

theorem Slot.inName_eq_false {s : Slot} (h : s.field.kind = .boolean ∨ s.field.clearable = true) :
    s.inName = false := by
  revert h
  cases s <;> decide

/-- **What stands in the record of a user is a scalar attribute or secret.** -/
theorem Shape.exists_slot_of_ofUser : ∀ f ∈ Shape.ofUser.fields, User.isSecret f.name = false →
    ∃ s ∈ Slot.all, s.field = f ∧ s.inName = false ∧ s ≠ .password := by
  decide

theorem Shape.exists_slot_of_admits {name : String} {v : Scalar}
    (h : Shape.ofUser.admits name v = true) (hs : User.isSecret name = false) :
    ∃ s : Slot, s.field.name = name ∧ s.inName = false ∧ s ≠ .password ∧
      s.field.kind.admits v = true := by
  obtain ⟨f, rfl, hv⟩ := Shape.exists_member_of_admits h
  obtain ⟨s, -, hf, hn, hp⟩ := exists_slot_of_ofUser f.val (Shape.mem_of_find? f.property) hs
  exact ⟨s, congrArg Field.name hf, hn, hp, hf ▸ hv⟩

/-! ## Columns -/

theorem Slot.contains_clearable (s : Slot) :
    ObjectType.user.clearable.contains s.field.name = s.field.clearable := by
  cases s <;> decide

theorem Composite.contains_clearable (c : Composite) :
    ObjectType.user.clearable.contains c.field = false := by
  cases c <;> decide

theorem Slot.ofField?_name (s : Slot) : Composite.ofField? s.field.name = none := by
  cases s <;> decide

/-- **Each column of a user is the key, a composite attribute or a scalar one.** -/
theorem ObjectType.userColumns_table : ∀ e ∈ ObjectType.user.columns.entries,
    e.2 = ObjectType.user.key ∨ (Composite.ofField? e.2).isSome = true ∨
      (Slot.ofName? e.2).isSome = true := by
  decide

/-! ## Flat objects -/

namespace FlatType

theorem contains_clearable (type : FlatType) : ∀ f ∈ type.shape.fields,
    (ObjectType.flat type).clearable.contains f.name = f.clearable := by
  cases type <;> decide

/-- **Each column of a flat object is the key or a field.** -/
theorem columns_table (type : FlatType) : ∀ e ∈ (ObjectType.flat type).columns.entries,
    e.2 = (ObjectType.flat type).key ∨ (type.shape.find? e.2).isSome = true := by
  cases type <;> decide

/-- **The key of a flat object is no field.** -/
theorem find?_key (type : FlatType) :
    type.shape.find? (ObjectType.flat type).key = none := by
  cases type <;> decide

/-- The fields of a flat object hold no numbers, and their domains are listed. -/
theorem kinds_table (type : FlatType) :
    ∀ f ∈ type.shape.fields, f.kind.isListed = true ∧ f.kind ≠ .integer := by
  cases type <;> decide

end FlatType

end Registrar
