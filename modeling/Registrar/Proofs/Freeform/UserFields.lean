import Registrar.Freeform.Decoding
import Registrar.Proofs.Tables

/-!
# The fields that scalar attributes are written to

A scalar attribute is written to a field of the type of users or of the type of their name. Where it
is found by its name, truth values and texts are looked for apart:

```
suspended     a truth value   UserField.flag?   the field suspended of the type of users
givenName     a text          UserField.text?   the field given_name of the type of names
password      neither
```

* `UserField.isSome_flag?`, `UserField.isSome_text?` — the attributes that are found.
* `User.write_eq` — what is written to the field of an attribute is its value.
-/

set_option autoImplicit false

namespace Registrar

/-! ## Fields -/

/-- **A scalar field of the type of users**, or of the type of their name. -/
inductive UserField where
  | ofUser (f : Shape.userPayload.Member)
  | ofName (f : Composite.name.payload.Member)

namespace UserField

def field : UserField → Field
  | ofUser f => f.val
  | ofName f => f.val

/-- The fields of a kind. -/
abbrev OfKind (kind : FieldKind) : Type := { p : UserField // p.field.kind = kind }

/-- The field of the type of users with a name in words. -/
def inUser (words : String) (kind : FieldKind)
    (h : Shape.userPayload.find? (Text.camelCase words) = some (.ofWords words kind) := by rfl) :
    OfKind kind :=
  ⟨.ofUser ⟨.ofWords words kind, h⟩, rfl⟩

/-- The field of the type of names with a name in words. -/
def inName (words : String) (kind : FieldKind)
    (h : Composite.name.payload.find? (Text.camelCase words) = some (.ofWords words kind)
      := by rfl) :
    OfKind kind :=
  ⟨.ofName ⟨.ofWords words kind, h⟩, rfl⟩

/-- **The truth value of a canonical name.** -/
def flag? : String → Option (OfKind .boolean)
  | "archived" => some (inUser "archived" .boolean)
  | "changePasswordAtNextLogin" => some (inUser "change_password_at_next_login" .boolean)
  | "includeInGlobalAddressList" => some (inUser "include_in_global_address_list" .boolean)
  | "ipWhitelisted" => some (inUser "ip_whitelisted" .boolean)
  | "suspended" => some (inUser "suspended" .boolean)
  | _ => none

/-- **The text of a canonical name.** -/
def text? : String → Option (OfKind .text)
  | "familyName" => some (inName "family_name" .text)
  | "givenName" => some (inName "given_name" .text)
  | "orgUnitPath" => some (inUser "org_unit_path" .text)
  | "primaryEmail" => some (inUser "primary_email" .text)
  | "recoveryEmail" => some (inUser "recovery_email" .text)
  | "recoveryPhone" => some (inUser "recovery_phone" .text)
  | _ => none

/-- **A truth value is found by its name.** -/
theorem isSome_flag? (s : Slot) : (flag? s.field.name).isSome = (s.field.kind == .boolean) := by
  cases s <;> rfl

/-- **A text is found by its name.** -/
theorem isSome_text? (s : Slot) : (text? s.field.name).isSome = s.isPlainText := by
  cases s <;> rfl

theorem name_of_flag? {name : String} {p : OfKind .boolean} (h : flag? name = some p) :
    p.val.field.name = name := by
  unfold flag? at h
  split at h <;> cases h <;> rfl

theorem exists_slot_of_text? {name : String} {p : OfKind .text}
    (h : text? name = some p) :
    ∃ s : Slot, s.field.name = name ∧ s.isPlainText = true ∧ p.val.field.name = name := by
  unfold text? at h
  split at h <;> cases h
  · exact ⟨.familyName, rfl, rfl, rfl⟩
  · exact ⟨.givenName, rfl, rfl, rfl⟩
  · exact ⟨.orgUnitPath, rfl, rfl, rfl⟩
  · exact ⟨.primaryEmail, rfl, rfl, rfl⟩
  · exact ⟨.recoveryEmail, rfl, rfl, rfl⟩
  · exact ⟨.recoveryPhone, rfl, rfl, rfl⟩

/-- **A truth value has a field** of its name. -/
theorem exists_flag? {s : Slot} (h : s.field.kind = .boolean) :
    ∃ p, flag? s.field.name = some p ∧ p.val.field.name = s.field.name := by
  have hfound : (flag? s.field.name).isSome = true := by
    rw [isSome_flag?, h]
    rfl
  obtain ⟨p, hp⟩ := Option.isSome_iff_exists.mp hfound
  exact ⟨p, hp, name_of_flag? hp⟩

/-- **A text has a field** of its name. -/
theorem exists_text? {s : Slot} (h : s.isPlainText = true) :
    ∃ p, text? s.field.name = some p ∧ p.val.field.name = s.field.name := by
  have hfound : (text? s.field.name).isSome = true := by rw [isSome_text?, h]
  obtain ⟨p, hp⟩ := Option.isSome_iff_exists.mp hfound
  obtain ⟨-, -, -, hname⟩ := exists_slot_of_text? hp
  exact ⟨p, hp, hname⟩

theorem isSome_find? (s : Slot) :
    (Shape.userPayload.find? s.field.name).isSome = !s.inName ∧
      (Composite.name.payload.find? s.field.name).isSome = s.inName := by
  cases s <;> exact ⟨rfl, rfl⟩

end UserField

/-! ## Writing -/

theorem Slot.inName_eq_false_of_not {s : Slot} (h : ¬s.inName = true) : s.inName = false :=
  Bool.eq_false_iff.mpr h

theorem Record.restored_set {shape type : Shape} (h : type.Stores shape) (r : Record shape)
    {f : type.Member} {g : shape.Member} {v : f.val.kind.Value} {w : g.val.kind.Value}
    (hname : f.val.name = g.val.name) (hval : v.val = w.val) :
    ((r.stored h).set f v).restored h = r.set g w := by
  refine ext (fun n => ?_) fun n => rfl
  show (r.values.insert f.val.name v.val).get? n = (r.values.insert g.val.name w.val).get? n
  rw [hname, hval]

namespace User

variable {u : User}

/-- **The user with a value written to a field.** -/
def write (u : User) : (p : UserField) → p.field.kind.Value → User
  | .ofUser f, v =>
      { u with
        scalars := ((u.scalars.stored Shape.userPayload_stores).set f v).restored
          Shape.userPayload_stores }
  | .ofName f, v =>
      u.setName (((u.name.stored Composite.name.stores).set f v).restored Composite.name.stores)

theorem write_ofUser {f : Shape.userPayload.Member} {g : Shape.ofUser.Member}
    {v : f.val.kind.Value} {w : g.val.kind.Value} (hname : f.val.name = g.val.name)
    (hval : v.val = w.val) : u.write (.ofUser f) v = { u with scalars := u.scalars.set g w } :=
  congrArg (fun r => ({ u with scalars := r } : User))
    (u.scalars.restored_set Shape.userPayload_stores hname hval)

/-- The user with a value for a scalar attribute, without a word about sending it. -/
def set (u : User) (s : Slot) (v : s.field.kind.Value) : User :=
  if h : s.inName = true then u.setName (u.name.set (s.nameMember h) v)
  else { u with scalars := u.scalars.set (s.userMember (Slot.inName_eq_false_of_not h)) v }

/-- **What is written to the field of an attribute is its value.** -/
theorem write_eq {p : UserField} {s : Slot} {v : p.field.kind.Value} {w : s.field.kind.Value}
    (hname : p.field.name = s.field.name) (hval : v.val = w.val) : u.write p v = u.set s w := by
  obtain ⟨huser, hofName⟩ := UserField.isSome_find? s
  -- the field stands in the type that has the name
  cases p with
  | ofUser f =>
      have hin : s.inName = false := by
        rw [← hname, show UserField.field (.ofUser f) = f.val from rfl, f.property] at huser
        simpa using huser.symm
      rw [set, dif_neg (Bool.eq_false_iff.mp hin)]
      exact write_ofUser (g := s.userMember hin) hname hval
  | ofName f =>
      have hin : s.inName = true := by
        rw [← hname, show UserField.field (.ofName f) = f.val from rfl, f.property] at hofName
        exact hofName.symm
      rw [set, dif_pos hin, write]
      exact congrArg u.setName
        (u.name.restored_set Composite.name.stores (g := s.nameMember hin) hname hval)

end User

end Registrar
