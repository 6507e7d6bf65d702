import Registrar.Freeform.Group
import Registrar.Freeform.Occurrence
import Registrar.Hasher
import Registrar.User

/-!
# Decoding attribute strings

`User.decode` applies the groups of an attribute string to a user, all of them or, if one is in
error, none. The operations that it is made of stand on their own: `User.setScalar` gives a scalar
attribute a value, `User.clearScalar` empties one, and `User.applyBody` adds the occurrences of a
composite attribute up to the first that is in error.

* `User.applyOccurrences_append` — occurrences are added one after the other.
* `User.decodeGroups_append` — groups are applied one after the other.
-/

set_option autoImplicit false

namespace Registrar.User

/-! ## Scalars -/

def isPhone (value : String) : Bool := value.isEmpty || value.toList.head? == some '+'

/-- Gives a scalar attribute the value that a text stands for. -/
def assign (u : User) (hasher : Hasher) (s : Slot) (value : String) : Except Error User :=
  if s = .password then .ok (u.setPassword hasher.name (hasher.hash value))
  else if s = .recoveryPhone ∧ isPhone value = false then .error .phoneWithoutPlus
  else (s.field.kind.convert s.field.name value).map (u.put s)

/-- **Gives the scalar attribute of a name** the value that a text stands for. -/
def setScalar (u : User) (hasher : Hasher) (name value : String) : Except Error User :=
  match (Vocabulary.ofUser.get? name).bind Slot.ofName? with
  | none => .error (.unknownAttribute name)
  | some s => u.assign hasher s value

/-- A text as the value of an attribute that keeps texts as they are given. -/
def plainValue (s : Slot) (h : s.isPlainText = true) (value : String) : s.field.kind.Value :=
  ⟨.text value, by rw [Slot.kind_of_isPlainText h]; exact FieldKind.admits_text value⟩

/-- **Empties the text attribute of a canonical name**, which is forced to be sent. -/
def clearScalar (u : User) (name : String) : Except Error User :=
  match Slot.ofName? name with
  | none => .error (.unknownAttribute name)
  | some s =>
      if h : s.isPlainText = true then .ok ((u.put s (plainValue s h "")).force name)
      else .error (.unknownAttribute name)

/-! ## Composite attributes -/

/-- Adds occurrences one after the other up to the first that is in error. -/
def applyOccurrences (u : User) (c : Composite) :
    List (List Char) → Except Error Unit × User
  | [] => (.ok (), u)
  | o :: rest =>
      match Occurrence.read c o with
      | .error e => (.error e, u)
      | .ok r => (u.add c r).applyOccurrences c rest

/-- **Adds the occurrences of a body** to a composite attribute, up to the first that is in
error. -/
def applyBody (u : User) (c : Composite) (body : List Char) : Except Error Unit × User :=
  match Occurrence.split body with
  | none => (.error .malformedString, u)
  | some os => u.applyOccurrences c os

/-! ## Groups -/

/-- The user after a step that may have failed. -/
def settled (outcome : Except Error Unit × User) : Except Error User :=
  outcome.1.map fun _ => outcome.2

/-- Applies a group. A composite attribute cannot be given a scalar value. -/
def decodeGroup (u : User) (hasher : Hasher) : Group → Except Error User
  | .composite c _ body => settled (u.applyBody c body)
  | .scalar name value =>
      match Composite.ofKey? (String.ofList name) with
      | some _ => .error .missingValue
      | none => u.setScalar hasher (String.ofList name) (String.ofList value)

/-- Applies groups one after the other. -/
def decodeGroups (u : User) (hasher : Hasher) : List Group → Except Error User
  | [] => .ok u
  | g :: rest =>
      match u.decodeGroup hasher g with
      | .error e => .error e
      | .ok u => u.decodeGroups hasher rest

/-- **Applies the groups of an attribute string.** -/
def decode (u : User) (hasher : Hasher) (input : String) : Except Error User :=
  if (Text.trim input.toList).isEmpty then .error .malformedString
  else
    match Group.split input.toList with
    | .error e => .error e
    | .ok groups => u.decodeGroups hasher groups

/-! ## Laws -/

theorem applyOccurrences_append {u v : User} {c : Composite} {front : List (List Char)}
    (h : u.applyOccurrences c front = (.ok (), v)) (rest : List (List Char)) :
    u.applyOccurrences c (front ++ rest) = v.applyOccurrences c rest := by
  induction front generalizing u with
  | nil => cases h; rfl
  | cons o front ih =>
      simp only [applyOccurrences, List.cons_append] at h ⊢
      cases hr : Occurrence.read c o with
      | error e => rw [hr] at h; cases h
      | ok r => rw [hr] at h; exact ih h

theorem decodeGroups_append {u v : User} {hasher : Hasher} {front : List Group}
    (h : u.decodeGroups hasher front = .ok v) (rest : List Group) :
    u.decodeGroups hasher (front ++ rest) = v.decodeGroups hasher rest := by
  induction front generalizing u with
  | nil => cases h; rfl
  | cons g front ih =>
      simp only [decodeGroups, List.cons_append] at h ⊢
      cases hg : u.decodeGroup hasher g with
      | error e => rw [hg] at h; cases h
      | ok w => rw [hg] at h; exact ih h

end Registrar.User
