import Registrar.Schema.Composite

/-!
# Scalar attributes of users

A `Slot` is an attribute of a user that is one scalar. Two of them, the family name and the given
name, are parts of the name of the user; the others stand in the record of the user itself.
That record also says how the password was hashed, which no input can set by name.

* `Slot.find?_home` — a slot is a field of the record that it stands in.
-/

set_option autoImplicit false

namespace Registrar

/-- The scalar fields in the record of a user. -/
def Shape.ofUser : Shape where
  label := "User"
  fields :=
    [ .boolean "archived", .boolean "changePasswordAtNextLogin", .text "hashFunction",
      .boolean "includeInGlobalAddressList", .boolean "ipWhitelisted",
      .clearableText "orgUnitPath", .text "password", .text "primaryEmail",
      .clearableText "recoveryEmail", .clearableText "recoveryPhone", .boolean "suspended" ]

/-- **The scalar attributes of a user.** -/
inductive Slot where
  | archived
  | changePasswordAtNextLogin
  | familyName
  | givenName
  | includeInGlobalAddressList
  | ipWhitelisted
  | orgUnitPath
  | password
  | primaryEmail
  | recoveryEmail
  | recoveryPhone
  | suspended
deriving DecidableEq, Repr

namespace Slot

def all : List Slot :=
  [ .archived, .changePasswordAtNextLogin, .familyName, .givenName, .includeInGlobalAddressList,
    .ipWhitelisted, .orgUnitPath, .password, .primaryEmail, .recoveryEmail, .recoveryPhone,
    .suspended ]

theorem mem_all (s : Slot) : s ∈ all := by
  cases s <;> decide

def field : Slot → Field
  | .archived => .boolean "archived"
  | .changePasswordAtNextLogin => .boolean "changePasswordAtNextLogin"
  | .familyName => .text "familyName"
  | .givenName => .text "givenName"
  | .includeInGlobalAddressList => .boolean "includeInGlobalAddressList"
  | .ipWhitelisted => .boolean "ipWhitelisted"
  | .orgUnitPath => .clearableText "orgUnitPath"
  | .password => .text "password"
  | .primaryEmail => .text "primaryEmail"
  | .recoveryEmail => .clearableText "recoveryEmail"
  | .recoveryPhone => .clearableText "recoveryPhone"
  | .suspended => .boolean "suspended"

def inName : Slot → Bool
  | .familyName | .givenName => true
  | _ => false

/-- Whether an attribute is a text that is kept as it is given. -/
def isPlainText (s : Slot) : Bool := s.field.kind == .text && s != .password

theorem kind_of_isPlainText {s : Slot} (h : s.isPlainText = true) : s.field.kind = .text := by
  simp only [isPlainText, Bool.and_eq_true, beq_iff_eq] at h
  exact h.1

def ofName? (name : String) : Option Slot := all.find? (·.field.name == name)

theorem ofName?_name (s : Slot) : ofName? s.field.name = some s := by
  cases s <;> decide

theorem name_of_ofName? {name : String} {s : Slot} (h : ofName? name = some s) :
    s.field.name = name := by
  simpa using List.find?_some h

/-- The shape of the record that an attribute stands in. -/
def home (s : Slot) : Shape := if s.inName then Composite.name.shape else .ofUser

/-- **An attribute is a field of the record that it stands in.** -/
theorem find?_home (s : Slot) : s.home.find? s.field.name = some s.field := by
  cases s <;> decide +kernel

def nameMember (s : Slot) (h : s.inName = true) : Composite.name.shape.Member :=
  ⟨s.field, by simpa [home, h] using s.find?_home⟩

def userMember (s : Slot) (h : s.inName = false) : Shape.ofUser.Member :=
  ⟨s.field, by simpa [home, h] using s.find?_home⟩

end Slot

end Registrar
