import Registrar.Json.Error
import Registrar.Schema.Domain
import Registrar.Text.Blank
import Registrar.Text.Integer

/-!
# Kinds of fields

A field holds a `Scalar`; its `FieldKind` says which ones. `FieldKind.convert` reads a cell or
token as a value of the field, `FieldKind.ofJson` a JSON value. The type `FieldKind.Value` holds
the scalars that a kind admits, so what has been read fits its field.

* `parseBoolean_congr` — truth values are read in any case.
* `convert_text`, `convert_enum_congr` — what conversion gives, by kind.
* `FieldKind.stored` — the kind in which a payload holds the values.
-/

set_option autoImplicit false

namespace Registrar

/-! ## Scalars -/

/-- **The value of a field.** -/
inductive Scalar where
  | text (value : String)
  | flag (value : Bool)
  | number (value : Int64)
deriving DecidableEq, Repr

namespace Scalar

def toJson : Scalar → Json
  | .text s => .str s
  | .flag b => .bool b
  | .number n => Json.int n.toInt

def truth : Bool → String
  | true => "true"
  | false => "false"

/-- The text of a scalar: a text as it is, any other as in JSON. -/
def asText : Scalar → String
  | .text s => s
  | .flag b => truth b
  | .number n => String.ofList (Json.intChars n.toInt)

end Scalar

/-! ## Kinds -/

/-- **How the value of a field is read.** -/
inductive FieldKind where
  | text
  /-- A truth value. -/
  | boolean
  /-- A truth value that is held as text. -/
  | booleanText
  /-- An integer of 64 bits. -/
  | integer
  | enum (domain : Domain)
deriving DecidableEq, Repr

/-- The truth value that a text spells, in any case. -/
def parseBoolean (field value : String) : Except Error Bool :=
  if Text.lowercase value = "true" then .ok true
  else if Text.lowercase value = "false" then .ok false
  else .error (.notABoolean field)

theorem parseBoolean_congr (field : String) {a b : String}
    (h : Text.lowercase a = Text.lowercase b) : parseBoolean field a = parseBoolean field b := by
  simp [parseBoolean, h]

namespace FieldKind

/-- Whether fields of the kind hold scalars like this one. -/
def admits : FieldKind → Scalar → Bool
  | .text, .text _ => true
  | .boolean, .flag _ => true
  | .booleanText, .text _ => true
  | .integer, .number _ => true
  | .enum _, .text _ => true
  | _, _ => false

theorem admits_text (s : String) : text.admits (.text s) = true := rfl

theorem admits_boolean (b : Bool) : boolean.admits (.flag b) = true := rfl

theorem admits_booleanText (s : String) : booleanText.admits (.text s) = true := rfl

theorem admits_integer (n : Int64) : integer.admits (.number n) = true := rfl

theorem admits_enum (d : Domain) (s : String) : (enum d).admits (.text s) = true := rfl

/-- **The values of a kind**: the scalars that it admits. -/
def Value (k : FieldKind) : Type := { v : Scalar // k.admits v = true }

instance (k : FieldKind) : DecidableEq k.Value :=
  inferInstanceAs (DecidableEq { v : Scalar // k.admits v = true })

/-- **Reads a cell or token** as a value of the field of the given name. -/
def convert (k : FieldKind) (field value : String) : Except Error k.Value :=
  match k with
  | .text => .ok ⟨.text value, admits_text value⟩
  | .boolean => (parseBoolean field value).map fun b => ⟨.flag b, admits_boolean b⟩
  | .booleanText =>
      (parseBoolean field value).map fun b => ⟨.text (Scalar.truth b), admits_booleanText _⟩
  | .integer =>
      match (Text.readInt? (Text.trim value.toList)).bind Text.int64? with
      | some n => .ok ⟨.number n, admits_integer n⟩
      | none => .error (.notANumber field)
  | .enum d => (d.check value).map fun v => ⟨.text v, admits_enum d v⟩

theorem convert_text (field value : String) :
    convert .text field value = .ok ⟨.text value, admits_text value⟩ := rfl

theorem convert_enum (d : Domain) (field value : String) :
    convert (.enum d) field value
      = (d.check value).map fun v => ⟨.text v, admits_enum d v⟩ := rfl

theorem convert_enum_congr {d : Domain} {field a b : String} {v : (enum d).Value}
    (h : Text.lowercase a = Text.lowercase b) (ha : convert (.enum d) field a = .ok v) :
    convert (.enum d) field b = .ok v := by
  have hg := d.get?_congr h
  rw [convert_enum, Domain.check] at ha ⊢
  rw [← hg]
  cases hd : d.get? a with
  | none => rw [hd] at ha; cases ha
  | some w => rw [hd] at ha; exact ha

/-! ## From JSON -/

def textOfJson : Json → Except Json.Mismatch String
  | .str s => .ok s
  | j => .error (.wrongType j.found "a string")

def flagOfJson : Json → Except Json.Mismatch Bool
  | .bool b => .ok b
  | j => .error (.wrongType j.found "a boolean")

def numberOfJson : Json → Except Json.Mismatch Int64
  | .num (.int n) =>
      match Text.int64? n with
      | some i => .ok i
      | none => .error (.outOfRange n "i64")
  | j => .error (.wrongType j.found "i64")

/-- **Reads a JSON value** as a value of the kind. Texts are taken as they are, those of a domain
included. -/
def ofJson (k : FieldKind) (j : Json) : Except Json.Mismatch k.Value :=
  match k with
  | .text => (textOfJson j).map fun s => ⟨.text s, admits_text s⟩
  | .boolean => (flagOfJson j).map fun b => ⟨.flag b, admits_boolean b⟩
  | .booleanText => (textOfJson j).map fun s => ⟨.text s, admits_booleanText s⟩
  | .integer => (numberOfJson j).map fun n => ⟨.number n, admits_integer n⟩
  | .enum d => (textOfJson j).map fun s => ⟨.text s, admits_enum d s⟩

theorem numberOfJson_int (n : Int64) : numberOfJson (Json.int n.toInt) = .ok n := by
  simp [numberOfJson, Json.int, Text.int64?_toInt]

/-- **A value reads back** from the JSON that it is written as. -/
theorem ofJson_toJson : ∀ (k : FieldKind) (v : k.Value), k.ofJson v.val.toJson = .ok v
  | .text, ⟨.text _, _⟩ => rfl
  | .boolean, ⟨.flag _, _⟩ => rfl
  | .booleanText, ⟨.text _, _⟩ => rfl
  | .integer, ⟨.number n, _⟩ => by
      simp only [ofJson, Scalar.toJson, numberOfJson_int]
      rfl
  | .enum _, ⟨.text _, _⟩ => rfl

/-! ## Kinds of a payload -/

/-- **The kind in which a payload holds the values of a kind.** The values of a domain are texts
there, and so are truth values that are held as text. -/
def stored : FieldKind → FieldKind
  | .enum _ | .booleanText => .text
  | k => k

theorem admits_stored (k : FieldKind) (v : Scalar) : k.stored.admits v = k.admits v := by
  cases k <;> cases v <;> rfl

end FieldKind

end Registrar
