import Registrar.Csv
import Registrar.Json.Error
import Registrar.ObjectType
import Registrar.Text.Span

/-!
# Errors

An `Error` is a cause; `Error.message` is its wording. A message about malformed text has a
headline and may add a detail behind a colon.

Main definitions: `Message.text`, `Error`, `Error.message`, `Error.span?`.
-/

set_option autoImplicit false

namespace Registrar

/-! ## Messages -/

/-- A message: a headline and, behind a colon, a detail. -/
structure Message where
  headline : String
  detail : Option String := none
deriving DecidableEq, Repr

namespace Message

def text (m : Message) : String :=
  match m.detail with
  | some d => m.headline ++ ": " ++ d
  | none => m.headline

def withDetail (m : Message) (detail : String) : Message := { m with detail := some detail }

def malformedProjection : Message := ⟨"malformed projection", none⟩

def malformedQuery : Message := ⟨"malformed query", none⟩

def malformedString : Message := ⟨"malformed attribute string", none⟩

def missingValue : Message :=
  malformedString.withDetail "attribute name is not followed by a value"

def phoneWithoutPlus : Message := ⟨"recovery phone number must start with '+'", none⟩

def malformedHeader : Message := ⟨"malformed header row", none⟩

def emptyHeader : Message := malformedHeader.withDetail "no columns"

def malformedRow : Message := ⟨"malformed row", some "expected a JSON object"⟩

def badDelimited : Message := ⟨"error reading delimited input", none⟩

def badJson : Message := ⟨"error reading JSON input", none⟩

end Message

/-! ## Causes -/

/-- The languages that are read token by token. -/
inductive Language where
  | projection
  | query
deriving DecidableEq, Repr

/-- The message for malformed text of a language. -/
def Language.malformed : Language → Message
  | .projection => .malformedProjection
  | .query => .malformedQuery

/-- **What can be wrong with the input.** -/
inductive Error where
  /-- A token that the language has no place for. -/
  | unexpected (language : Language) (literal : String) (span : Text.Span)
  /-- Braces or tokens of an attribute string that do not match up. -/
  | malformedString
  /-- A name without a value, or a composite used as a scalar, in an attribute string. -/
  | missingValue
  /-- A header without columns. -/
  | emptyHeader
  /-- A header cell that is blank; columns count from one. -/
  | unnamedColumn (column : Nat)
  /-- A line of input that is JSON but no object. -/
  | notAnObject
  /-- A name that the object has no attribute for. -/
  | unknownAttribute (name : String)
  /-- A value outside its domain. -/
  | unknownValue (value kind : String)
  | notANumber (field : String)
  | notABoolean (field : String)
  | phoneWithoutPlus
  /-- A value that an attribute string cannot carry. -/
  | unwritable (value field : String)
  /-- A header for rows of another type of object. -/
  | headerMismatch (header rows : ObjectType)
  /-- An attribute that a row has to give. -/
  | missingAttribute (name : String)
  | csv (cause : Csv.BadText)
  | json (cause : Json.Error)
  /-- A line of input that is no UTF-8. -/
  | notUtf8
deriving DecidableEq, Repr

namespace Error

/-- **The wording of an error.** -/
def message : Error → String
  | .unexpected language literal _ =>
      (language.malformed.withDetail ("unexpected character " ++ literal)).text
  | .malformedString => Message.malformedString.text
  | .missingValue => Message.missingValue.text
  | .emptyHeader => Message.emptyHeader.text
  | .unnamedColumn n =>
      (Message.malformedHeader.withDetail
        (String.join ["column ", toString n, " has no name"])).text
  | .notAnObject => Message.malformedRow.text
  | .unknownAttribute name => name ++ " attribute is not recognized"
  | .unknownValue value kind => String.join [value, " is not a valid ", kind]
  | .notANumber field => field ++ " must be a number"
  | .notABoolean field => field ++ " must be true or false"
  | .phoneWithoutPlus => Message.phoneWithoutPlus.text
  | .unwritable value field =>
      String.join
        [Text.quoted value, " in ", field, " cannot be written as a freeform string"]
  | .headerMismatch header rows =>
      String.join ["header was validated for ", header.name, " rows, not ", rows.name]
  | .missingAttribute name => name ++ " attribute must be provided"
  | .csv cause => (Message.badDelimited.withDetail cause.message).text
  | .json cause => (Message.badJson.withDetail cause.message).text
  | .notUtf8 => "stream did not contain valid UTF-8"

/-- The place in the text that an error is about. -/
def span? : Error → Option Text.Span
  | .unexpected _ _ span => some span
  | _ => none

theorem message_unexpected (language : Language) (literal : String) (span : Text.Span) :
    (Error.unexpected language literal span).message
      = language.malformed.headline ++ ": " ++ ("unexpected character " ++ literal) := rfl

end Error

end Registrar
