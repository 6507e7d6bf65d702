import Registrar.Error
import Registrar.Freeform.Occurrence
import Registrar.User

/-!
# Encoding attribute strings

`User.encode` writes a user as an attribute string: scalars first, then the composite attributes
with every occurrence in braces, all in the order of their names. The password and the way it was
hashed are never written. A value that could not be read back is an error.

* `User.encodeScalar_of_noColon`, `User.encodeScalar_of_colon` — the two forms of a scalar.
-/

set_option autoImplicit false

namespace Registrar.User

/-- Whether a closing brace stands before a colon somewhere in a text. -/
def closesEarly : List Char → Bool
  | [] => false
  | c :: cs => (c == '\x7d' && cs.head? == some ':') || closesEarly cs

/-- The group of a scalar: plain if it holds no colon, in braces otherwise. -/
def encodeScalar (name value : String) : Except Error (List Char) :=
  let cs := value.toList
  if ':' ∉ cs then .ok (name.toList ++ ':' :: cs)
  else if closesEarly cs then .error (.unwritable value name)
  else .ok (name.toList ++ '~' :: '\x7b' :: (cs ++ ['\x7d']))

/-- Whether a character cannot stand in an occurrence. -/
def isReserved (c : Char) : Bool := c == '~' || Occurrence.isBrace c

/-- The name and the value of a field of an occurrence. -/
def encodeField (name : String) (value : Scalar) : Except Error (List (List Char)) :=
  let text := value.asText
  if text.toList.any isReserved then .error (.unwritable text name)
  else .ok [name.toList, text.toList]

/-- The occurrence of a record, in braces; nothing if no field has a value. -/
def encodeOccurrence {shape : Shape} (r : Record shape) : Except Error (List Char) :=
  (r.values.entries.mapM fun e => encodeField e.1 e.2).map fun tokens =>
    if tokens.isEmpty then [] else '\x7b' :: (['~'].intercalate tokens.flatten ++ ['\x7d'])

/-- The group of a composite attribute, if there is something to write. -/
def encodeComposite (u : User) (c : Composite) : Except Error (List (List Char)) :=
  ((u.records c).mapM encodeOccurrence).map fun occurrences =>
    let body := occurrences.flatten
    if body.isEmpty then [] else [c.key.toList ++ '~' :: body]

/-- The fields of a user that are never written. -/
def isSecret (name : String) : Bool := name == "password" || name == "hashFunction"

/-- The scalars that are written, in the order of their names. -/
def writtenScalars (u : User) : List (String × Scalar) :=
  u.scalars.values.entries.filter fun e => !isSecret e.1

/-- **Writes a user as an attribute string.** -/
def encode (u : User) : Except Error String := do
  let scalars ← u.writtenScalars.mapM fun e => encodeScalar e.1 e.2.asText
  let composites ← Composite.all.mapM u.encodeComposite
  pure (String.ofList ([':'].intercalate (scalars ++ composites.flatten)))

/-! ## Laws -/

theorem encodeScalar_of_noColon {name value : String} (h : ':' ∉ value.toList) :
    encodeScalar name value = .ok (name.toList ++ ':' :: value.toList) := by
  simp [encodeScalar, h]

theorem encodeScalar_of_colon {name value : String} (h : ':' ∈ value.toList) :
    encodeScalar name value =
      if closesEarly value.toList then .error (.unwritable value name)
      else .ok (name.toList ++ '~' :: '\x7b' :: (value.toList ++ ['\x7d'])) := by
  simp [encodeScalar, h]

end Registrar.User
