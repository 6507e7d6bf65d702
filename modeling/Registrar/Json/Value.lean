import Registrar.Decimal.Binary64
import Registrar.NameMap

/-!
# JSON values

The values of JSON text. A number is an integer, if it was written as one and fits 64 bits, or
else a binary floating-point number with its sign. The entries of an object stand in
increasing order of their names.

* `Json.object` — an object from fields in any order, absent ones left out.
-/

set_option autoImplicit false

namespace Registrar

namespace Json

/-- A JSON number. -/
inductive Number where
  | int (value : Int)
  | float (negative : Bool) (magnitude : Decimal.Binary64)
deriving DecidableEq, Repr

end Json

/-- **A JSON value.** -/
inductive Json where
  | null
  | bool (value : Bool)
  | num (value : Json.Number)
  | str (value : String)
  | arr (items : List Json)
  | obj (entries : List (String × Json))
deriving BEq, Repr

namespace Json

def int (n : Int) : Json := .num (.int n)

def nat (n : Nat) : Json := .int n

def get? (j : Json) (name : String) : Option Json :=
  match j with
  | .obj entries => findValue? name entries
  | _ => none

def isNull : Json → Bool
  | .null => true
  | _ => false

def str? : Json → Option String
  | .str s => some s
  | _ => none

def getStr? (j : Json) (name : String) : Option String := (j.get? name).bind str?

/-- A string or, for want of one, null. -/
def ofOption (s : Option String) : Json := (s.map Json.str).getD .null

/-- The fields that are present, in increasing order of their names. -/
def present (fields : List (String × Option Json)) : NameMap Json :=
  fields.foldl (fun m f => match f.2 with | some v => m.insert f.1 v | none => m) .empty

/-- **An object of the fields that are present.** -/
def object (fields : List (String × Option Json)) : Json := .obj (present fields).entries

/-- An object of the given fields. -/
def record (fields : List (String × Json)) : Json :=
  object (fields.map fun f => (f.1, some f.2))

end Json

end Registrar
