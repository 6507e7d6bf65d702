import Registrar.Json.Printer
import Registrar.Json.Reader
import Registrar.Text.Quoted

/-!
# What can be wrong with JSON input

A text may not be JSON (`Failure`), or its value may not be of the type that is wanted
(`Mismatch`). A row of input is one line, so a column is all that a place needs.
-/

set_option autoImplicit false

namespace Registrar.Json

def Failure.message (f : Failure) : String :=
  String.join [f.problem.message, " at line 1 column ", toString f.column]

/-- What was found where a value of another type was wanted. -/
inductive Found where
  | null
  | bool (value : Bool)
  | num (value : Number)
  | str (value : String)
  | arr
  | obj
deriving DecidableEq, Repr

/-- The kind of a value, and the value itself if it is a scalar. -/
def found : Json → Found
  | .null => .null
  | .bool b => .bool b
  | .num n => .num n
  | .str s => .str s
  | .arr _ => .arr
  | .obj _ => .obj

/-- How a message shows what was found. -/
def Found.message : Found → String
  | .null => "null"
  | .bool b => String.join ["boolean `", toString b, "`"]
  | .num (.int n) => String.join ["integer `", String.ofList (intChars n), "`"]
  | .num (.float negative x) =>
      String.join ["floating point `", String.ofList (Number.float negative x).chars, "`"]
  | .str s => "string " ++ Text.quoted s
  | .arr => "sequence"
  | .obj => "map"

/-- A value of another type than the wanted one, or out of its range. -/
inductive Mismatch where
  | wrongType (found : Found) (wanted : String)
  | outOfRange (value : Int) (wanted : String)
deriving DecidableEq, Repr

/-- The wording of a mismatch. -/
def Mismatch.message : Mismatch → String
  | .wrongType found wanted =>
      String.join ["invalid type: ", found.message, ", expected ", wanted]
  | .outOfRange n wanted =>
      String.join
        ["invalid value: integer `", String.ofList (intChars n), "`, expected ", wanted]

/-- Anything that can be wrong with JSON input. -/
inductive Error where
  | text (failure : Failure)
  | type (mismatch : Mismatch)
deriving DecidableEq, Repr

def Error.message : Error → String
  | .text f => f.message
  | .type m => m.message

end Registrar.Json
