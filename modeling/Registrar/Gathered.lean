import Registrar.Error
import Registrar.Record

/-!
# Fields gathered as JSON

What input gives an object is gathered as JSON by name first. In the end the JSON object is read as
a record, which asks for values of the types of its fields and passes over names that it does not
have.

```
blockInheritance  "FALSE"     {"blockInheritance":false,"name":"Sales"}     a record of both values,
name              "Sales"     forced: blockInheritance                      the first one forced
```
-/

set_option autoImplicit false

namespace Registrar

/-- **Fields gathered by name**: their JSON, and the names that are forced to be sent. -/
structure Gathered where
  fields : NameMap Json := .empty
  forced : List String := []

namespace Gathered

/-- Gathers a value. The truth value false is forced to be sent. -/
def put (g : Gathered) (name : String) (j : Json) : Gathered where
  fields := g.fields.insert name j
  forced :=
    match j with
    | .bool false => name :: g.forced
    | _ => g.forced

/-- Gathers the empty text, which is forced to be sent. -/
def clear (g : Gathered) (name : String) : Gathered where
  fields := g.fields.insert name (.str "")
  forced := name :: g.forced

/-- **Makes a record of gathered fields.** Their JSON has to be of the types of its fields. -/
def toRecord (shape : Shape) (g : Gathered) : Except Error (Record shape) :=
  match Record.ofJson (.obj g.fields.entries) with
  | .error e => .error (.json (.type e))
  | .ok r => .ok (g.forced.foldl Record.force r)

end Gathered

end Registrar
