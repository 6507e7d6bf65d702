import Registrar.User

/-!
# Payloads

The `Payload` of a request is the record of one object, of any type.

* `Payload.ofJson_toJson_flat` — a flat payload reads back from its JSON, forced names apart.
-/

set_option autoImplicit false

namespace Registrar

/-- **The record of an object.** -/
inductive Payload where
  | flat (type : FlatType) (record : Record type.shape)
  | user (user : User)

namespace Payload

def toJson : Payload → Json
  | .flat _ r => r.toJson
  | .user u => u.toJson

def forced : Payload → NameSet
  | .flat _ r => r.forced
  | .user u => u.forced

/-- Reads the payload of an object of the given type. -/
def ofJson (o : ObjectType) (j : Json) : Except Json.Mismatch Payload :=
  match o with
  | .flat type => (Record.ofJson j).map fun r => .flat type (r.restored type.stores)
  | .user => (User.ofJson j).map Payload.user

/-- **A flat payload reads back** from its JSON, forced names apart. -/
theorem ofJson_toJson_flat (type : FlatType) (r : Record type.shape) :
    ofJson (.flat type) (toJson (.flat type r)) = .ok (.flat type r.unforced) := by
  -- the JSON of a record is that of the record in its type
  have hread := (r.stored type.stores).ofJson_toJson
  rw [ofJson]
  exact congrArg (Except.map _) hread

end Payload

end Registrar
