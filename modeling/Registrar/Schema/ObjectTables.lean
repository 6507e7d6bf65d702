import Registrar.Schema.ColumnNames
import Registrar.Schema.FlatShapes
import Registrar.Schema.ProjectionNames
import Registrar.Schema.QueryNames
import Registrar.Schema.Slot

/-!
# What each type of object has

Vocabularies, fields and keys by type of object, and the names under which input may ask for a
type.

* `ObjectType.parse_name` — the name of a type stands for it.
* `ObjectType.columns_key` — the key of a type is one of its columns.
-/

set_option autoImplicit false

namespace Registrar.ObjectType

/-- What a projection may name. -/
def attributes : ObjectType → Vocabulary
  | .flat .alias => .ofAlias
  | .flat .group => .ofGroup
  | .flat .groupSettings => .ofGroupSettings
  | .flat .member => .ofMember
  | .flat .orgUnit => .ofOrgUnit
  | .user => .ofUser

/-- What a query may compare, for the types that can be queried. -/
def queryAttributes? : ObjectType → Option Vocabulary
  | .flat .group => some .groupQuery
  | .user => some .userQuery
  | _ => none

/-- What is said of a type that cannot be queried. -/
def cannotBeQueried (o : ObjectType) : String := o.name ++ " objects cannot be queried"

/-- The columns of batch input. -/
def columns : ObjectType → Vocabulary
  | .flat .alias => .aliasColumns
  | .flat .group => .groupColumns
  | .flat .groupSettings => .groupSettingsColumns
  | .flat .member => .memberColumns
  | .flat .orgUnit => .orgUnitColumns
  | .user => .userColumns

/-- The scalar fields that input can write. -/
def fields : ObjectType → List Field
  | .flat type => type.shape.fields
  | .user => Slot.all.map Slot.field

/-- The fields that an empty value clears. -/
def clearable (o : ObjectType) : List String := (o.fields.filter (·.clearable)).map (·.name)

/-- The column that says which object a row is about. -/
def key : ObjectType → String
  | .flat .alias | .user => "userKey"
  | .flat .group | .flat .groupSettings => "groupKey"
  | .flat .member => "memberKey"
  | .flat .orgUnit => "ouKey"

/-- Other names of a type. -/
def otherNames : ObjectType → List String
  | .flat .alias => ["aliases"]
  | .flat .group => ["groups"]
  | .flat .groupSettings => ["groupsettings", "gs"]
  | .flat .member => ["members"]
  | .flat .orgUnit => ["orgunits", "ou"]
  | .user => ["users"]

/-- **The type that a name stands for**, in any case. -/
def parse (name : String) : Except Error ObjectType :=
  match all.find? fun o => (o.name :: o.otherNames).contains (Text.lowercase name) with
  | some o => .ok o
  | none => .error (.unknownValue name "object type")

theorem parse_name (o : ObjectType) : parse o.name = .ok o := by
  rcases o with (_ | _ | _ | _ | _) | _ <;> rfl

theorem columns_key (o : ObjectType) : o.columns.get? o.key = some o.key := by
  rcases o with (_ | _ | _ | _ | _) | _ <;> decide +kernel

end Registrar.ObjectType
