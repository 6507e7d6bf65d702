/-!
# Types of directory objects

A directory holds users and five types of flat objects. The record of a flat object has only
scalar fields; a user also has composite attributes.
-/

set_option autoImplicit false

namespace Registrar

/-- The types of objects whose records hold scalars only. -/
inductive FlatType where
  | alias
  | group
  | groupSettings
  | member
  | orgUnit
deriving DecidableEq, Repr

/-- **The types of directory objects.** -/
inductive ObjectType where
  | flat (type : FlatType)
  | user
deriving DecidableEq, Repr

namespace FlatType

def name : FlatType → String
  | .alias => "alias"
  | .group => "group"
  | .groupSettings => "group-settings"
  | .member => "member"
  | .orgUnit => "orgunit"

end FlatType

namespace ObjectType

def name : ObjectType → String
  | .flat type => type.name
  | .user => "user"

def all : List ObjectType :=
  [.flat .alias, .flat .group, .flat .groupSettings, .flat .member, .flat .orgUnit, .user]

end ObjectType

end Registrar
