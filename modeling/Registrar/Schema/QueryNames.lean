import Registrar.Schema.Vocabulary

/-!
# Names in queries

The fields that a query may compare, for the two types of objects that can be queried.
-/

set_option autoImplicit false

namespace Registrar.Vocabulary

def groupQuery : Vocabulary where
  entries :=
    [ ("email", "email"), ("memberkey", "memberKey"), ("name", "name") ]

/-- What a query for users may compare. -/
def userQuery : Vocabulary where
  entries :=
    [ ("address", "address"), ("addresscountry", "addressCountry"),
      ("addressextended", "addressExtended"), ("addresslocality", "addressLocality"),
      ("addresspobox", "addressPoBox"), ("addresspostalcode", "addressPostalCode"),
      ("addresspostcode", "addressPostalCode"), ("addressregion", "addressRegion"),
      ("addressstreet", "addressStreet"), ("directmanager", "directManager"),
      ("directmanagerid", "directManagerId"), ("email", "email"), ("externalid", "externalId"),
      ("familyname", "familyName"), ("firstname", "givenName"), ("givenname", "givenName"),
      ("im", "im"), ("isadmin", "isAdmin"), ("isdelegatedadmin", "isDelegatedAdmin"),
      ("isenforcedin2sv", "isEnforcedIn2Sv"), ("isenrolledin2sv", "isEnrolledIn2Sv"),
      ("issuspended", "isSuspended"), ("lastname", "familyName"), ("manager", "manager"),
      ("managerid", "managerId"), ("name", "name"), ("orgcostcenter", "orgCostCenter"),
      ("orgcostcentre", "orgCostCenter"), ("orgdepartment", "orgDepartment"),
      ("orgdescription", "orgDescription"), ("orgname", "orgName"), ("orgtitle", "orgTitle"),
      ("orgunitpath", "orgUnitPath"), ("phone", "phone") ]

end Registrar.Vocabulary
