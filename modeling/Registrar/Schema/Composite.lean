import Registrar.Schema.Domains
import Registrar.Schema.ProjectionNames
import Registrar.Schema.Shape

/-!
# Composite attributes

The attributes of a user that are records themselves. An occurrence of one is added to the
attribute as its cardinality says: behind the others, in place of the old one, or merged into it.

* `Composite.ofKey?_congr` — the case of a name does not matter.
* `Composite.ofField?_field` — an attribute is found under its field.
-/

set_option autoImplicit false

namespace Registrar

/-- **The composite attributes of a user.** -/
inductive Composite where
  | address
  | email
  | externalId
  | gender
  | im
  | keyword
  | language
  | location
  | name
  | notes
  | organization
  | phone
  | posixAccount
  | relation
  | sshPublicKey
  | website
deriving DecidableEq, Repr

/-- What becomes of several occurrences of an attribute. -/
inductive Cardinality where
  /-- They are kept in order. -/
  | list
  /-- The last one counts. -/
  | single
  /-- They are merged into one. -/
  | merged
deriving DecidableEq, Repr

namespace Composite

def all : List Composite :=
  [ .address, .email, .externalId, .gender, .im, .keyword, .language, .location, .name, .notes,
    .organization, .phone, .posixAccount, .relation, .sshPublicKey, .website ]

theorem mem_all (c : Composite) : c ∈ all := by
  cases c <;> decide

/-- The name that introduces an attribute in an attribute string. -/
def key : Composite → String
  | .address => "address"
  | .email => "email"
  | .externalId => "externalid"
  | .gender => "gender"
  | .im => "im"
  | .keyword => "keyword"
  | .language => "language"
  | .location => "location"
  | .name => "name"
  | .notes => "notes"
  | .organization => "organization"
  | .phone => "phone"
  | .posixAccount => "posixaccount"
  | .relation => "relation"
  | .sshPublicKey => "sshpublickey"
  | .website => "website"

def otherKeys : Composite → List String
  | .organization => ["organisation"]
  | _ => []

/-- All names that introduce an attribute, in lower case. -/
def keys (c : Composite) : List String := c.key :: c.otherKeys

/-- The field of a user that holds an attribute. -/
def field : Composite → String
  | .address => "addresses"
  | .email => "emails"
  | .externalId => "externalIds"
  | .gender => "gender"
  | .im => "ims"
  | .keyword => "keywords"
  | .language => "languages"
  | .location => "locations"
  | .name => "name"
  | .notes => "notes"
  | .organization => "organizations"
  | .phone => "phones"
  | .posixAccount => "posixAccounts"
  | .relation => "relations"
  | .sshPublicKey => "sshPublicKeys"
  | .website => "websites"

/-- What becomes of several occurrences. -/
def cardinality : Composite → Cardinality
  | .gender | .notes => .single
  | .name => .merged
  | _ => .list

/-- **The fields of an occurrence.** -/
def shape : Composite → Shape
  | .address => ⟨"UserAddress",
      [ .text "country", .text "countryCode", .text "customType", .text "extendedAddress",
        .text "formatted", .text "locality", .text "poBox", .text "postalCode",
        .boolean "primary", .text "region", .boolean "sourceIsStructured", .text "streetAddress",
        .enum "type" .addressType ]⟩
  | .email => ⟨"UserEmail",
      [ .text "address", .text "customType", .boolean "primary", .enum "type" .emailType ]⟩
  | .externalId => ⟨"UserExternalId",
      [ .text "customType", .enum "type" .externalIdType, .text "value" ]⟩
  | .gender => ⟨"UserGender",
      [ .text "addressMeAs", .text "customGender", .enum "type" .genderType ]⟩
  | .im => ⟨"UserIm",
      [ .text "customProtocol", .text "customType", .text "im", .boolean "primary",
        .enum "protocol" .imProtocol, .enum "type" .imType ]⟩
  | .keyword => ⟨"UserKeyword", [.text "customType", .enum "type" .keywordType, .text "value"]⟩
  | .language => ⟨"UserLanguage",
      [ .text "customLanguage", .text "languageCode", .enum "preference" .languagePreference ]⟩
  | .location => ⟨"UserLocation",
      [ .text "area", .text "buildingId", .text "customType", .text "deskCode", .text "floorName",
        .text "floorSection", .enum "type" .locationType ]⟩
  | .name => ⟨"UserName", [.text "familyName", .text "fullName", .text "givenName"]⟩
  | .notes => ⟨"UserAbout", [.enum "contentType" .notesContentType, .text "value"]⟩
  | .organization => ⟨"UserOrganization",
      [ .text "costCenter", .text "customType", .text "department", .text "description",
        .text "domain", .integer "fullTimeEquivalent", .text "location", .text "name",
        .boolean "primary", .text "symbol", .text "title", .enum "type" .organizationType ]⟩
  | .phone => ⟨"UserPhone",
      [ .text "customType", .boolean "primary", .enum "type" .phoneType, .text "value" ]⟩
  | .posixAccount => ⟨"UserPosixAccount",
      [ .text "accountId", .text "gecos", .integer "gid", .text "homeDirectory",
        .enum "operatingSystemType" .operatingSystemType, .boolean "primary", .text "shell",
        .text "systemId", .integer "uid", .text "username" ]⟩
  | .relation => ⟨"UserRelation", [.text "customType", .enum "type" .relationType, .text "value"]⟩
  | .sshPublicKey => ⟨"UserSshPublicKey", [.integer "expirationTimeUsec", .text "key"]⟩
  | .website => ⟨"UserWebsite",
      [ .text "customType", .boolean "primary", .enum "type" .websiteType, .text "value" ]⟩

def ofKey? (name : String) : Option Composite :=
  all.find? (·.keys.contains (Text.lowercase name))

def ofField? (field : String) : Option Composite := all.find? (·.field == field)

theorem ofKey?_congr {a b : String} (h : Text.lowercase a = Text.lowercase b) :
    ofKey? a = ofKey? b := by
  simp [ofKey?, h]

theorem ofKey?_key (c : Composite) : ofKey? c.key = some c := by
  cases c <;> decide +kernel

theorem ofField?_field (c : Composite) : ofField? c.field = some c := by
  cases c <;> decide

theorem field_of_ofField? {field : String} {c : Composite} (h : ofField? field = some c) :
    c.field = field := by
  simpa using List.find?_some h

/-- **The field of an occurrence that a name stands for**: one that differs from it in case only
or, failing that, the one that the name stands for in projections of users. -/
def subField? (c : Composite) (name : String) : Option c.shape.Member :=
  match c.shape.fields.find? fun f => Text.sameName f.name name with
  | some f => c.shape.member? f.name
  | none => (Vocabulary.ofUser.get? name).bind c.shape.member?

end Composite

end Registrar
