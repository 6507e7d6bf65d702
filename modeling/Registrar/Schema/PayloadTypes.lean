import Registrar.Schema.FlatShapes
import Registrar.Schema.Slot

/-!
# The types of payloads

The fields that input can name stand in the tables of the schema, and the fields that are sent in
the types of payloads, with names in words. What has been read is put into these types by its name
in JSON, and a type passes over a name that it does not know:

```
organization~{title~Dr~fulltimeequivalent~40}     input
{"fullTimeEquivalent":40,"title":"Dr"}            what is gathered from it
full_time_equivalent: i64, title: String, …       the fields of the type
```

A field of a table that were missing in the type, or of another kind there, would be lost or refused
whenever it is given. Each type holds the records of its table.

* `Composite.stores`, `FlatType.stores`, `Shape.userPayload_stores` — the types and the tables.
-/

set_option autoImplicit false

namespace Registrar

/-! ## Names -/

/-- A name in words with underscores between them, written in one word: each underscore gives way to
a capital. -/
def Text.camelChars (capital : Bool) : List Char → List Char
  | [] => []
  | c :: cs =>
      if c = '_' then camelChars true cs
      else (if capital then c.toUpper else c) :: camelChars false cs

/-- A name in words as it is written in JSON. -/
def Text.camelCase (words : String) : String := String.ofList (camelChars false words.toList)

/-- The field of a type with a name in words. -/
def Field.ofWords (words : String) (kind : FieldKind) : Field :=
  { name := Text.camelCase words, kind }

/-! ## Composite attributes -/

namespace Composite

/-- The fields of the type of an occurrence, their names in words. -/
def payloadFields : Composite → List (String × FieldKind)
  | .address =>
      [ ("country", .text), ("country_code", .text), ("custom_type", .text),
        ("extended_address", .text), ("formatted", .text), ("locality", .text), ("po_box", .text),
        ("postal_code", .text), ("primary", .boolean), ("region", .text),
        ("source_is_structured", .boolean), ("street_address", .text), ("type", .text) ]
  | .email => [("address", .text), ("custom_type", .text), ("primary", .boolean), ("type", .text)]
  | .externalId => [("custom_type", .text), ("type", .text), ("value", .text)]
  | .gender => [("address_me_as", .text), ("custom_gender", .text), ("type", .text)]
  | .im =>
      [ ("custom_protocol", .text), ("custom_type", .text), ("im", .text), ("primary", .boolean),
        ("protocol", .text), ("type", .text) ]
  | .keyword => [("custom_type", .text), ("type", .text), ("value", .text)]
  | .language => [("custom_language", .text), ("language_code", .text), ("preference", .text)]
  | .location =>
      [ ("area", .text), ("building_id", .text), ("custom_type", .text), ("desk_code", .text),
        ("floor_name", .text), ("floor_section", .text), ("type", .text) ]
  | .name => [("family_name", .text), ("full_name", .text), ("given_name", .text)]
  | .notes => [("content_type", .text), ("value", .text)]
  | .organization =>
      [ ("cost_center", .text), ("custom_type", .text), ("department", .text),
        ("description", .text), ("domain", .text), ("full_time_equivalent", .integer),
        ("location", .text), ("name", .text), ("primary", .boolean), ("symbol", .text),
        ("title", .text), ("type", .text) ]
  | .phone => [("custom_type", .text), ("primary", .boolean), ("type", .text), ("value", .text)]
  | .posixAccount =>
      [ ("account_id", .text), ("gecos", .text), ("gid", .integer), ("home_directory", .text),
        ("operating_system_type", .text), ("primary", .boolean), ("shell", .text),
        ("system_id", .text), ("uid", .integer), ("username", .text) ]
  | .relation => [("custom_type", .text), ("type", .text), ("value", .text)]
  | .sshPublicKey => [("expiration_time_usec", .integer), ("key", .text)]
  | .website => [("custom_type", .text), ("primary", .boolean), ("type", .text), ("value", .text)]

/-- **The type of the record of an occurrence.** -/
def payload (c : Composite) : Shape where
  label := c.shape.label
  fields := c.payloadFields.map fun f => .ofWords f.1 f.2

/-- **The type of an occurrence holds all that it may name.** -/
theorem stores (c : Composite) : c.payload.Stores c.shape where
  label := rfl
  fields := by cases c <;> rfl

end Composite

/-! ## Flat objects -/

namespace FlatType

def typeName : FlatType → String
  | .alias => "Alias"
  | .group => "Group"
  | .groupSettings => "GroupSettings"
  | .member => "Member"
  | .orgUnit => "OrgUnit"

/-- The fields of the type of a flat object, their names in words. -/
def payloadFields : FlatType → List (String × FieldKind)
  | .alias => [("alias", .text)]
  | .group => [("description", .text), ("email", .text), ("name", .text)]
  | .groupSettings =>
      [ ("allow_external_members", .text), ("allow_web_posting", .text), ("archive_only", .text),
        ("custom_footer_text", .text), ("custom_reply_to", .text),
        ("custom_roles_enabled_for_settings_to_be_merged", .text),
        ("default_message_deny_notification_text", .text), ("default_sender", .text),
        ("description", .text), ("enable_collaborative_inbox", .text),
        ("favorite_replies_on_top", .text), ("include_custom_footer", .text),
        ("include_in_global_address_list", .text), ("is_archived", .text),
        ("members_can_post_as_the_group", .text), ("message_moderation_level", .text),
        ("name", .text), ("primary_language", .text), ("reply_to", .text),
        ("send_message_deny_notification", .text), ("spam_moderation_level", .text),
        ("who_can_assist_content", .text), ("who_can_contact_owner", .text),
        ("who_can_discover_group", .text), ("who_can_join", .text), ("who_can_leave_group", .text),
        ("who_can_moderate_content", .text), ("who_can_moderate_members", .text),
        ("who_can_post_message", .text), ("who_can_view_group", .text),
        ("who_can_view_membership", .text) ]
  | .member => [("delivery_settings", .text), ("email", .text), ("role", .text)]
  | .orgUnit =>
      [ ("block_inheritance", .boolean), ("description", .text), ("name", .text),
        ("parent_org_unit_id", .text), ("parent_org_unit_path", .text) ]

/-- The name of a field in JSON. One of them is written in words there, too. -/
def jsonName : FlatType → String → String
  | .member, "delivery_settings" => "delivery_settings"
  | _, words => Text.camelCase words

/-- **The type of a flat object.** -/
def payload (type : FlatType) : Shape where
  label := type.typeName
  fields := type.payloadFields.map fun f => { name := type.jsonName f.1, kind := f.2 }

/-- **The type of a flat object holds all that rows may give it.** -/
theorem stores (type : FlatType) : type.payload.Stores type.shape where
  label := by cases type <;> rfl
  fields := by cases type <;> rfl

end FlatType

/-! ## Users -/

namespace Shape

/-- **The scalar fields of the type of users.** -/
def userPayload : Shape where
  label := "User"
  fields :=
    [ ("archived", .boolean), ("change_password_at_next_login", .boolean),
      ("hash_function", .text), ("include_in_global_address_list", .boolean),
      ("ip_whitelisted", .boolean), ("org_unit_path", .text), ("password", .text),
      ("primary_email", .text), ("recovery_email", .text), ("recovery_phone", .text),
      ("suspended", .boolean) ].map fun f => .ofWords f.1 f.2

theorem userPayload_stores : userPayload.Stores ofUser where
  label := rfl
  fields := rfl

end Shape

end Registrar
