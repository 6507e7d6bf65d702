import Registrar.Schema.Vocabulary

/-!
# Names in projections

The attributes that a projection may name, by type of object. Those of a user are its own
attributes and, because a projection may select parts of them, the parts of its name and of its
composite attributes. The latter also name the fields of composites in attribute strings.
-/

set_option autoImplicit false

namespace Registrar.Vocabulary

def ofAlias : Vocabulary where
  entries :=
    [ ("alias", "alias"), ("etag", "etag"), ("id", "id"), ("kind", "kind"),
      ("primaryemail", "primaryEmail") ]

/-- What a projection of a group may name. -/
def ofGroup : Vocabulary where
  entries :=
    [ ("admincreated", "adminCreated"), ("alias", "aliases"), ("aliases", "aliases"),
      ("description", "description"), ("directmemberscount", "directMembersCount"),
      ("email", "email"), ("etag", "etag"), ("id", "id"), ("kind", "kind"), ("name", "name"),
      ("noneditablealias", "nonEditableAliases"), ("noneditablealiases", "nonEditableAliases") ]

/-- What a projection of the settings of a group may name. -/
def ofGroupSettings : Vocabulary where
  entries :=
    [ ("allowexternalmembers", "allowExternalMembers"), ("allowwebposting", "allowWebPosting"),
      ("archiveonly", "archiveOnly"), ("customfootertext", "customFooterText"),
      ("customreplyto", "customReplyTo"),
      ("customrolesenabledforsettingstobemerged", "customRolesEnabledForSettingsToBeMerged"),
      ("defaultmessagedenynotificationtext", "defaultMessageDenyNotificationText"),
      ("defaultsender", "defaultSender"), ("description", "description"), ("email", "email"),
      ("enablecollaborativeinbox", "enableCollaborativeInbox"),
      ("favoriterepliesontop", "favoriteRepliesOnTop"),
      ("includecustomfooter", "includeCustomFooter"),
      ("includeinglobaladdresslist", "includeInGlobalAddressList"), ("isarchived", "isArchived"),
      ("kind", "kind"), ("memberscanpostasthegroup", "membersCanPostAsTheGroup"),
      ("messagemoderationlevel", "messageModerationLevel"), ("name", "name"),
      ("primarylanguage", "primaryLanguage"), ("replyto", "replyTo"),
      ("sendmessagedenynotification", "sendMessageDenyNotification"),
      ("spammoderationlevel", "spamModerationLevel"),
      ("whocanassistcontent", "whoCanAssistContent"),
      ("whocancontactowner", "whoCanContactOwner"),
      ("whocandiscovergroup", "whoCanDiscoverGroup"), ("whocanjoin", "whoCanJoin"),
      ("whocanleavegroup", "whoCanLeaveGroup"),
      ("whocanmoderatecontent", "whoCanModerateContent"),
      ("whocanmoderatemembers", "whoCanModerateMembers"),
      ("whocanpostmessage", "whoCanPostMessage"), ("whocanviewgroup", "whoCanViewGroup"),
      ("whocanviewmembership", "whoCanViewMembership") ]

/-- What a projection of a member may name. -/
def ofMember : Vocabulary where
  entries :=
    [ ("delivery_settings", "delivery_settings"), ("deliverysettings", "delivery_settings"),
      ("email", "email"), ("etag", "etag"), ("id", "id"), ("kind", "kind"), ("role", "role"),
      ("status", "status"), ("type", "type") ]

/-- What a projection of an organizational unit may name. -/
def ofOrgUnit : Vocabulary where
  entries :=
    [ ("blockinheritance", "blockInheritance"), ("description", "description"), ("etag", "etag"),
      ("kind", "kind"), ("name", "name"), ("orgunitid", "orgUnitId"),
      ("orgunitpath", "orgUnitPath"), ("parentorgunitid", "parentOrgUnitId"),
      ("parentorgunitpath", "parentOrgUnitPath") ]

/-! ## Users -/

/-- The attributes of a user. -/
def userTopNames : List (String × String) :=
  [ ("address", "addresses"), ("addresses", "addresses"), ("agreedtoterms", "agreedToTerms"),
    ("alias", "aliases"), ("aliases", "aliases"), ("archived", "archived"),
    ("changepasswordatnextlogin", "changePasswordAtNextLogin"), ("creationtime", "creationTime"),
    ("customerid", "customerId"), ("customschemas", "customSchemas"),
    ("deletiontime", "deletionTime"), ("email", "emails"), ("emails", "emails"), ("etag", "etag"),
    ("externalid", "externalIds"), ("externalids", "externalIds"), ("gender", "gender"),
    ("hashfunction", "hashFunction"), ("id", "id"), ("im", "ims"), ("ims", "ims"),
    ("includeinglobaladdresslist", "includeInGlobalAddressList"),
    ("ipwhitelisted", "ipWhitelisted"), ("isadmin", "isAdmin"),
    ("isdelegatedadmin", "isDelegatedAdmin"), ("isenforcedin2sv", "isEnforcedIn2Sv"),
    ("isenrolledin2sv", "isEnrolledIn2Sv"), ("ismailboxsetup", "isMailboxSetup"),
    ("keyword", "keywords"), ("keywords", "keywords"), ("kind", "kind"),
    ("language", "languages"), ("languages", "languages"), ("lastlogintime", "lastLoginTime"),
    ("location", "locations"), ("locations", "locations"), ("name", "name"),
    ("noneditablealiases", "nonEditableAliases"), ("notes", "notes"),
    ("organisation", "organizations"), ("organisations", "organizations"),
    ("organization", "organizations"), ("organizations", "organizations"),
    ("orgunitpath", "orgUnitPath"), ("password", "password"), ("phone", "phones"),
    ("phones", "phones"), ("posixaccount", "posixAccounts"), ("posixaccounts", "posixAccounts"),
    ("primaryemail", "primaryEmail"), ("recoveryemail", "recoveryEmail"),
    ("recoveryphone", "recoveryPhone"), ("relation", "relations"), ("relations", "relations"),
    ("sshpublickey", "sshPublicKeys"), ("sshpublickeys", "sshPublicKeys"),
    ("suspended", "suspended"), ("suspensionreason", "suspensionReason"),
    ("thumbnailphotoetag", "thumbnailPhotoEtag"), ("thumbnailphotourl", "thumbnailPhotoUrl"),
    ("website", "websites"), ("websites", "websites") ]

/-- The parts of a name. -/
def personNames : List (String × String) :=
  [ ("christianname", "givenName"), ("displayname", "displayName"), ("familyname", "familyName"),
    ("firstname", "givenName"), ("forename", "givenName"), ("fullname", "fullName"),
    ("givenname", "givenName"), ("lastname", "familyName"), ("surname", "familyName") ]

/-- The fields of composite attributes. -/
def compositeNames : List (String × String) :=
  [ ("accountid", "accountId"), ("addressmeas", "addressMeAs"), ("area", "area"),
    ("buildingid", "buildingId"), ("contenttype", "contentType"), ("costcenter", "costCenter"),
    ("costcentre", "costCenter"), ("country", "country"), ("countrycode", "countryCode"),
    ("customgender", "customGender"), ("customlanguage", "customLanguage"),
    ("customprotocol", "customProtocol"), ("customtype", "customType"),
    ("department", "department"), ("description", "description"), ("deskcode", "deskCode"),
    ("domain", "domain"), ("expirationtimeusec", "expirationTimeUsec"),
    ("extendedaddress", "extendedAddress"), ("fingerprint", "fingerprint"),
    ("floorname", "floorName"), ("floorsection", "floorSection"), ("formatted", "formatted"),
    ("fulltimeequivalent", "fullTimeEquivalent"), ("gecos", "gecos"), ("gid", "gid"),
    ("homedirectory", "homeDirectory"), ("key", "key"), ("languagecode", "languageCode"),
    ("locality", "locality"), ("operatingsystemtype", "operatingSystemType"), ("pobox", "poBox"),
    ("postalcode", "postalCode"), ("postcode", "postalCode"), ("preference", "preference"),
    ("primary", "primary"), ("protocol", "protocol"), ("region", "region"), ("shell", "shell"),
    ("sourceisstructured", "sourceIsStructured"), ("streetaddress", "streetAddress"),
    ("symbol", "symbol"), ("systemid", "systemId"), ("title", "title"), ("type", "type"),
    ("uid", "uid"), ("username", "username"), ("value", "value") ]

/-- **What a projection of a user may name.** -/
def ofUser : Vocabulary where
  entries := userTopNames ++ personNames ++ compositeNames

/-- The root of the attributes that an organization defines for itself. -/
def customSchemas : String := "customSchemas"

end Registrar.Vocabulary
