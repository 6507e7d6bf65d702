import Registrar.Schema.Vocabulary

/-!
# Names of columns

The columns that batch input may have, by type of object: the writable attributes and the key
that says which object a row is about.
-/

set_option autoImplicit false

namespace Registrar.Vocabulary

def aliasColumns : Vocabulary where
  entries :=
    [ ("alias", "alias"), ("userkey", "userKey") ]

def groupColumns : Vocabulary where
  entries :=
    [ ("description", "description"), ("email", "email"), ("groupkey", "groupKey"),
      ("name", "name") ]

/-- The columns of settings of groups. -/
def groupSettingsColumns : Vocabulary where
  entries :=
    [ ("allowexternalmembers", "allowExternalMembers"), ("allowwebposting", "allowWebPosting"),
      ("archiveonly", "archiveOnly"), ("customfootertext", "customFooterText"),
      ("customreplyto", "customReplyTo"),
      ("customrolesenabledforsettingstobemerged", "customRolesEnabledForSettingsToBeMerged"),
      ("defaultmessagedenynotificationtext", "defaultMessageDenyNotificationText"),
      ("defaultsender", "defaultSender"), ("description", "description"),
      ("enablecollaborativeinbox", "enableCollaborativeInbox"),
      ("favoriterepliesontop", "favoriteRepliesOnTop"), ("groupkey", "groupKey"),
      ("includecustomfooter", "includeCustomFooter"),
      ("includeinglobaladdresslist", "includeInGlobalAddressList"), ("isarchived", "isArchived"),
      ("memberscanpostasthegroup", "membersCanPostAsTheGroup"),
      ("messagemoderationlevel", "messageModerationLevel"), ("name", "name"),
      ("primarylanguage", "primaryLanguage"), ("replyto", "replyTo"),
      ("sendmessagedenynotification", "sendMessageDenyNotification"),
      ("spammoderationlevel", "spamModerationLevel"),
      ("whocanassistcontent", "whoCanAssistContent"),
      ("whocancontactowner", "whoCanContactOwner"),
      ("whocandiscovergroup", "whoCanDiscoverGroup"), ("whocanjoin", "whoCanJoin"),
      ("whocanleavegroup", "whoCanLeaveGroup"),
      ("whocanmoderatecontent", "whoCanModerateContent"),
      ("whocanmoderatemembers", "whoCanModerateMembers"),
      ("whocanpostmessage", "whoCanPostMessage"), ("whocanviewgroup", "whoCanViewGroup"),
      ("whocanviewmembership", "whoCanViewMembership") ]

def memberColumns : Vocabulary where
  entries :=
    [ ("delivery_settings", "delivery_settings"), ("deliverysettings", "delivery_settings"),
      ("email", "email"), ("memberkey", "memberKey"), ("role", "role") ]

/-- The columns of organizational units. -/
def orgUnitColumns : Vocabulary where
  entries :=
    [ ("blockinheritance", "blockInheritance"), ("description", "description"), ("name", "name"),
      ("oukey", "ouKey"), ("parentorgunitid", "parentOrgUnitId"),
      ("parentorgunitpath", "parentOrgUnitPath") ]

/-- The columns of users. -/
def userColumns : Vocabulary where
  entries :=
    [ ("address", "addresses"), ("addresses", "addresses"), ("archived", "archived"),
      ("changepasswordatnextlogin", "changePasswordAtNextLogin"), ("email", "emails"),
      ("emails", "emails"), ("externalid", "externalIds"), ("externalids", "externalIds"),
      ("familyname", "familyName"), ("firstname", "givenName"), ("gender", "gender"),
      ("givenname", "givenName"), ("im", "ims"), ("ims", "ims"),
      ("includeinglobaladdresslist", "includeInGlobalAddressList"),
      ("ipwhitelisted", "ipWhitelisted"), ("keyword", "keywords"), ("keywords", "keywords"),
      ("language", "languages"), ("languages", "languages"), ("lastname", "familyName"),
      ("location", "locations"), ("locations", "locations"), ("name", "name"), ("notes", "notes"),
      ("organisation", "organizations"), ("organisations", "organizations"),
      ("organization", "organizations"), ("organizations", "organizations"),
      ("orgunitpath", "orgUnitPath"), ("password", "password"), ("phone", "phones"),
      ("phones", "phones"), ("posixaccount", "posixAccounts"), ("posixaccounts", "posixAccounts"),
      ("primaryemail", "primaryEmail"), ("recoveryemail", "recoveryEmail"),
      ("recoveryphone", "recoveryPhone"), ("relation", "relations"), ("relations", "relations"),
      ("sshpublickey", "sshPublicKeys"), ("sshpublickeys", "sshPublicKeys"),
      ("suspended", "suspended"), ("userkey", "userKey"), ("website", "websites"),
      ("websites", "websites") ]

end Registrar.Vocabulary
