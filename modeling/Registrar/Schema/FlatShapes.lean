import Registrar.ObjectType
import Registrar.Schema.Domains
import Registrar.Schema.Shape

/-!
# Flat objects

The fields that can be written of the objects that hold scalars only.
-/

set_option autoImplicit false

namespace Registrar

namespace Shape

def ofAlias : Shape where
  label := "Alias"
  fields := [.text "alias"]

def ofGroup : Shape where
  label := "Group"
  fields := [.clearableText "description", .text "email", .text "name"]

def ofGroupSettings : Shape where
  label := "GroupSettings"
  fields :=
    [ .booleanText "allowExternalMembers", .booleanText "allowWebPosting",
      .booleanText "archiveOnly", .clearableText "customFooterText",
      .clearableText "customReplyTo", .booleanText "customRolesEnabledForSettingsToBeMerged",
      .clearableText "defaultMessageDenyNotificationText", .enum "defaultSender" .defaultSender,
      .clearableText "description", .booleanText "enableCollaborativeInbox",
      .booleanText "favoriteRepliesOnTop", .booleanText "includeCustomFooter",
      .booleanText "includeInGlobalAddressList", .booleanText "isArchived",
      .booleanText "membersCanPostAsTheGroup",
      .enum "messageModerationLevel" .messageModerationLevel, .text "name",
      .enum "primaryLanguage" .languageCode, .enum "replyTo" .replyTo,
      .booleanText "sendMessageDenyNotification",
      .enum "spamModerationLevel" .spamModerationLevel,
      .enum "whoCanAssistContent" .whoCanAssistContent,
      .enum "whoCanContactOwner" .whoCanContactOwner,
      .enum "whoCanDiscoverGroup" .whoCanDiscoverGroup, .enum "whoCanJoin" .whoCanJoin,
      .enum "whoCanLeaveGroup" .whoCanLeaveGroup, .enum "whoCanModerateContent" .whoCanModerate,
      .enum "whoCanModerateMembers" .whoCanModerate, .enum "whoCanPostMessage" .whoCanPostMessage,
      .enum "whoCanViewGroup" .whoCanViewGroup,
      .enum "whoCanViewMembership" .whoCanViewMembership ]

def ofMember : Shape where
  label := "Member"
  fields := [.enum "delivery_settings" .deliverySetting, .text "email", .enum "role" .role]

def ofOrgUnit : Shape where
  label := "OrgUnit"
  fields :=
    [ .boolean "blockInheritance", .clearableText "description", .text "name",
      .text "parentOrgUnitId", .text "parentOrgUnitPath" ]

end Shape

/-- **The fields of a flat object.** -/
def FlatType.shape : FlatType → Shape
  | .alias => .ofAlias
  | .group => .ofGroup
  | .groupSettings => .ofGroupSettings
  | .member => .ofMember
  | .orgUnit => .ofOrgUnit

end Registrar
