import Registrar.Schema.Domain

/-!
# The domains of the schema

Every domain of values, by what it is about. Kinds are all different, and within a domain no two
values differ in case only.

* `Domain.all` — the list of them.
-/

set_option autoImplicit false

namespace Registrar.Domain

/-! ## Composite attributes of users -/

def addressType : Domain := ⟨"address type", ["custom", "home", "other", "work"]⟩

def emailType : Domain := ⟨"email type", ["custom", "home", "other", "work"]⟩

def externalIdType : Domain where
  kind := "external id type"
  values :=
    [ "account", "custom", "customer", "login_id", "network", "organization" ]

def genderType : Domain := ⟨"gender type", ["female", "male", "other", "unknown"]⟩

def imProtocol : Domain where
  kind := "im protocol"
  values :=
    [ "aim", "custom_protocol", "gtalk", "icq", "jabber", "msn", "net_meeting", "qq", "skype",
      "yahoo" ]

def imType : Domain := ⟨"im type", ["custom", "home", "other", "work"]⟩

def keywordType : Domain := ⟨"keyword type", ["custom", "mission", "occupation", "outlook"]⟩

def languagePreference : Domain := ⟨"language preference", ["not_preferred", "preferred"]⟩

def locationType : Domain := ⟨"location type", ["custom", "default", "desk"]⟩

def notesContentType : Domain := ⟨"notes content type", ["text_html", "text_plain"]⟩

def organizationType : Domain where
  kind := "organization type"
  values :=
    [ "domain_only", "school", "unknown", "work" ]

def operatingSystemType : Domain := ⟨"operating system type", ["linux", "unspecified", "windows"]⟩

def phoneType : Domain where
  kind := "phone type"
  values :=
    [ "assistant", "callback", "car", "company_main", "custom", "grand_central", "home",
      "home_fax", "isdn", "main", "mobile", "other", "other_fax", "pager", "radio", "telex",
      "tty_tdd", "work", "work_fax", "work_mobile", "work_pager" ]

def relationType : Domain where
  kind := "relation type"
  values :=
    [ "admin_assistant", "assistant", "brother", "child", "custom", "domestic_partner",
      "dotted_line_manager", "exec_assistant", "father", "friend", "manager", "mother", "parent",
      "partner", "referred_by", "relative", "sister", "spouse" ]

def websiteType : Domain where
  kind := "website type"
  values :=
    [ "app_install_page", "blog", "custom", "ftp", "home", "home_page", "other", "profile",
      "reservations", "resume", "work" ]

/-! ## Members of groups -/

def deliverySetting : Domain where
  kind := "delivery setting"
  values :=
    [ "ALL_MAIL", "DAILY", "DIGEST", "DISABLED", "NONE" ]

def role : Domain := ⟨"role", ["MANAGER", "MEMBER", "OWNER"]⟩

/-! ## Settings of groups -/

def defaultSender : Domain := ⟨"default sender", ["DEFAULT_SELF", "GROUP"]⟩

def messageModerationLevel : Domain where
  kind := "message moderation level"
  values :=
    [ "MODERATE_ALL_MESSAGES", "MODERATE_NEW_MEMBERS", "MODERATE_NONE", "MODERATE_NON_MEMBERS" ]

def replyTo : Domain where
  kind := "reply to"
  values :=
    [ "REPLY_TO_CUSTOM", "REPLY_TO_IGNORE", "REPLY_TO_LIST", "REPLY_TO_MANAGERS",
      "REPLY_TO_OWNER", "REPLY_TO_SENDER" ]

def spamModerationLevel : Domain where
  kind := "spam moderation level"
  values :=
    [ "ALLOW", "MODERATE", "REJECT", "SILENTLY_MODERATE" ]

def whoCanAssistContent : Domain where
  kind := "who can assist content"
  values :=
    [ "ALL_MEMBERS", "MANAGERS_ONLY", "NONE", "OWNERS_AND_MANAGERS", "OWNERS_ONLY" ]

def whoCanContactOwner : Domain where
  kind := "who can contact owner"
  values :=
    [ "ALL_IN_DOMAIN_CAN_CONTACT", "ALL_MANAGERS_CAN_CONTACT", "ALL_MEMBERS_CAN_CONTACT",
      "ANYONE_CAN_CONTACT" ]

def whoCanDiscoverGroup : Domain where
  kind := "who can discover group"
  values :=
    [ "ALL_IN_DOMAIN_CAN_DISCOVER", "ALL_MEMBERS_CAN_DISCOVER", "ANYONE_CAN_DISCOVER" ]

def whoCanJoin : Domain where
  kind := "who can join"
  values :=
    [ "ALL_IN_DOMAIN_CAN_JOIN", "ANYONE_CAN_JOIN", "CAN_REQUEST_TO_JOIN", "INVITED_CAN_JOIN" ]

def whoCanLeaveGroup : Domain where
  kind := "who can leave group"
  values :=
    [ "ALL_MANAGERS_CAN_LEAVE", "ALL_MEMBERS_CAN_LEAVE", "NONE_CAN_LEAVE" ]

def whoCanModerate : Domain where
  kind := "who can moderate"
  values :=
    [ "ALL_MEMBERS", "NONE", "OWNERS_AND_MANAGERS", "OWNERS_ONLY" ]

def whoCanPostMessage : Domain where
  kind := "who can post message"
  values :=
    [ "ALL_IN_DOMAIN_CAN_POST", "ALL_MANAGERS_CAN_POST", "ALL_MEMBERS_CAN_POST",
      "ALL_OWNERS_CAN_POST", "ANYONE_CAN_POST", "NONE_CAN_POST" ]

def whoCanViewGroup : Domain where
  kind := "who can view group"
  values :=
    [ "ALL_IN_DOMAIN_CAN_VIEW", "ALL_MANAGERS_CAN_VIEW", "ALL_MEMBERS_CAN_VIEW",
      "ALL_OWNERS_CAN_VIEW", "ANYONE_CAN_VIEW" ]

def whoCanViewMembership : Domain where
  kind := "who can view membership"
  values :=
    [ "ALL_IN_DOMAIN_CAN_VIEW", "ALL_MANAGERS_CAN_VIEW", "ALL_MEMBERS_CAN_VIEW",
      "ALL_OWNERS_CAN_VIEW" ]

def languageCode : Domain where
  kind := "language code"
  values :=
    [ "af", "ar", "az", "be", "bg", "bn", "bs", "ca", "chr", "cs", "cy", "da", "de", "el", "en",
      "en-GB", "en-US", "es", "es-419", "et", "eu", "fa", "fi", "fil", "fr", "fr-CA", "ga", "gl",
      "gu", "hi", "hr", "hu", "hy", "id", "is", "it", "iw", "ja", "ka", "km", "kn", "ko", "lo",
      "lt", "lv", "ml", "mn", "mr", "ms", "my", "ne", "nl", "no", "or", "pl", "pt-BR", "pt-PT",
      "ro", "ru", "si", "sk", "sl", "sr", "sv", "sw", "ta", "te", "th", "tr", "uk", "ur", "vi",
      "zh-CN", "zh-HK", "zh-TW", "zu" ]

/-- Every domain. -/
def all : List Domain :=
  [ addressType, emailType, externalIdType, genderType, imProtocol, imType, keywordType,
    languagePreference, locationType, notesContentType, organizationType, operatingSystemType,
    phoneType, relationType, websiteType, deliverySetting, role, defaultSender,
    messageModerationLevel, replyTo, spamModerationLevel, whoCanAssistContent, whoCanContactOwner,
    whoCanDiscoverGroup, whoCanJoin, whoCanLeaveGroup, whoCanModerate, whoCanPostMessage,
    whoCanViewGroup, whoCanViewMembership, languageCode ]

/-- The domain of a kind. -/
def ofKind? (kind : String) : Option Domain := all.find? (·.kind == kind)

end Registrar.Domain
