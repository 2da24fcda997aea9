import ClusterHerald.Config.Source
import ClusterHerald.Kind.Watched

/-!
# Configurations

What the program is told: which kinds to watch, where to send notices, and which fields to ignore.

`Config.toJson` writes a configuration as a document, and `Config.ofSource` reads one from a
document of any kind.  Members that are missing have the values of `Config.initial`.
-/

namespace ClusterHerald

/-- Settings of the generic receiver. -/
structure WebhookSettings where
  url : String
  /-- Where the certificate of the receiver's authority is. -/
  certificate : String
  /-- Certificates are not checked. -/
  skipsCheck : Bool
deriving Repr, DecidableEq

/-- Settings of the Slack receiver. -/
structure SlackSettings where
  url : String
  channel : String
  username : String
  emoji : String
deriving Repr, DecidableEq

/-- Settings of the Webex receiver. -/
structure WebexSettings where
  token : String
  room : String
  /-- Where messages go; the public service stands in for it. -/
  url : String
deriving Repr, DecidableEq

/-- Where notices go. -/
structure ReceiverSettings where
  webhook : WebhookSettings
  slack : SlackSettings
  discordUrl : String
  teamsUrl : String
  larkUrl : String
  cloudEventUrl : String
  webex : WebexSettings
deriving Repr, DecidableEq

/-- Which fields updates may change silently. -/
structure IgnoredSettings where
  /-- Dotted paths, for every kind. -/
  paths : List String
  /-- A tree, for every kind. -/
  tree : IgnoredFields
  /-- Trees by the display names of kinds. -/
  byKind : Table IgnoredFields

/-- A configuration. -/
structure Config where
  receivers : ReceiverSettings
  /-- Built-in kinds by id, and whether they are watched. -/
  switches : Table Bool
  customResources : List CustomResource
  /-- The namespace that is watched; all of them if it is empty. -/
  namespaceName : String
  /-- The name of this instance, which every notice has. -/
  instanceName : String
  ignored : IgnoredSettings
  /-- Where counters are served. -/
  listenAddress : Option String
  /-- How many seconds a first listing may take. -/
  syncTimeout : Option UInt64

namespace WebhookSettings

/-- No receiver. -/
def none : WebhookSettings := ⟨"", "", false⟩

/-- The names of the settings. -/
def known : List Member := [⟨"url", []⟩, ⟨"cert", []⟩, ⟨"tlsSkip", ["tlsskip"]⟩]

/-- The settings as a document. -/
def toJson (s : WebhookSettings) : Json :=
  .ofMembers [("url", .string s.url), ("cert", .string s.certificate),
    ("tlsSkip", .bool s.skipsCheck)]

end WebhookSettings

namespace SlackSettings

/-- No receiver. -/
def none : SlackSettings := ⟨"", "", "", ""⟩

/-- The names of the settings. -/
def known : List Member :=
  [⟨"url", ["slackwebhookurl"]⟩, ⟨"channel", []⟩, ⟨"username", []⟩, ⟨"emoji", []⟩]

/-- The settings as a document. -/
def toJson (s : SlackSettings) : Json :=
  .ofMembers [("url", .string s.url), ("channel", .string s.channel),
    ("username", .string s.username), ("emoji", .string s.emoji)]

end SlackSettings

namespace WebexSettings

/-- No receiver. -/
def none : WebexSettings := ⟨"", "", ""⟩

/-- The names of the settings. -/
def known : List Member := [⟨"token", []⟩, ⟨"room", []⟩, ⟨"url", []⟩]

/-- The settings as a document. -/
def toJson (s : WebexSettings) : Json :=
  .ofMembers [("token", .string s.token), ("room", .string s.room), ("url", .string s.url)]

end WebexSettings

namespace ReceiverSettings

/-- No receivers. -/
def none : ReceiverSettings :=
  ⟨WebhookSettings.none, SlackSettings.none, "", "", "", "", WebexSettings.none⟩

/-- The name of the address of a chat receiver. -/
def chatMembers : List Member := [⟨"webhookUrl", ["webhookurl"]⟩]

/-- The name of the address of a CloudEvents receiver. -/
def cloudEventMembers : List Member := [⟨"url", []⟩]

/-- The names of the receivers. -/
def known : List Member :=
  [⟨"webhook", []⟩, ⟨"slackWebhook", ["slackwebhook"]⟩, ⟨"discord", []⟩, ⟨"msteams", []⟩,
    ⟨"lark", []⟩, ⟨"cloudevent", []⟩, ⟨"webex", []⟩]

/-- The address of a receiver that has no other settings, as a document. -/
def urlJson (name url : String) : Json :=
  .ofMembers [(name, .string url)]

/-- The settings as a document. -/
def toJson (s : ReceiverSettings) : Json :=
  .ofMembers [("webhook", s.webhook.toJson), ("slackWebhook", s.slack.toJson),
    ("discord", urlJson "webhookUrl" s.discordUrl), ("msteams", urlJson "webhookUrl" s.teamsUrl),
    ("lark", urlJson "webhookUrl" s.larkUrl), ("cloudevent", urlJson "url" s.cloudEventUrl),
    ("webex", s.webex.toJson)]

end ReceiverSettings

/-- The entries of a table as a document. -/
def tableJson {α : Type} (toJson : α → Json) (t : Table α) : Json :=
  .object (t.entries.map fun e => (e.1, toJson e.2))

namespace IgnoredSettings

/-- Nothing is ignored. -/
def none : IgnoredSettings := ⟨[], IgnoredFields.empty, Table.empty⟩

/-- The names of the settings. -/
def known : List Member := [⟨"ignore", []⟩, ⟨"ignoredFields", []⟩, ⟨"ignoredFieldsByKind", []⟩]

/-- The settings as a document. -/
def toJson (s : IgnoredSettings) : Json :=
  .ofMembers [("ignore", .array (s.paths.map .string)), ("ignoredFields", s.tree.toJson),
    ("ignoredFieldsByKind", tableJson IgnoredFields.toJson s.byKind)]

end IgnoredSettings

namespace CustomResource

/-- The names of the parts of a description. -/
def known : List Member :=
  [⟨"group", []⟩, ⟨"version", []⟩, ⟨"resource", []⟩, ⟨"kind", []⟩, ⟨"namespaced", []⟩]

/-- A description as a document; without a display name if it has none. -/
def toJson (r : CustomResource) : Json :=
  .ofMembers ([("group", .string r.group), ("version", .string r.version),
    ("resource", .string r.resource)] ++ (r.kind.map fun k => ("kind", Json.string k)).toList ++
    [("namespaced", .bool r.namespaced)])

end CustomResource

namespace Config

/-- The configuration that nobody has changed. -/
def initial : Config :=
  ⟨ReceiverSettings.none, Table.empty, [], "", "", IgnoredSettings.none, none, none⟩

instance : Inhabited Config := ⟨initial⟩

/-- The names of the settings. -/
def known : List Member :=
  [⟨"handler", []⟩, ⟨"resource", []⟩, ⟨"customResources", []⟩, ⟨"namespace", []⟩,
    ⟨"instanceName", []⟩, ⟨"diff", []⟩, ⟨"listenAddress", []⟩, ⟨"syncTimeoutSeconds", []⟩]

/-- A configuration as a document; without the optional settings that are left open. -/
def toJson (c : Config) : Json :=
  .ofMembers ([("handler", c.receivers.toJson), ("resource", tableJson Json.bool c.switches),
    ("customResources", .array (c.customResources.map CustomResource.toJson)),
    ("namespace", .string c.namespaceName), ("instanceName", .string c.instanceName),
    ("diff", c.ignored.toJson)] ++
    (c.listenAddress.map fun a => ("listenAddress", Json.string a)).toList ++
    (c.syncTimeout.map fun n => ("syncTimeoutSeconds", Json.int n.toNat)).toList)

end Config

/-! ### Reading -/

section Reading

variable {δ : Type} {m : Type → Type} [Monad m] [Source δ m]

/-- Reads the description of a custom resource.  Version and resource name must be there. -/
def CustomResource.ofSource (place : δ) : m CustomResource := do
  let es ← knownMembers known place
  return {
    group := ← memberOr es "group" Source.text ""
    version := ← memberOf place es "version" Source.text
    resource := ← memberOf place es "resource" Source.text
    kind := ← memberOr es "kind" (readOptional Source.text) none
    namespaced := ← memberOr es "namespaced" Source.flag true }

/-- Reads the settings of the generic receiver. -/
def WebhookSettings.ofSource (place : δ) : m WebhookSettings := do
  let es ← knownMembers known place
  return {
    url := ← memberOr es "url" Source.text ""
    certificate := ← memberOr es "cert" Source.text ""
    skipsCheck := ← memberOr es "tlsSkip" Source.flag false }

/-- Reads the settings of the Slack receiver. -/
def SlackSettings.ofSource (place : δ) : m SlackSettings := do
  let es ← knownMembers known place
  return {
    url := ← memberOr es "url" Source.text ""
    channel := ← memberOr es "channel" Source.text ""
    username := ← memberOr es "username" Source.text ""
    emoji := ← memberOr es "emoji" Source.text "" }

/-- Reads the settings of the Webex receiver. -/
def WebexSettings.ofSource (place : δ) : m WebexSettings := do
  let es ← knownMembers known place
  return {
    token := ← memberOr es "token" Source.text ""
    room := ← memberOr es "room" Source.text ""
    url := ← memberOr es "url" Source.text "" }

/-- Reads the address of a receiver that has no other settings. -/
def urlOfSource (known : List Member) (name : String) (place : δ) : m String := do
  let es ← knownMembers known place
  memberOr es name Source.text ""

/-- Reads where notices go. -/
def ReceiverSettings.ofSource (place : δ) : m ReceiverSettings := do
  let es ← knownMembers known place
  let chat (name : String) : m String :=
    memberOr es name (urlOfSource chatMembers "webhookUrl") ""
  return {
    webhook := ← memberOr es "webhook" WebhookSettings.ofSource WebhookSettings.none
    slack := ← memberOr es "slackWebhook" SlackSettings.ofSource SlackSettings.none
    discordUrl := ← chat "discord"
    teamsUrl := ← chat "msteams"
    larkUrl := ← chat "lark"
    cloudEventUrl := ← memberOr es "cloudevent" (urlOfSource cloudEventMembers "url") ""
    webex := ← memberOr es "webex" WebexSettings.ofSource WebexSettings.none }

/-- Reads which fields are ignored. -/
def IgnoredSettings.ofSource (place : δ) : m IgnoredSettings := do
  let es ← knownMembers known place
  return {
    paths := ← memberOr es "ignore" (readItems Source.text) []
    tree := ← memberOr es "ignoredFields" Source.tree IgnoredFields.empty
    byKind := ← memberOr es "ignoredFieldsByKind" (readTable Source.tree) Table.empty }

/-- Reads a configuration. -/
def Config.ofSource (place : δ) : m Config := do
  let es ← knownMembers known place
  return {
    receivers := ← memberOr es "handler" ReceiverSettings.ofSource ReceiverSettings.none
    switches := ← memberOr es "resource" (readTable Source.flag) Table.empty
    customResources := ← memberOr es "customResources" (readItems CustomResource.ofSource) []
    namespaceName := ← memberOr es "namespace" Source.text ""
    instanceName := ← memberOr es "instanceName" Source.text ""
    ignored := ← memberOr es "diff" IgnoredSettings.ofSource IgnoredSettings.none
    listenAddress := ← memberOr es "listenAddress" (readOptional Source.text) none
    syncTimeout := ← memberOr es "syncTimeoutSeconds" (readOptional Source.count) none }

end Reading

/-- Reads the description of a custom resource from a document. -/
def CustomResource.ofJson? (v : Json) : Option CustomResource := CustomResource.ofSource v

/-- Reads a configuration from a document. -/
def Config.ofJson? (v : Json) : Option Config := Config.ofSource v

end ClusterHerald
