import ClusterHerald.Proofs.Config.Spelling

/-!
# Configurations are read back

`Config.toJsonBy` writes a configuration in a given spelling; `Config.toJson` is the plain one
(`Config.toJsonBy_plain`).  Each record is read back from each of its spellings, from the innermost
ones (`WebhookSettings.ofSource_toJsonBy`, `CustomResource.ofSource_toJsonBy` and so on) to the whole
configuration (`Config.read_back`).

A tree of ignored fields is read back because its names are in order: every entry is put in front of
the ones after it (`Rule.ofJson?_toJson`).
-/

namespace ClusterHerald

/-! ### Lists, tables, and trees -/

section

variable {α β : Type}

theorem mapM_map {γ : Type} {l : List β} {write : β → γ} {read : γ → Option α} {value : β → α}
    (h : ∀ b, read (write b) = some (value b)) : (l.map write).mapM read = some (l.map value) := by
  have hread : read ∘ write = fun b => pure (value b) := funext h
  rw [List.mapM_map, hread, List.mapM_pure]
  rfl

theorem mapM_mapIdx {read : Json → Option α} {write : Nat → α → Json}
    (h : ∀ i a, read (write i a) = some a) (as : List α) : (as.mapIdx write).mapM read = some as := by
  induction as generalizing write with
  | nil => rfl
  | cons a as ih =>
    rw [List.mapIdx_cons, List.mapM_cons, h, ih fun i => h (i + 1)]
    rfl

theorem readOptional_of {read : Json → Option α} {v : Json} {a : α}
    (hset : Source.optional v = some (some v)) (hread : read v = some a) :
    readOptional read v = some (some a) := by
  simp [readOptional, hset, hread]

theorem readTable_tableJson {read : Json → Option α} {write : α → Json}
    (h : ∀ a, read (write a) = some a) (t : Table α) :
    readTable read (tableJson write t) = some t := by
  have hentries : (t.entries.map fun e => (e.1, write e.2)).mapM
      (fun e => (read e.2).bind fun value => pure (e.1, value)) = some (t.entries.map id) :=
    mapM_map fun e => by simp [h]
  rw [List.map_id] at hentries
  simp only [readTable, tableJson, Source.members, Json.members?, Option.bind_eq_bind,
    Option.bind_some]
  rw [hentries, Option.bind_some, Table.ofList_entries]
  rfl

end

namespace Rule

mutual

/-- A rule is read back. -/
theorem ofJson?_toJson : ∀ {r : Rule}, Ordered r → ofJson? (toJson r) = some r
  | .redacted, _ => by simp [toJson, ofJson?]
  | .nested es, h => by
    rw [toJson, ofJson?, entriesOfMembers?_membersOfEntries (ordered_nested.1 h), Option.map_some]

theorem entriesOfMembers?_membersOfEntries : ∀ {es : List (String × Rule)}, OrderedTree es →
    entriesOfMembers? (membersOfEntries es) = some es
  | [], _ => by simp [membersOfEntries, entriesOfMembers?]
  | (n, r) :: es, h => by
    obtain ⟨hfirst, hrest⟩ := List.pairwise_cons.1 h.1
    obtain ⟨hr, hes⟩ : Ordered r ∧ OrderedValues es := by simpa [OrderedValues] using h.2
    rw [membersOfEntries, entriesOfMembers?, ofJson?_toJson hr,
      entriesOfMembers?_membersOfEntries ⟨hrest, hes⟩, Option.bind_some, Option.map_some,
      Entries.insert_of_lt hfirst]

end

end Rule

theorem IgnoredFields.ofJson?_toJson (t : IgnoredFields) : ofJson? t.toJson = some t := by
  have hentries := Rule.entriesOfMembers?_membersOfEntries t.ordered
  simp only [ofJson?, toJson]
  split
  · next es hes =>
    rw [hentries] at hes
    exact congrArg some (ext (Option.some.inj hes).symm)
  · next hes =>
    rw [hentries] at hes
    cases hes

/-! ### Records in a given spelling -/

instance decidableEqNoFields : ∀ t : IgnoredFields, Decidable (t = .empty)
  | ⟨[], _⟩ => isTrue rfl
  | ⟨_ :: _, _⟩ => isFalse nofun

instance decidableEqNoEntries {α : Type} : ∀ t : Table α, Decidable (t = .empty)
  | ⟨[], _⟩ => isTrue rfl
  | ⟨_ :: _, _⟩ => isFalse nofun

theorem count?_int (n : UInt64) : Json.count? (.int n.toNat) = some n := by
  have hn : (0 : Int) ≤ n.toNat ∧ (n.toNat : Int) < UInt64.size :=
    ⟨Int.natCast_nonneg _, Int.ofNat_lt.2 n.toNat_lt_size⟩
  have hint : (Json.int n.toNat).int? = some (n.toNat : Int) := rfl
  rw [Json.count?, hint, Option.bind_eq_bind, Option.bind_some, if_pos hn, Int.toNat_natCast,
    UInt64.ofNat_toNat]

/-- A text that is empty if it is missing. -/
abbrev Field.text (member : Member) (value : String) : Field :=
  .of member value "" fun _ => .string

namespace WebhookSettings

/-- The members of the settings. -/
def fields (s : WebhookSettings) : List Field :=
  [.text ⟨"url", []⟩ s.url, .text ⟨"cert", []⟩ s.certificate,
    .of ⟨"tlsSkip", ["tlsskip"]⟩ s.skipsCheck false fun _ => .bool]

/-- The settings in a given spelling. -/
def toJsonBy (how : Spelling) (s : WebhookSettings) : Json :=
  recordBy how s.fields

theorem toJsonBy_plain (s : WebhookSettings) : s.toJsonBy .plain = s.toJson := rfl

theorem ofSource_toJsonBy (how : Spelling) (s : WebhookSettings) :
    ofSource (s.toJsonBy how) = some s := by
  obtain ⟨es, hknown, hurl, hcert, hskip, -⟩ :=
    exists_knownMembers_recordBy known s.fields (by decide) rfl how
  have hurl : memberOr es "url" Source.text "" = some s.url := memberOr_of hurl fun _ => rfl
  have hcert : memberOr es "cert" Source.text "" = some s.certificate :=
    memberOr_of hcert fun _ => rfl
  have hskip : memberOr es "tlsSkip" Source.flag false = some s.skipsCheck :=
    memberOr_of hskip fun _ => rfl
  simp [ofSource, toJsonBy, hknown, hurl, hcert, hskip]

end WebhookSettings

namespace SlackSettings

/-- The members of the settings. -/
def fields (s : SlackSettings) : List Field :=
  [.text ⟨"url", ["slackwebhookurl"]⟩ s.url, .text ⟨"channel", []⟩ s.channel,
    .text ⟨"username", []⟩ s.username, .text ⟨"emoji", []⟩ s.emoji]

/-- The settings in a given spelling. -/
def toJsonBy (how : Spelling) (s : SlackSettings) : Json :=
  recordBy how s.fields

theorem toJsonBy_plain (s : SlackSettings) : s.toJsonBy .plain = s.toJson := rfl

theorem ofSource_toJsonBy (how : Spelling) (s : SlackSettings) :
    ofSource (s.toJsonBy how) = some s := by
  obtain ⟨es, hknown, hurl, hchannel, husername, hemoji, -⟩ :=
    exists_knownMembers_recordBy known s.fields (by decide) rfl how
  have hurl : memberOr es "url" Source.text "" = some s.url := memberOr_of hurl fun _ => rfl
  have hchannel : memberOr es "channel" Source.text "" = some s.channel :=
    memberOr_of hchannel fun _ => rfl
  have husername : memberOr es "username" Source.text "" = some s.username :=
    memberOr_of husername fun _ => rfl
  have hemoji : memberOr es "emoji" Source.text "" = some s.emoji := memberOr_of hemoji fun _ => rfl
  simp [ofSource, toJsonBy, hknown, hurl, hchannel, husername, hemoji]

end SlackSettings

namespace WebexSettings

/-- The members of the settings. -/
def fields (s : WebexSettings) : List Field :=
  [.text ⟨"token", []⟩ s.token, .text ⟨"room", []⟩ s.room, .text ⟨"url", []⟩ s.url]

/-- The settings in a given spelling. -/
def toJsonBy (how : Spelling) (s : WebexSettings) : Json :=
  recordBy how s.fields

theorem toJsonBy_plain (s : WebexSettings) : s.toJsonBy .plain = s.toJson := rfl

theorem ofSource_toJsonBy (how : Spelling) (s : WebexSettings) :
    ofSource (s.toJsonBy how) = some s := by
  obtain ⟨es, hknown, htoken, hroom, hurl, -⟩ :=
    exists_knownMembers_recordBy known s.fields (by decide) rfl how
  have htoken : memberOr es "token" Source.text "" = some s.token := memberOr_of htoken fun _ => rfl
  have hroom : memberOr es "room" Source.text "" = some s.room := memberOr_of hroom fun _ => rfl
  have hurl : memberOr es "url" Source.text "" = some s.url := memberOr_of hurl fun _ => rfl
  simp [ofSource, toJsonBy, hknown, htoken, hroom, hurl]

end WebexSettings

namespace ReceiverSettings

/-- The address of a receiver that has no other settings, in a given spelling. -/
def urlJsonBy (member : Member) (how : Spelling) (url : String) : Json :=
  recordBy how [.text member url]

theorem urlOfSource_urlJsonBy {member : Member} (hk : Member.Distinct [member]) (how : Spelling)
    (url : String) : urlOfSource [member] member.name (urlJsonBy member how url) = some url := by
  obtain ⟨es, hknown, hurl, -⟩ :=
    exists_knownMembers_recordBy [member] [.text member url] hk rfl how
  have hurl : memberOr es member.name Source.text "" = some url := memberOr_of hurl fun _ => rfl
  simp [urlOfSource, urlJsonBy, hknown, hurl]

/-- The members of the settings. -/
def fields (s : ReceiverSettings) : List Field :=
  [.of ⟨"webhook", []⟩ s.webhook .none WebhookSettings.toJsonBy,
    .of ⟨"slackWebhook", ["slackwebhook"]⟩ s.slack .none SlackSettings.toJsonBy,
    .of ⟨"discord", []⟩ s.discordUrl "" (urlJsonBy ⟨"webhookUrl", ["webhookurl"]⟩),
    .of ⟨"msteams", []⟩ s.teamsUrl "" (urlJsonBy ⟨"webhookUrl", ["webhookurl"]⟩),
    .of ⟨"lark", []⟩ s.larkUrl "" (urlJsonBy ⟨"webhookUrl", ["webhookurl"]⟩),
    .of ⟨"cloudevent", []⟩ s.cloudEventUrl "" (urlJsonBy ⟨"url", []⟩),
    .of ⟨"webex", []⟩ s.webex .none WebexSettings.toJsonBy]

/-- The settings in a given spelling. -/
def toJsonBy (how : Spelling) (s : ReceiverSettings) : Json :=
  recordBy how s.fields

theorem toJsonBy_plain (s : ReceiverSettings) : s.toJsonBy .plain = s.toJson := rfl

theorem ofSource_toJsonBy (how : Spelling) (s : ReceiverSettings) :
    ofSource (s.toJsonBy how) = some s := by
  obtain ⟨es, hknown, hwebhook, hslack, hdiscord, hteams, hlark, hcloud, hwebex, -⟩ :=
    exists_knownMembers_recordBy known s.fields (by decide) rfl how
  have hchat (url : String) (how : Spelling) : urlOfSource chatMembers "webhookUrl"
      (urlJsonBy ⟨"webhookUrl", ["webhookurl"]⟩ how url) = some url :=
    urlOfSource_urlJsonBy (by decide) how url
  have hwebhook : memberOr es "webhook" WebhookSettings.ofSource .none = some s.webhook :=
    memberOr_of hwebhook fun how => WebhookSettings.ofSource_toJsonBy how s.webhook
  have hslack : memberOr es "slackWebhook" SlackSettings.ofSource .none = some s.slack :=
    memberOr_of hslack fun how => SlackSettings.ofSource_toJsonBy how s.slack
  have hdiscord : memberOr es "discord" (urlOfSource chatMembers "webhookUrl") "" =
      some s.discordUrl := memberOr_of hdiscord (hchat s.discordUrl)
  have hteams : memberOr es "msteams" (urlOfSource chatMembers "webhookUrl") "" =
      some s.teamsUrl := memberOr_of hteams (hchat s.teamsUrl)
  have hlark : memberOr es "lark" (urlOfSource chatMembers "webhookUrl") "" = some s.larkUrl :=
    memberOr_of hlark (hchat s.larkUrl)
  have hcloud : memberOr es "cloudevent" (urlOfSource cloudEventMembers "url") "" =
      some s.cloudEventUrl :=
    memberOr_of hcloud fun how => urlOfSource_urlJsonBy (by decide) how s.cloudEventUrl
  have hwebex : memberOr es "webex" WebexSettings.ofSource .none = some s.webex :=
    memberOr_of hwebex fun how => WebexSettings.ofSource_toJsonBy how s.webex
  simp [ofSource, toJsonBy, hknown, hwebhook, hslack, hdiscord, hteams, hlark, hcloud, hwebex]

end ReceiverSettings

namespace IgnoredSettings

instance decidableEqNone (s : IgnoredSettings) : Decidable (s = none) :=
  decidable_of_iff (s.paths = [] ∧ s.tree = .empty ∧ s.byKind = .empty) <| by
    obtain ⟨paths, tree, byKind⟩ := s
    simp [none]

/-- The members of the settings. -/
def fields (s : IgnoredSettings) : List Field :=
  [.of ⟨"ignore", []⟩ s.paths [] fun _ paths => .array (paths.map .string),
    .of ⟨"ignoredFields", []⟩ s.tree .empty fun _ => IgnoredFields.toJson,
    .of ⟨"ignoredFieldsByKind", []⟩ s.byKind .empty fun _ => tableJson IgnoredFields.toJson]

/-- The settings in a given spelling. -/
def toJsonBy (how : Spelling) (s : IgnoredSettings) : Json :=
  recordBy how s.fields

theorem toJsonBy_plain (s : IgnoredSettings) : s.toJsonBy .plain = s.toJson := rfl

theorem ofSource_toJsonBy (how : Spelling) (s : IgnoredSettings) :
    ofSource (s.toJsonBy how) = some s := by
  obtain ⟨es, hknown, hpaths, htree, hkinds, -⟩ :=
    exists_knownMembers_recordBy known s.fields (by decide) rfl how
  have htexts : (s.paths.map Json.string).mapM Source.text = some s.paths := by
    have hread (path : String) : Source.text (Json.string path) = some (id path) := rfl
    rw [mapM_map hread, List.map_id]
  have hpaths : memberOr es "ignore" (readItems Source.text) [] = some s.paths :=
    memberOr_of hpaths fun _ => htexts
  have htree : memberOr es "ignoredFields" Source.tree .empty = some s.tree :=
    memberOr_of htree fun _ => IgnoredFields.ofJson?_toJson s.tree
  have hkinds : memberOr es "ignoredFieldsByKind" (readTable Source.tree) .empty = some s.byKind :=
    memberOr_of hkinds fun _ => readTable_tableJson IgnoredFields.ofJson?_toJson s.byKind
  simp [ofSource, toJsonBy, hknown, hpaths, htree, hkinds]

end IgnoredSettings

namespace CustomResource

/-- The parts of a description. -/
def fields (r : CustomResource) : List Field :=
  [.text ⟨"group", []⟩ r.group, .required ⟨"version", []⟩ r.version .string,
    .required ⟨"resource", []⟩ r.resource .string, .optional ⟨"kind", []⟩ r.kind .string,
    .of ⟨"namespaced", []⟩ r.namespaced true fun _ => .bool]

/-- A description in a given spelling. -/
def toJsonBy (how : Spelling) (r : CustomResource) : Json :=
  recordBy how r.fields

theorem toJsonBy_plain (r : CustomResource) : r.toJsonBy .plain = r.toJson := by
  obtain ⟨group, version, resource, kind, namespaced⟩ := r
  cases kind <;> rfl

theorem ofSource_toJsonBy (how : Spelling) (r : CustomResource) :
    ofSource (r.toJsonBy how) = some r := by
  obtain ⟨es, hknown, hgroup, hversion, hresource, hkind, hnamespaced, -⟩ :=
    exists_knownMembers_recordBy known r.fields (by decide) rfl how
  have hgroup : memberOr es "group" Source.text "" = some r.group := memberOr_of hgroup fun _ => rfl
  have hversion (place : Json) : memberOf place es "version" Source.text = some r.version :=
    memberOf_required hversion rfl place
  have hresource (place : Json) : memberOf place es "resource" Source.text = some r.resource :=
    memberOf_required hresource rfl place
  have hkind : memberOr es "kind" (readOptional Source.text) none = some r.kind :=
    memberOr_optional hkind fun _ => rfl
  have hnamespaced : memberOr es "namespaced" Source.flag true = some r.namespaced :=
    memberOr_of hnamespaced fun _ => rfl
  simp [ofSource, toJsonBy, hknown, hgroup, hversion, hresource, hkind, hnamespaced]

end CustomResource

/-! ### Whole configurations -/

namespace Config

/-- The members of a configuration. -/
def fields (c : Config) : List Field :=
  [.of ⟨"handler", []⟩ c.receivers .none ReceiverSettings.toJsonBy,
    .of ⟨"resource", []⟩ c.switches .empty fun _ => tableJson .bool,
    .of ⟨"customResources", []⟩ c.customResources [] fun how rs =>
      .array (rs.mapIdx fun i => CustomResource.toJsonBy (how.within (.item i))),
    .text ⟨"namespace", []⟩ c.namespaceName, .text ⟨"instanceName", []⟩ c.instanceName,
    .of ⟨"diff", []⟩ c.ignored .none IgnoredSettings.toJsonBy,
    .optional ⟨"listenAddress", []⟩ c.listenAddress .string,
    .optional ⟨"syncTimeoutSeconds", []⟩ c.syncTimeout fun n => .int n.toNat]

/-- A configuration in a given spelling. -/
def toJsonBy (how : Spelling) (c : Config) : Json :=
  recordBy how c.fields

/-- A configuration is usually written in the plain spelling. -/
theorem toJsonBy_plain (c : Config) : c.toJsonBy .plain = c.toJson := by
  obtain ⟨receivers, switches, resources, namespaceName, instanceName, ignored, address, timeout⟩ :=
    c
  have hresources (rs : List CustomResource) :
      (rs.mapIdx fun _ => CustomResource.toJsonBy .plain) = rs.map CustomResource.toJson := by
    induction rs with
    | nil => rfl
    | cons r rs ih => rw [List.mapIdx_cons, ih, r.toJsonBy_plain, List.map_cons]
  simp only [toJsonBy, recordBy, fields, List.filterMap_cons, List.filterMap_nil,
    Field.written?_plain, Field.of, Spelling.within_plain, hresources, toJson]
  cases address <;> cases timeout <;> rfl

theorem ofSource_toJsonBy (how : Spelling) (c : Config) : ofSource (c.toJsonBy how) = some c := by
  obtain ⟨es, hknown, hreceivers, hswitches, hresources, hnamespace, hinstance, hignored, haddress,
    htimeout, -⟩ :=
    exists_knownMembers_recordBy known c.fields (by decide) rfl how
  have hreceivers : memberOr es "handler" ReceiverSettings.ofSource .none = some c.receivers :=
    memberOr_of hreceivers fun how => ReceiverSettings.ofSource_toJsonBy how c.receivers
  have hswitches : memberOr es "resource" (readTable Source.flag) .empty = some c.switches :=
    have hread (on : Bool) : Source.flag (Json.bool on) = some on := rfl
    memberOr_of hswitches fun _ => readTable_tableJson hread c.switches
  have hresources : memberOr es "customResources" (readItems CustomResource.ofSource) [] =
      some c.customResources :=
    memberOr_of hresources fun how => mapM_mapIdx
      (fun i => CustomResource.ofSource_toJsonBy (how.within (.item i))) c.customResources
  have hnamespace : memberOr es "namespace" Source.text "" = some c.namespaceName :=
    memberOr_of hnamespace fun _ => rfl
  have hinstance : memberOr es "instanceName" Source.text "" = some c.instanceName :=
    memberOr_of hinstance fun _ => rfl
  have hignored : memberOr es "diff" IgnoredSettings.ofSource .none = some c.ignored :=
    memberOr_of hignored fun how => IgnoredSettings.ofSource_toJsonBy how c.ignored
  have haddress : memberOr es "listenAddress" (readOptional Source.text) none =
      some c.listenAddress := memberOr_optional haddress fun _ => rfl
  have htimeout : memberOr es "syncTimeoutSeconds" (readOptional Source.count) none =
      some c.syncTimeout :=
    memberOr_optional htimeout fun n => readOptional_of rfl (count?_int n)
  simp [ofSource, toJsonBy, hknown, hreceivers, hswitches, hresources, hnamespace, hinstance,
    hignored, haddress, htimeout]

/-- **A configuration is read back from each of its spellings.**  Among these is the document that
a configuration is usually written to, and so are those in which, at any places, older names stand
for members and members with the value of a missing one are left out. -/
theorem read_back (c : Config) :
    c.toJsonBy .plain = c.toJson ∧ ofJson? c.toJson = some c ∧
      ∀ how, ofJson? (c.toJsonBy how) = some c := by
  have hread (how : Spelling) : ofJson? (c.toJsonBy how) = some c := ofSource_toJsonBy how c
  exact ⟨c.toJsonBy_plain, c.toJsonBy_plain ▸ hread .plain, hread⟩

-- the shortest document of a configuration with two receivers, all of it in older names
example :
    let slack : SlackSettings := ⟨"https://a", "", "", ""⟩
    let receivers : ReceiverSettings := { ReceiverSettings.none with slack, larkUrl := "https://b" }
    toJsonBy ⟨fun _ => true, fun _ => true⟩ { initial with receivers } =
      .object [("handler", .object [("lark", .object [("webhookurl", .string "https://b")]),
        ("slackwebhook", .object [("slackwebhookurl", .string "https://a")])])] := rfl

end Config

end ClusterHerald
