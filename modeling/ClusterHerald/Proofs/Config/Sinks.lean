import ClusterHerald.Proofs.Config.Gaps
import ClusterHerald.Proofs.Config.Kinds
import ClusterHerald.Sink.Setup

/-!
# The sinks of a configuration and its environment

A setting has the text of the file, or else the value of its variable (`Config.Sets`).  A kind of
sinks is enabled if the settings that it needs have one, and its sink is then told by these settings
(`Config.Runs`): setting it up gives that sink and no other (`Config.setUp_eq_ok_iff`).

What can go wrong is that Webex has a token and no room, or a room and no token, and that the file
of the authority of the generic receiver is refused.  Whether it is, and what a client trusts
because of it, is up to the library (`ClientLibrary`).  A file with which a client can be made is
not refused, although no authority may be loaded from it.  So it goes wrong as one expects exactly
if there is no such file, or Webex is half set anyway (`Config.sinks_follow_settings`).

Such files exist if a library passes over what stands outside of the sections of a file, as is usual
(`ClientLibrary.PassesOver`): then every file without a section is one
(`Config.exists_sinks_of_passesOver`).
-/

namespace ClusterHerald

/-! ### Files of certificates -/

/-- How a section of a file begins. -/
def ClientLibrary.opening : List UInt8 := "-----BEGIN ".toUTF8.data.toList

/-- What stands outside of the sections of a file is passed over: octets in which no section begins
are taken in, and nothing is trusted because of them. -/
def ClientLibrary.PassesOver (library : ClientLibrary) : Prop :=
  ∀ octets, ¬ opening <:+: octets →
    ∃ certificate, library.ofOctets octets = .ok certificate ∧
      library.authorities? certificate = some []

namespace CertificateFile

/-- A client can be made with a file, and trusts authorities because of it. -/
inductive Gives (library : ClientLibrary) : CertificateFile → List library.Authority → Prop
  | intro {octets : List UInt8} {certificate : library.Certificate}
    {authorities : List library.Authority} (htaken : library.ofOctets octets = .ok certificate)
    (hmade : library.authorities? certificate = some authorities) :
    Gives library (.read octets) authorities

/-- An authority can be loaded from a file. -/
def Loads (library : ClientLibrary) (file : CertificateFile) : Prop :=
  ∃ authorities, file.Gives library authorities ∧ authorities ≠ []

/-- A client can be made with a file, and trusts nobody because of it. -/
def Bare (library : ClientLibrary) (file : CertificateFile) : Prop := file.Gives library []

/-- A file cannot be read, is not taken for a certificate, or there is no client with it. -/
def Refused (library : ClientLibrary) (file : CertificateFile) : Prop :=
  ¬ ∃ authorities, file.Gives library authorities

variable {library : ClientLibrary} {file : CertificateFile}

theorem authorities_eq_ok_iff {path : String} {authorities : List library.Authority} :
    file.authorities library path = .ok authorities ↔ file.Gives library authorities := by
  constructor
  · intro h
    cases file with
    | unreadable fault => cases h
    | read octets =>
      simp only [CertificateFile.authorities] at h
      cases htaken : library.ofOctets octets with
      | error fault =>
        rw [htaken] at h
        cases h
      | ok certificate =>
        simp only [htaken, Except.mapError, bind, Except.bind] at h
        split at h
        · next hmade =>
          cases h
          exact .intro htaken hmade
        · cases h
  · rintro ⟨htaken, hmade⟩
    simp only [CertificateFile.authorities, htaken, Except.mapError, bind, Except.bind, hmade]

theorem Gives.unique {authorities authorities' : List library.Authority}
    (h : file.Gives library authorities) (h' : file.Gives library authorities') :
    authorities = authorities' := by
  obtain ⟨htaken, hmade⟩ := h
  obtain ⟨htaken', hmade'⟩ := h'
  cases htaken.symm.trans htaken'
  exact Option.some.inj (hmade.symm.trans hmade')

theorem Bare.not_loads (h : file.Bare library) : ¬ file.Loads library :=
  fun ⟨_, hgives, hne⟩ => hne (hgives.unique h)

theorem Bare.not_refused (h : file.Bare library) : ¬ file.Refused library := fun hnot => hnot ⟨_, h⟩

/-- A file is refused, or it is bare, or an authority can be loaded from it. -/
theorem not_loads_iff : ¬ file.Loads library ↔ file.Refused library ∨ file.Bare library := by
  constructor
  · intro hnot
    refine or_iff_not_imp_left.2 fun hgives => ?_
    obtain ⟨authorities, hgives⟩ := not_not.1 hgives
    rwa [Bare, ← not_not.1 fun hne => hnot ⟨authorities, hgives, hne⟩]
  · rintro (hrefused | hbare)
    · exact fun ⟨_, hgives, _⟩ => hrefused ⟨_, hgives⟩
    · exact hbare.not_loads

theorem bare_of_passesOver (h : library.PassesOver) {octets : List UInt8}
    (hnone : ¬ ClientLibrary.opening <:+: octets) : (read octets).Bare library :=
  (h octets hnone).elim fun _ ⟨htaken, hmade⟩ => .intro htaken hmade

end CertificateFile

/-! ### Settings -/

namespace TextSetting

/-- Where the generic receiver is. -/
def webhookUrl : TextSetting := ⟨"KW_WEBHOOK_URL", fun c => c.receivers.webhook.url⟩

/-- Where the certificate of the generic receiver's authority is. -/
def certificate : TextSetting := ⟨"KW_WEBHOOK_CERT", fun c => c.receivers.webhook.certificate⟩

/-- Where Slack is. -/
def slackUrl : TextSetting := ⟨"KW_SLACK_WEBHOOK_URL", fun c => c.receivers.slack.url⟩

/-- Where Discord is. -/
def discordUrl : TextSetting := ⟨"KW_DISCORD_WEBHOOKURL", fun c => c.receivers.discordUrl⟩

/-- Where Teams is. -/
def teamsUrl : TextSetting := ⟨"KW_MSTEAMS_WEBHOOKURL", fun c => c.receivers.teamsUrl⟩

/-- Where Lark is. -/
def larkUrl : TextSetting := ⟨"KW_LARK_WEBHOOK_URL", fun c => c.receivers.larkUrl⟩

/-- Where cloud events go. -/
def cloudEventUrl : TextSetting := ⟨"KW_CLOUDEVENT_URL", fun c => c.receivers.cloudEventUrl⟩

/-- The token with which Webex is entered. -/
def webexToken : TextSetting := ⟨"WEBEX_ACCESS_TOKEN", fun c => c.receivers.webex.token⟩

/-- The room of Webex that gets the messages. -/
def webexRoom : TextSetting := ⟨"WEBEX_ROOM", fun c => c.receivers.webex.room⟩

/-- Where Webex is, if not at its public address. -/
def webexUrl : TextSetting := ⟨"WEBEX_URL", fun c => c.receivers.webex.url⟩

end TextSetting

/-- The settings that a kind of sinks needs. -/
def SinkKind.needs : SinkKind → List TextSetting
  | .webhook => [.webhookUrl]
  | .slack => [.slackUrl]
  | .discord => [.discordUrl]
  | .teams => [.teamsUrl]
  | .lark => [.larkUrl]
  | .cloudEvent => [.cloudEventUrl]
  | .webex => [.webexToken, .webexRoom]
  | .log => []

namespace Config

/-- The text of a setting: that of the file, or else the value of its variable. -/
inductive Sets (c : Config) (env : Environment) (s : TextSetting) : String → Prop
  | file (h : s.get c ≠ "") : Sets c env s (s.get c)
  | environment {value : String} (h : s.get c = "") (ho : env.Offers s.envName value) :
    Sets c env s value

/-- Every setting that a kind of sinks needs has a text. -/
def Enables (c : Config) (env : Environment) (kind : SinkKind) : Prop :=
  ∀ s ∈ kind.needs, ∃ text, c.Sets env s text

/-- The sink of a kind.  It tells its receiver the name of the instance, which may be empty. -/
inductive Runs (c : Config) (env : Environment) : SinkKind → Sink → Prop
  | webhook {url : String} (h : c.Sets env .webhookUrl url) :
    Runs c env .webhook (.webhook url (c.filled env).instanceName)
  | slack {url : String} (h : c.Sets env .slackUrl url) :
    Runs c env .slack (.slack url c.receivers.slack.channel c.receivers.slack.username
      c.receivers.slack.emoji (c.filled env).instanceName)
  | discord {url : String} (h : c.Sets env .discordUrl url) :
    Runs c env .discord (.discord url (c.filled env).instanceName)
  | teams {url : String} (h : c.Sets env .teamsUrl url) :
    Runs c env .teams (.teams url (c.filled env).instanceName)
  | lark {url : String} (h : c.Sets env .larkUrl url) :
    Runs c env .lark (.lark url (c.filled env).instanceName)
  | cloudEvent {url : String} (h : c.Sets env .cloudEventUrl url) :
    Runs c env .cloudEvent (.cloudEvent url (c.filled env).instanceName)
  | webex {url token room : String} (ht : c.Sets env .webexToken token)
    (hr : c.Sets env .webexRoom room)
    (hu : c.Sets env .webexUrl url ∨
      (¬ ∃ text, c.Sets env .webexUrl text) ∧ url = publicWebexUrl) :
    Runs c env .webex (.webex url token room (c.filled env).instanceName)
  | log : Runs c env .log (.log (c.filled env).instanceName)

/-- Webex has a token and no room, or a room and no token. -/
def HalfSet (c : Config) (env : Environment) : Prop :=
  ¬ ((∃ token, c.Sets env .webexToken token) ↔ ∃ room, c.Sets env .webexRoom room)

/-- The generic receiver is enabled, its certificate is checked, and the file of its authority has
the property. -/
structure Trusts (c : Config) (env : Environment) (files : String → CertificateFile)
    (p : CertificateFile → Prop) : Prop where
  enabled : c.Enables env .webhook
  checked : c.receivers.webhook.skipsCheck = false
  exists_file : ∃ path, c.Sets env .certificate path ∧ p (files path)

/-- The sinks of the kinds that are enabled, each once and in the order of delivery, or the log if
there are none. -/
structure Feeds (c : Config) (env : Environment) (sinks : List Sink) : Prop where
  nonempty : sinks ≠ []
  exists_kinds : ∃ on : List SinkKind, on.Sublist SinkKind.posting ∧ on.Nodup ∧
    (∀ kind ∈ SinkKind.posting, kind ∈ on ↔ c.Enables env kind) ∧
    List.Forall₂ (c.Runs env) (if on = [] then [.log] else on) sinks

variable {c : Config} {env : Environment} {library : ClientLibrary}
  {files : String → CertificateFile} {s : TextSetting} {text : String} {kind : SinkKind}
  {sink : Sink} {sinks : List Sink}

/-! ### Single sinks -/

theorem sets_iff (hs : s ∈ textSettings) :
    c.Sets env s text ↔ s.get (c.filled env) = text ∧ text ≠ "" := by
  rw [get_filled c env s hs]
  by_cases hgap : s.get c = ""
  · rw [Environment.fill, if_pos hgap]
    constructor
    · rintro (hfile | ⟨-, ho⟩)
      · exact absurd hgap hfile
      · rw [Environment.value?_eq_some_iff.2 ho]
        exact ⟨rfl, ho.2⟩
    · rintro ⟨rfl, hne⟩
      cases hvalue : env.value? s.envName with
      | none => rw [hvalue] at hne; exact absurd rfl hne
      | some value => exact .environment hgap (Environment.value?_eq_some_iff.1 hvalue)
  · rw [Environment.fill, if_neg hgap]
    constructor
    · rintro (hfile | ⟨hempty, -⟩)
      · exact ⟨rfl, hfile⟩
      · exact absurd hempty hgap
    · rintro ⟨rfl, hne⟩
      exact .file hne

theorem exists_sets_iff (hs : s ∈ textSettings) :
    (∃ text, c.Sets env s text) ↔ s.get (c.filled env) ≠ "" := by
  simp only [sets_iff hs]
  exact ⟨fun ⟨_, rfl, hne⟩ => hne, fun hne => ⟨_, rfl, hne⟩⟩

theorem needs_subset (kind : SinkKind) : kind.needs ⊆ textSettings := by
  cases kind <;> simp [SinkKind.needs, textSettings, TextSetting.webhookUrl,
    TextSetting.slackUrl, TextSetting.discordUrl, TextSetting.teamsUrl, TextSetting.larkUrl,
    TextSetting.cloudEventUrl, TextSetting.webexToken, TextSetting.webexRoom]

/-- A sink that needs an address has the one of its setting. -/
theorem requireUrl_eq_ok_iff (hs : s ∈ textSettings) (make : String → Sink) :
    (make (s.get (c.filled env))).requireUrl (s.get (c.filled env)) = .ok sink ↔
      ∃ url, c.Sets env s url ∧ make url = sink := by
  simp only [sets_iff hs, Sink.requireUrl]
  generalize s.get (c.filled env) = url
  by_cases h : url = "" <;> simp [h]

theorem exists_authorities_iff :
    (∃ authorities, (c.filled env).receivers.webhook.authorities library files = .ok authorities) ↔
      (c.receivers.webhook.skipsCheck = false → ∀ path, c.Sets env .certificate path →
        ¬ (files path).Refused library) := by
  simp only [sets_iff (s := .certificate) (by simp [textSettings, TextSetting.certificate])]
  have hskips : (c.filled env).receivers.webhook.skipsCheck = c.receivers.webhook.skipsCheck := rfl
  simp only [WebhookSettings.authorities, hskips, TextSetting.certificate]
  generalize (c.filled env).receivers.webhook.certificate = path
  cases c.receivers.webhook.skipsCheck with
  | true => simp
  | false =>
    by_cases hpath : path = ""
    · simp [hpath]
    · simp [hpath, CertificateFile.Refused, CertificateFile.authorities_eq_ok_iff]

theorem not_trusts_iff (h : c.Enables env .webhook) {p : CertificateFile → Prop} :
    ¬ c.Trusts env files p ↔ (c.receivers.webhook.skipsCheck = false →
      ∀ path, c.Sets env .certificate path → ¬ p (files path)) :=
  ⟨fun hnot hchecked path hpath hp => hnot ⟨h, hchecked, path, hpath, hp⟩,
    fun hall ⟨_, hchecked, path, hpath, hp⟩ => hall hchecked path hpath hp⟩

/-- Webex is at the address of its setting, or else at the public one. -/
theorem webexAddress_iff {url : String} :
    (c.Sets env .webexUrl url ∨ (¬ ∃ text, c.Sets env .webexUrl text) ∧ url = publicWebexUrl) ↔
      (if (c.filled env).receivers.webex.url = "" then publicWebexUrl
        else (c.filled env).receivers.webex.url) = url := by
  have hurl : TextSetting.webexUrl ∈ textSettings := by
    simp [textSettings, TextSetting.webexUrl]
  rw [exists_sets_iff hurl, sets_iff hurl, not_not]
  change (c.filled env).receivers.webex.url = url ∧ _ ∨
    (c.filled env).receivers.webex.url = "" ∧ _ ↔ _
  generalize (c.filled env).receivers.webex.url = text
  by_cases hempty : text = ""
  · have hnone : ¬ (text = url ∧ url ≠ "") := fun h => h.2 (h.1 ▸ hempty)
    rw [or_iff_right hnone, and_iff_right hempty, if_pos hempty, eq_comm]
  · rw [or_iff_left fun h => hempty h.1, if_neg hempty, and_iff_left_iff_imp]
    rintro rfl
    exact hempty

theorem setUp_webex_eq_ok_iff :
    SinkKind.webex.setUp (c.filled env) library files = .ok sink ↔ c.Runs env .webex sink := by
  have hsub := needs_subset .webex
  have htoken : TextSetting.webexToken ∈ textSettings := hsub (.head _)
  have hroom : TextSetting.webexRoom ∈ textSettings := hsub (.tail _ (.head _))
  simp only [SinkKind.setUp, Bool.or_eq_true, decide_eq_true_eq]
  constructor
  · intro h
    split at h
    · cases h
    · next hgiven =>
      obtain ⟨ht, hr⟩ := not_or.1 hgiven
      cases h
      exact .webex ((sets_iff htoken).2 ⟨rfl, ht⟩) ((sets_iff hroom).2 ⟨rfl, hr⟩)
        (webexAddress_iff.2 rfl)
  · intro h
    cases h with
    | webex ht hr hu =>
      obtain ⟨rfl, ht⟩ := (sets_iff htoken).1 ht
      obtain ⟨rfl, hr⟩ := (sets_iff hroom).1 hr
      rw [webexAddress_iff.1 hu]
      exact if_neg (not_or.2 ⟨ht, hr⟩)

/-- A sink can be set up if its settings have a text, and for the generic receiver if the file of
its authority is not refused; and then it is the sink that runs by these settings. -/
theorem setUp_eq_ok_iff :
    kind.setUp (c.filled env) library files = .ok sink ↔ c.Runs env kind sink ∧
      (kind = .webhook → ¬ c.Trusts env files (CertificateFile.Refused library)) := by
  have hmem := needs_subset kind
  cases kind with
  | webhook =>
    have hok : SinkKind.webhook.setUp (c.filled env) library files = .ok sink ↔
        (∃ url, c.Sets env .webhookUrl url ∧ .webhook url (c.filled env).instanceName = sink) ∧
          ∃ authorities, (c.filled env).receivers.webhook.authorities library files =
            .ok authorities := by
      rw [← requireUrl_eq_ok_iff (hmem (.head _)) (fun url => .webhook url _)]
      simp only [SinkKind.setUp, bind, Except.bind, TextSetting.webhookUrl]
      cases Sink.requireUrl _ _ <;>
        cases (c.filled env).receivers.webhook.authorities library files <;>
        simp [pure, Except.pure]
    rw [hok, exists_authorities_iff]
    constructor
    · rintro ⟨⟨url, hurl, rfl⟩, haccepted⟩
      have henables : c.Enables env .webhook := List.forall_mem_singleton.2 ⟨url, hurl⟩
      exact ⟨.webhook hurl, fun _ => (not_trusts_iff henables).2 haccepted⟩
    · rintro ⟨hruns, hnot⟩
      cases hruns with
      | webhook hurl =>
        have henables : c.Enables env .webhook := List.forall_mem_singleton.2 ⟨_, hurl⟩
        exact ⟨⟨_, hurl, rfl⟩, (not_trusts_iff henables).1 (hnot rfl)⟩
  | slack =>
    exact (requireUrl_eq_ok_iff (hmem (.head _)) (fun url => .slack url _ _ _ _)).trans
      ⟨fun ⟨_, hurl, h⟩ => ⟨h ▸ .slack hurl, nofun⟩, fun ⟨.slack hurl, _⟩ => ⟨_, hurl, rfl⟩⟩
  | discord =>
    exact (requireUrl_eq_ok_iff (hmem (.head _)) (fun url => .discord url _)).trans
      ⟨fun ⟨_, hurl, h⟩ => ⟨h ▸ .discord hurl, nofun⟩, fun ⟨.discord hurl, _⟩ => ⟨_, hurl, rfl⟩⟩
  | teams =>
    exact (requireUrl_eq_ok_iff (hmem (.head _)) (fun url => .teams url _)).trans
      ⟨fun ⟨_, hurl, h⟩ => ⟨h ▸ .teams hurl, nofun⟩, fun ⟨.teams hurl, _⟩ => ⟨_, hurl, rfl⟩⟩
  | lark =>
    exact (requireUrl_eq_ok_iff (hmem (.head _)) (fun url => .lark url _)).trans
      ⟨fun ⟨_, hurl, h⟩ => ⟨h ▸ .lark hurl, nofun⟩, fun ⟨.lark hurl, _⟩ => ⟨_, hurl, rfl⟩⟩
  | cloudEvent =>
    exact (requireUrl_eq_ok_iff (hmem (.head _)) (fun url => .cloudEvent url _)).trans
      ⟨fun ⟨_, hurl, h⟩ => ⟨h ▸ .cloudEvent hurl, nofun⟩,
        fun ⟨.cloudEvent hurl, _⟩ => ⟨_, hurl, rfl⟩⟩
  | webex => exact setUp_webex_eq_ok_iff.trans (and_iff_left nofun).symm
  | log =>
    rw [and_iff_left nofun]
    constructor
    · rintro ⟨⟩
      exact .log
    · rintro ⟨⟩
      rfl

/-! ### All sinks -/

theorem enables_webex_iff : c.Enables env .webex ↔
    (∃ token, c.Sets env .webexToken token) ∧ ∃ room, c.Sets env .webexRoom room := by
  simp [Enables, SinkKind.needs]

theorem exists_runs_iff : (∃ sink, c.Runs env kind sink) ↔ c.Enables env kind := by
  constructor
  · rintro ⟨sink, hruns⟩
    cases hruns with
    | webhook h | slack h | discord h | teams h | lark h | cloudEvent h =>
      exact List.forall_mem_singleton.2 ⟨_, h⟩
    | webex ht hr => exact enables_webex_iff.2 ⟨⟨_, ht⟩, _, hr⟩
    | log => exact nofun
  · intro h
    cases kind with
    | webhook => exact (h _ (.head _)).elim fun _ hurl => ⟨_, .webhook hurl⟩
    | slack => exact (h _ (.head _)).elim fun _ hurl => ⟨_, .slack hurl⟩
    | discord => exact (h _ (.head _)).elim fun _ hurl => ⟨_, .discord hurl⟩
    | teams => exact (h _ (.head _)).elim fun _ hurl => ⟨_, .teams hurl⟩
    | lark => exact (h _ (.head _)).elim fun _ hurl => ⟨_, .lark hurl⟩
    | cloudEvent => exact (h _ (.head _)).elim fun _ hurl => ⟨_, .cloudEvent hurl⟩
    | webex =>
      obtain ⟨⟨token, ht⟩, room, hr⟩ := enables_webex_iff.1 h
      exact ⟨_, .webex ht hr (webexAddress_iff.2 rfl)⟩
    | log => exact ⟨_, .log⟩

/-- A kind that posts is tried as soon as one of its settings has a text. -/
theorem isEnabled_iff (h : kind ∈ SinkKind.posting) :
    kind.isEnabled (c.filled env).receivers = true ↔
      ∃ s ∈ kind.needs, ∃ text, c.Sets env s text := by
  have hiff : (∃ s ∈ kind.needs, ∃ text, c.Sets env s text) ↔
      ∃ s ∈ kind.needs, s.get (c.filled env) ≠ "" :=
    exists_congr fun s => and_congr_right fun hs => exists_sets_iff (needs_subset kind hs)
  rw [hiff]
  cases kind <;> simp [SinkKind.isEnabled, SinkKind.needs, TextSetting.webhookUrl,
    TextSetting.slackUrl, TextSetting.discordUrl, TextSetting.teamsUrl, TextSetting.larkUrl,
    TextSetting.cloudEventUrl, TextSetting.webexToken, TextSetting.webexRoom]
  exact absurd h (by decide)

/-- A kind that has what it needs is tried.  Without what it needs only Webex is tried, if it is
half set. -/
theorem isEnabled_iff_enables (h : kind ∈ SinkKind.posting) (hfull : ¬ c.HalfSet env) :
    kind.isEnabled (c.filled env).receivers = true ↔ c.Enables env kind := by
  rw [isEnabled_iff h]
  cases kind with
  | webex =>
    rw [enables_webex_iff, ← not_not.1 hfull, and_self]
    simp [SinkKind.needs, ← not_not.1 hfull]
  | log => exact absurd h (by decide)
  | _ => simp [Enables, SinkKind.needs]

theorem mem_sinkKinds_iff : kind ∈ c.sinkKinds ↔
    (kind ∈ SinkKind.posting ∧ kind.isEnabled c.receivers = true) ∨
      (kind = .log ∧ SinkKind.posting.filter (SinkKind.isEnabled c.receivers) = []) := by
  rw [← List.mem_filter, sinkKinds]
  split
  · next hnone => simp [hnone]
  · next hsome => exact (or_iff_left fun h => hsome h.2).symm

/-- Without half of Webex just the kinds that are enabled are tried. -/
theorem feeds_iff (hfull : ¬ c.HalfSet env) :
    c.Feeds env sinks ↔ List.Forall₂ (c.Runs env) (c.filled env).sinkKinds sinks := by
  have hposting : SinkKind.posting.Nodup := by decide
  have hkinds (on : List SinkKind)
      (hon : on = SinkKind.posting.filter (SinkKind.isEnabled (c.filled env).receivers)) :
      (c.filled env).sinkKinds = if on = [] then [.log] else on := by
    rw [sinkKinds, ← hon]
    cases on <;> rfl
  constructor
  · rintro ⟨-, on, hsub, -, hon, hruns⟩
    have hon := eq_filter_of_sublist hposting hsub
      fun kind hkind => (hon kind hkind).trans (isEnabled_iff_enables hkind hfull).symm
    rwa [hkinds on hon]
  · intro hruns
    refine ⟨?_, _, List.filter_sublist, hposting.filter _, fun kind hkind => ?_,
      hkinds _ rfl ▸ hruns⟩
    · rintro rfl
      have hnone := List.forall₂_nil_right_iff.1 hruns
      rw [hkinds _ rfl] at hnone
      split at hnone
      · cases hnone
      · next hsome => exact hsome hnone
    · rw [List.mem_filter, isEnabled_iff_enables hkind hfull]
      exact and_iff_right hkind

/-- Webex that is half set is tried, but it does not have what it needs. -/
theorem HalfSet.exists_not_enables (h : c.HalfSet env) :
    ∃ kind ∈ (c.filled env).sinkKinds, ¬ c.Enables env kind := by
  have hmem : SinkKind.webex ∈ SinkKind.posting := by decide
  have hsome : ∃ s ∈ SinkKind.webex.needs, ∃ text, c.Sets env s text := by
    by_contra hnone
    refine h (iff_of_false (fun ht => hnone ⟨_, .head _, ht⟩) fun hr => hnone ?_)
    exact ⟨_, .tail _ (.head _), hr⟩
  refine ⟨.webex, mem_sinkKinds_iff.2 (.inl ⟨hmem, (isEnabled_iff hmem).2 hsome⟩), fun hall => ?_⟩
  obtain ⟨ht, hr⟩ := enables_webex_iff.1 hall
  exact h (iff_of_true ht hr)

theorem Trusts.mem_sinkKinds {p : CertificateFile → Prop} (h : c.Trusts env files p) :
    .webhook ∈ (c.filled env).sinkKinds := by
  have hmem : SinkKind.webhook ∈ SinkKind.posting := by decide
  have hsome : ∃ s ∈ SinkKind.webhook.needs, ∃ text, c.Sets env s text :=
    ⟨_, .head _, h.enabled _ (.head _)⟩
  exact mem_sinkKinds_iff.2 (.inl ⟨hmem, (isEnabled_iff hmem).2 hsome⟩)

/-- The sinks can be set up if nothing is half set or refused. -/
theorem exists_sinks_iff : (∃ sinks, (c.filled env).sinks library files = .ok sinks) ↔
    ¬ c.HalfSet env ∧ ¬ c.Trusts env files (CertificateFile.Refused library) := by
  simp only [Config.sinks, exists_mapM_eq_ok_iff, setUp_eq_ok_iff, exists_and_right,
    exists_runs_iff]
  constructor
  · intro hall
    refine ⟨fun hhalf => ?_, fun htrusts => (hall _ htrusts.mem_sinkKinds).2 rfl htrusts⟩
    obtain ⟨kind, hkind, hnot⟩ := hhalf.exists_not_enables
    exact hnot (hall kind hkind).1
  · rintro ⟨hfull, hfile⟩ kind hkind
    refine ⟨?_, fun _ => hfile⟩
    obtain ⟨hposting, hon⟩ | ⟨rfl, -⟩ := mem_sinkKinds_iff.1 hkind
    · exact (isEnabled_iff_enables hposting hfull).1 hon
    · exact nofun

theorem sinks_eq_ok_iff : (c.filled env).sinks library files = .ok sinks ↔
    ¬ c.HalfSet env ∧ ¬ c.Trusts env files (CertificateFile.Refused library) ∧
      c.Feeds env sinks := by
  rw [← and_assoc, ← exists_sinks_iff]
  constructor
  · intro hsinks
    have hfull := (exists_sinks_iff.1 ⟨sinks, hsinks⟩).1
    refine ⟨⟨sinks, hsinks⟩, (feeds_iff hfull).2 ?_⟩
    exact (mapM_eq_ok_iff.1 hsinks).imp fun _ _ hsetUp => (setUp_eq_ok_iff.1 hsetUp).1
  · rintro ⟨hsome, hfeeds⟩
    obtain ⟨hfull, hfile⟩ := exists_sinks_iff.1 hsome
    exact mapM_eq_ok_iff.2 (((feeds_iff hfull).1 hfeeds).imp fun _ _ hruns =>
      setUp_eq_ok_iff.2 ⟨hruns, fun _ => hfile⟩)

theorem exists_error_iff : (∃ e, (c.filled env).sinks library files = .error e) ↔
    c.HalfSet env ∨ c.Trusts env files (CertificateFile.Refused library) := by
  rw [← not_iff_not, not_or, ← exists_sinks_iff]
  cases (c.filled env).sinks library files <;> simp

/-- Only one file is trusted. -/
theorem Trusts.not_trusts {p q : CertificateFile → Prop} (h : c.Trusts env files p)
    (hpq : ∀ file, p file → ¬ q file) : ¬ c.Trusts env files q := by
  have hmem : TextSetting.certificate ∈ textSettings := by
    simp [textSettings, TextSetting.certificate]
  intro h'
  obtain ⟨path, hpath, hp⟩ := h.exists_file
  obtain ⟨path', hpath', hq⟩ := h'.exists_file
  obtain rfl := ((sets_iff hmem).1 hpath).1
  obtain rfl := ((sets_iff hmem).1 hpath').1
  exact hpq _ hp hq

theorem trusts_not_loads_iff : c.Trusts env files (fun file => ¬ file.Loads library) ↔
    c.Trusts env files (CertificateFile.Refused library) ∨
      c.Trusts env files (CertificateFile.Bare library) := by
  constructor
  · rintro ⟨henabled, hchecked, path, hpath, hnot⟩
    exact (CertificateFile.not_loads_iff.1 hnot).imp
      (fun hrefused => ⟨henabled, hchecked, path, hpath, hrefused⟩)
      fun hbare => ⟨henabled, hchecked, path, hpath, hbare⟩
  · rintro (⟨henabled, hchecked, path, hpath, hfile⟩ | ⟨henabled, hchecked, path, hpath, hfile⟩)
    · exact ⟨henabled, hchecked, path, hpath, CertificateFile.not_loads_iff.2 (.inl hfile)⟩
    · exact ⟨henabled, hchecked, path, hpath, CertificateFile.not_loads_iff.2 (.inr hfile)⟩

/-- A library that passes over what stands outside of sections takes every file without a section
for the file of an authority. -/
theorem exists_sinks_of_passesOver (h : library.PassesOver) (hfull : ¬ c.HalfSet env)
    {octets : List UInt8} (hnone : ¬ ClientLibrary.opening <:+: octets)
    (hfile : c.Trusts env files (· = .read octets)) :
    (∃ sinks, (c.filled env).sinks library files = .ok sinks) ∧
      c.Trusts env files (fun file => ¬ file.Loads library) := by
  have hbare : (CertificateFile.read octets).Bare library :=
    CertificateFile.bare_of_passesOver h hnone
  refine ⟨exists_sinks_iff.2 ⟨hfull, hfile.not_trusts ?_⟩, ?_⟩
  · rintro _ rfl
    exact hbare.not_refused
  · obtain ⟨henabled, hchecked, path, hpath, hread⟩ := hfile
    exact ⟨henabled, hchecked, path, hpath, hread ▸ hbare.not_loads⟩

/-- **The sinks follow the settings.**  Whatever the library makes of certificates, they can be set
up unless Webex is half set or the file of the authority is refused, and are then one for each kind
that is enabled, in the order of delivery, or the log alone.  A file from which no authority can be
loaded should be refused too.  This is so exactly unless the generic receiver trusts a file with
which a client can be made that trusts nobody because of it, and Webex is not half set. -/
theorem sinks_follow_settings (library : ClientLibrary) (c : Config) (env : Environment)
    (files : String → CertificateFile) :
    (∀ sinks, (c.filled env).sinks library files = .ok sinks ↔
      ¬ c.HalfSet env ∧ ¬ c.Trusts env files (CertificateFile.Refused library) ∧
        c.Feeds env sinks) ∧
    ((∃ e, (c.filled env).sinks library files = .error e) ↔
      c.HalfSet env ∨ c.Trusts env files (CertificateFile.Refused library)) ∧
    (((∃ e, (c.filled env).sinks library files = .error e) ↔
        c.HalfSet env ∨ c.Trusts env files (fun file => ¬ file.Loads library)) ↔
      c.HalfSet env ∨ ¬ c.Trusts env files (CertificateFile.Bare library)) := by
  refine ⟨fun sinks => sinks_eq_ok_iff, exists_error_iff, ?_⟩
  rw [exists_error_iff, trusts_not_loads_iff]
  by_cases hhalf : c.HalfSet env
  · simp [hhalf]
  · by_cases hbare : c.Trusts env files (CertificateFile.Bare library)
    · have hnot : ¬ c.Trusts env files (CertificateFile.Refused library) :=
        hbare.not_trusts fun _ hfile => hfile.not_refused
      simp [hhalf, hbare, hnot]
    · simp [hhalf, hbare]

/-- A text that has nothing to do with certificates is taken for the file of an authority by a
library that passes over what stands outside of sections. -/
theorem garbled_certificate_accepted :
    ¬ ∀ (library : ClientLibrary) (c : Config) (env : Environment)
        (files : String → CertificateFile), library.PassesOver →
      ((∃ e, (c.filled env).sinks library files = .error e) ↔
        c.HalfSet env ∨ c.Trusts env files (fun file => ¬ file.Loads library)) := by
  intro h
  -- of a file with sections nothing is known here, and so there is no client with it
  let library : ClientLibrary := {
    Certificate := List UInt8
    Authority := Empty
    ofOctets := .ok
    authorities? := fun octets => if ClientLibrary.opening <:+: octets then none else some [] }
  let c : Config := { initial with receivers := { ReceiverSettings.none with
    webhook := ⟨"https://w/", "ca.pem", false⟩ } }
  let env : Environment := fun _ => none
  let garbage : List UInt8 := "garbage".toUTF8.data.toList
  let files : String → CertificateFile := fun _ => .read garbage
  have hpasses : library.PassesOver := fun octets hnone => ⟨octets, rfl, if_neg hnone⟩
  have hurl : c.Sets env .webhookUrl "https://w/" := .file (by decide)
  have hpath : c.Sets env .certificate "ca.pem" := .file (by decide)
  have hfile : c.Trusts env files (· = .read garbage) :=
    ⟨List.forall_mem_singleton.2 ⟨_, hurl⟩, rfl, _, hpath, rfl⟩
  have hfull : ¬ c.HalfSet env := by
    rw [HalfSet, exists_sets_iff (needs_subset .webex (.head _)),
      exists_sets_iff (needs_subset .webex (.tail _ (.head _)))]
    decide
  obtain ⟨⟨sinks, hok⟩, htrusts⟩ :=
    exists_sinks_of_passesOver hpasses hfull (by decide) hfile
  obtain ⟨e, he⟩ := (h library c env files hpasses).2 (.inr htrusts)
  cases he.symm.trans hok

end Config

end ClusterHerald
