import ClusterHerald.Config.Basic

/-!
# Settings from the environment

Environment variables fill the gaps of a configuration: settings that are empty, a listen address
that is not given, and built-in kinds that are not switched on.  A variable that is empty is as good
as none.
-/

namespace ClusterHerald

/-- The values of environment variables. -/
abbrev Environment := String → Option String

namespace Environment

/-- The value of a variable, unless it is empty. -/
def value? (env : Environment) (name : String) : Option String :=
  (env name).filter (· ≠ "")

/-- Whether two texts are equal apart from the case of ASCII letters. -/
def sameIgnoringCase (s t : String) : Bool :=
  s.toList.map Char.toLower = t.toList.map Char.toLower

/-- Whether a variable says `true`. -/
def turnsOn (env : Environment) (name : String) : Bool :=
  (env.value? name).any (sameIgnoringCase · "true")

/-- A setting, or the value of a variable if the setting is empty. -/
def fill (env : Environment) (name setting : String) : String :=
  if setting = "" then (env.value? name).getD "" else setting

/-- The switches with the built-in kinds that are not on and whose variables turn them on. -/
def switchOn (env : Environment) (switches : Table Bool) : Table Bool :=
  Registry.kinds.foldl
    (fun t k => if t.get? k.id ≠ some true ∧ env.turnsOn k.envName then t.insert k.id true else t)
    switches

end Environment

/-- The settings of the receivers with their gaps filled. -/
def ReceiverSettings.filled (s : ReceiverSettings) (env : Environment) : ReceiverSettings :=
  { s with
    webhook := { s.webhook with
      url := env.fill "KW_WEBHOOK_URL" s.webhook.url
      certificate := env.fill "KW_WEBHOOK_CERT" s.webhook.certificate }
    slack := { s.slack with url := env.fill "KW_SLACK_WEBHOOK_URL" s.slack.url }
    discordUrl := env.fill "KW_DISCORD_WEBHOOKURL" s.discordUrl
    teamsUrl := env.fill "KW_MSTEAMS_WEBHOOKURL" s.teamsUrl
    larkUrl := env.fill "KW_LARK_WEBHOOK_URL" s.larkUrl
    cloudEventUrl := env.fill "KW_CLOUDEVENT_URL" s.cloudEventUrl
    webex := {
      token := env.fill "WEBEX_ACCESS_TOKEN" s.webex.token
      room := env.fill "WEBEX_ROOM" s.webex.room
      url := env.fill "WEBEX_URL" s.webex.url } }

/-- The configuration with its gaps filled. -/
def Config.filled (c : Config) (env : Environment) : Config :=
  { c with
    receivers := c.receivers.filled env
    switches := env.switchOn c.switches
    namespaceName := env.fill "WATCH_NAMESPACE" c.namespaceName
    instanceName := env.fill "KUBEWATCH_NAME" c.instanceName
    listenAddress := c.listenAddress.or (env.value? "LISTEN_ADDRESS") }

end ClusterHerald
