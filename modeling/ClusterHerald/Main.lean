import ClusterHerald.Config.File
import ClusterHerald.Controller

/-!
# The command line

Reads the configuration that the environment points to and says what it comes to: the settings that
hold for every kind, the sinks, and where each watched kind is found.  The exit code tells whether
the configuration can be used.

The command takes the library that makes clients (`ClientLibrary`) for an argument.
-/

namespace ClusterHerald.Command

/-- What is found in a file. -/
def readFile (path : String) : IO FileContent := do
  try
    return .text (← IO.FS.readFile path)
  catch
    | .noFileOrDirectory .. => return .missing
    | _ => return .unreadable

/-- What is found where a certificate should be. -/
def readCertificate (path : String) : IO CertificateFile := do
  try
    return .read (← IO.FS.readBinFile path).toList
  catch e => return .unreadable (toString e)

/-- The variables that a configuration looks at. -/
def variableNames : List String :=
  ["KW_CONFIG", "HOME", "WATCH_NAMESPACE", "KUBEWATCH_NAME", "LISTEN_ADDRESS", "KW_WEBHOOK_URL",
    "KW_WEBHOOK_CERT", "KW_SLACK_WEBHOOK_URL", "KW_DISCORD_WEBHOOKURL", "KW_MSTEAMS_WEBHOOKURL",
    "KW_LARK_WEBHOOK_URL", "KW_CLOUDEVENT_URL", "WEBEX_ACCESS_TOKEN", "WEBEX_ROOM", "WEBEX_URL"] ++
    Registry.kinds.map BuiltinKind.envName

/-- The environment of the program. -/
def readEnvironment : IO Environment := do
  let pairs ← variableNames.filterMapM fun name => do
    return (← IO.getEnv name).map fun value => (name, value)
  return fun name => pairs.lookup name

/-- What a configuration comes to, line by line. -/
def summary (c : Config) (kinds : List WatchedKind) (sinks : List Sink) : List String :=
  ["Namespace: " ++ c.namespaceFilter.getD "all namespaces", "Instance: " ++ c.instanceName,
    "Metrics address: " ++ c.metricsAddress, "Sinks: " ++ describeSinks sinks] ++
    kinds.map fun k => "Watching " ++ k.name ++ " at " ++ k.path

/-- The text of an error that has none of its own. -/
def untold : String := "the configuration cannot be read"

/-- Reports an error. -/
def fail (message : Option String) : IO UInt32 := do
  IO.eprintln ("Error: " ++ message.getD untold)
  return 1

/-- Reads the configuration and reports what it comes to. -/
def run (library : ClientLibrary) : IO UInt32 := do
  let env ← readEnvironment
  let content ← readFile (Config.path env)
  match Config.load content env with
  | .error e => fail (ControllerError.config e).message?
  | .ok c =>
    let certificate ← readCertificate c.receivers.webhook.certificate
    match c.kinds, c.sinks library fun _ => certificate with
    | .error e, _ => fail (ControllerError.config e).message?
    | _, .error e => fail (ControllerError.sink e).message?
    | .ok kinds, .ok sinks =>
      for line in summary c kinds sinks do IO.println line
      return 0

end ClusterHerald.Command
