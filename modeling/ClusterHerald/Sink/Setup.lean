import ClusterHerald.Config.Basic
import ClusterHerald.Sink.Basic

/-!
# The sinks of a configuration

Every receiver that the configuration enables gets a sink, in a fixed order.  If there is none,
notices go to the log, so there is always a sink.

A sink that is enabled but cannot be set up is an error.  Of all sinks only the generic one may have
an authority of its own.  What its certificate is worth is decided by the library that makes the
clients (`ClientLibrary`), which is not part of this project.
-/

namespace ClusterHerald

/-- What is found where a certificate should be. -/
inductive CertificateFile where
  | unreadable (fault : String)
  | read (octets : List UInt8)
deriving Repr, DecidableEq

/-- A library that makes clients, as far as the certificates of authorities go. -/
structure ClientLibrary where
  /-- What the octets of a file are taken for. -/
  Certificate : Type
  /-- An authority that a client trusts. -/
  Authority : Type
  /-- Takes the octets of a file for a certificate, or tells what is wrong with them. -/
  ofOctets : List UInt8 → Except String Certificate
  /-- The authorities that a client trusts because of a certificate, if it can be made at all. -/
  authorities? : Certificate → Option (List Authority)

/-- The kinds of sinks that a configuration sets up. -/
inductive SinkKind where
  | webhook
  | slack
  | discord
  | teams
  | lark
  | cloudEvent
  | webex
  | log
deriving Repr, DecidableEq

namespace SinkKind

/-- The kinds of sinks that post to a receiver, in the order of delivery. -/
def posting : List SinkKind := [.webhook, .slack, .discord, .teams, .lark, .cloudEvent, .webex]

/-- The name of a kind of sinks. -/
def name : SinkKind → String
  | .webhook => "webhook"
  | .slack => "slackwebhook"
  | .discord => "discord"
  | .teams => "msteams"
  | .lark => "lark"
  | .cloudEvent => "cloudevent"
  | .webex => "webex"
  | .log => "log"

/-- The kind of a name. -/
def ofName? (name : String) : Option SinkKind :=
  (posting ++ [SinkKind.log]).find? (·.name = name)

/-- Whether a configuration enables a kind of sinks: it has an address, or for Webex a token or a
room.  The log needs no setting. -/
def isEnabled (s : ReceiverSettings) : SinkKind → Bool
  | .webhook => s.webhook.url ≠ ""
  | .slack => s.slack.url ≠ ""
  | .discord => s.discordUrl ≠ ""
  | .teams => s.teamsUrl ≠ ""
  | .lark => s.larkUrl ≠ ""
  | .cloudEvent => s.cloudEventUrl ≠ ""
  | .webex => s.webex.token ≠ "" || s.webex.room ≠ ""
  | .log => true

end SinkKind

/-- The address of the public Webex service. -/
def publicWebexUrl : String := "https://webexapis.com/v1/messages"

/-- The authorities that a client trusts because of a file. -/
def CertificateFile.authorities (library : ClientLibrary) (path : String) :
    CertificateFile → Except SinkError (List library.Authority)
  | .unreadable fault => .error (.unreadableCertificate path fault)
  | .read octets => do
    let certificate ← (library.ofOctets octets).mapError (.invalidCertificate path)
    match library.authorities? certificate with
    | some authorities => .ok authorities
    | none => .error .unreachable

/-- The authorities that the client of a receiver trusts beyond the usual ones. -/
def WebhookSettings.authorities (s : WebhookSettings) (library : ClientLibrary)
    (files : String → CertificateFile) : Except SinkError (List library.Authority) :=
  if s.skipsCheck || s.certificate = "" then .ok []
  else (files s.certificate).authorities library s.certificate

/-- A sink that posts to an address, which must be given. -/
def Sink.requireUrl (sink : Sink) (url : String) : Except SinkError Sink :=
  if url = "" then .error .missingUrl else .ok sink

/-- Sets up a sink.  `files` says what is found where a certificate should be. -/
def SinkKind.setUp (kind : SinkKind) (c : Config) (library : ClientLibrary)
    (files : String → CertificateFile) : Except SinkError Sink :=
  let s := c.receivers
  let sender := c.instanceName
  match kind with
  | .webhook => do
    let sink ← (Sink.webhook s.webhook.url sender).requireUrl s.webhook.url
    let _ ← s.webhook.authorities library files
    return sink
  | .slack =>
    let s := s.slack
    (Sink.slack s.url s.channel s.username s.emoji sender).requireUrl s.url
  | .discord => (Sink.discord s.discordUrl sender).requireUrl s.discordUrl
  | .teams => (Sink.teams s.teamsUrl sender).requireUrl s.teamsUrl
  | .lark => (Sink.lark s.larkUrl sender).requireUrl s.larkUrl
  | .cloudEvent => (Sink.cloudEvent s.cloudEventUrl sender).requireUrl s.cloudEventUrl
  | .webex =>
    if s.webex.token = "" || s.webex.room = "" then .error .missingRoomAccess
    else
      let url := if s.webex.url = "" then publicWebexUrl else s.webex.url
      .ok (.webex url s.webex.token s.webex.room sender)
  | .log => .ok (.log sender)

/-- The kinds of sinks that a configuration has. -/
def Config.sinkKinds (c : Config) : List SinkKind :=
  match SinkKind.posting.filter (SinkKind.isEnabled c.receivers) with
  | [] => [.log]
  | kinds => kinds

/-- Sets up the sinks of a configuration. -/
def Config.sinks (c : Config) (library : ClientLibrary) (files : String → CertificateFile) :
    Except SinkError (List Sink) :=
  c.sinkKinds.mapM fun kind => kind.setUp c library files

end ClusterHerald
