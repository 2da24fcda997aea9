import ClusterHerald.Http
import ClusterHerald.Log
import ClusterHerald.Notice

/-!
# Sinks

A sink takes notices and passes them to one receiver.  Most sinks post one document per notice
(`Sink.request?`) and take the reply for the result (`Request.result`); the log sink writes a
record, and the scripted sink only keeps to what it was told to answer.
-/

namespace ClusterHerald

/-- Why a sink cannot be set up or does not take a notice. -/
inductive SinkError where
  /-- There is no address to post to. -/
  | missingUrl
  /-- Of the token and the room one is missing. -/
  | missingRoomAccess
  /-- The file of the certificate cannot be read. -/
  | unreadableCertificate (path fault : String)
  /-- The file of the certificate is not taken for one. -/
  | invalidCertificate (path fault : String)
  /-- The client cannot be set up, or the receiver does not answer. -/
  | unreachable
  /-- The receiver refuses. -/
  | refused (text : String)
deriving Repr, DecidableEq

/-- The text of an error; that of the network has none of its own. -/
def SinkError.message? : SinkError → Option String
  | .missingUrl => some "Invalid sink configuration: missing receiver url"
  | .missingRoomAccess => some "Invalid sink configuration: missing webex token or room"
  | .unreadableCertificate path fault =>
    some ("Invalid sink configuration: cannot read CA certificate " ++ path ++ ": " ++ fault)
  | .invalidCertificate path fault =>
    some ("Invalid sink configuration: invalid CA certificate " ++ path ++ ": " ++ fault)
  | .unreachable => none
  | .refused text => some ("Sink API error: " ++ text)

/-- What a sink tells about a request that it makes: the time and the identifier of the event. -/
structure Stamp where
  time : String
  id : String
deriving Repr, DecidableEq

/-- A receiver of notices. -/
inductive Sink where
  | webhook (url sender : String)
  | slack (url channel username emoji sender : String)
  | discord (url sender : String)
  | teams (url sender : String)
  | lark (url sender : String)
  | cloudEvent (url sender : String)
  | webex (url token room sender : String)
  /-- Writes notices to the log. -/
  | log (sender : String)
  /-- Takes notices and answers as it is told. -/
  | scripted (refusal : Option String)
deriving Repr, DecidableEq

/-- The colour of a severity as a number. -/
def Severity.colour : Severity → Nat
  | .normal => 8311585
  | .warning => 16312092
  | .danger => 13632027

/-- The colour of a severity in hexadecimal digits. -/
def Severity.theme : Severity → String
  | .normal => "2DC72D"
  | .warning => "DEFF22"
  | .danger => "8C1A1A"

namespace Sink

/-- The name of a sink. -/
def name : Sink → String
  | .webhook .. => "webhook"
  | .slack .. => "slackwebhook"
  | .discord .. => "discord"
  | .teams .. => "msteams"
  | .lark .. => "lark"
  | .cloudEvent .. => "cloudevent"
  | .webex .. => "webex"
  | .log _ => "log"
  | .scripted _ => "mock"

/-- Members with text, but not the empty ones. -/
def filledTexts (members : List (String × String)) : List (String × Json) :=
  (members.filter fun m => m.2 ≠ "").map fun m => (m.1, .string m.2)

/-- A fact on a card. -/
def fact (name value : String) : Json :=
  .ofMembers [("name", .string name), ("value", .string value)]

/-- A notice as a card. -/
def card (n : Notice) (sender : String) : Json :=
  let place := if n.namespaceName = "" then [] else [fact "namespace" n.namespaceName]
  let facts := [fact "kind" n.kind, fact "name" n.name] ++ place ++ [fact "reason" n.reason.label]
  .ofMembers [
    ("@type", .string "MessageCard"), ("@context", .string "https://schema.org/extensions"),
    ("themeColor", .string n.severity.theme),
    ("summary", .string "kubewatch notification received"), ("title", .string "kubewatch"),
    ("text", .string (n.message sender)),
    ("sections", .array [.ofMembers [("markdown", .bool true), ("facts", .array facts)]])]

/-- A notice as an event of the cloud. -/
def cloudDocument (n : Notice) (sender : String) (stamp : Stamp) : Json :=
  .ofMembers [
    ("specversion", .string "1.0"), ("id", .string stamp.id),
    ("source", .string "https://github.com/robusta-dev/kubewatch"),
    ("type", .string "KUBERNETES_TOPOLOGY_CHANGE"), ("time", .string stamp.time),
    ("datacontenttype", .string "application/json"),
    ("data", .ofMembers [
      ("operation", .string n.reason.operation), ("kind", .string n.kind),
      ("clusterUid", .string sender), ("description", .string (n.message sender)),
      ("apiVersion", .string n.apiVersion), ("obj", n.object.getD .null),
      ("oldObj", n.previous.getD .null)])]

/-- The document that a sink posts for a notice. -/
def request? (sink : Sink) (n : Notice) (stamp : Stamp) : Option Request :=
  let plain := "application/json"
  match sink with
  | .webhook url sender =>
    some ⟨url, plain, none, .ofMembers [
      ("eventmeta", .ofMembers [
        ("kind", .string n.kind), ("name", .string n.name),
        ("namespace", .string n.namespaceName), ("reason", .string n.reason.label)]),
      ("text", .string (n.message sender)), ("time", .string stamp.time)]⟩
  | .slack url channel username emoji sender =>
    some ⟨url, plain, none, .ofMembers <|
      filledTexts [("channel", channel), ("username", username), ("icon_emoji", emoji)] ++
        [("text", .string (n.message sender))]⟩
  | .discord url sender =>
    some ⟨url, plain, none, .ofMembers [
      ("embeds", .array [.ofMembers [
        ("color", .int n.severity.colour), ("title", .string (n.message sender))]])]⟩
  | .teams url sender => some ⟨url, plain, none, card n sender⟩
  | .lark url sender =>
    some ⟨url, plain, none, .ofMembers [
      ("msg_type", .string "text"),
      ("content", .ofMembers [("text", .string (n.message sender))])]⟩
  | .cloudEvent url sender =>
    some ⟨url, "application/cloudevents+json", none, cloudDocument n sender stamp⟩
  | .webex url token room sender =>
    some ⟨url, plain, some token, .ofMembers [
      ("roomId", .string room), ("text", .string (n.message sender))]⟩
  | .log _ | .scripted _ => none

/-- The result of a sink that posts nothing. -/
def ownResult : Sink → Except SinkError Unit
  | .scripted (some text) => .error (.refused text)
  | _ => .ok ()

/-- Where a sink posts to. -/
def url? : Sink → Option String
  | .webhook url .. | .slack url .. | .discord url .. | .teams url .. | .lark url ..
  | .cloudEvent url .. | .webex url .. => some url
  | .log _ | .scripted _ => none

/-- What a sink writes to the log for a notice that was taken. -/
def record? (n : Notice) (sink : Sink) : Option LogRecord :=
  match sink with
  | .log sender =>
    some (.notice (n.message sender) n.kind n.namespaceName n.name n.severity.label)
  | _ => sink.url?.map .posted

end Sink

/-- What the reply to a request means; without a reply the receiver cannot be reached. -/
def Request.result (r : Request) : Option Reply → Except SinkError Unit
  | none => .error .unreachable
  | some reply =>
    if reply.isGood then .ok ()
    else .error (.refused (r.url ++ " returned " ++ reply.statusText ++ " - " ++ reply.body))

end ClusterHerald
