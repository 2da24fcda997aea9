import ClusterHerald.Change

/-!
# Notices

A notice is what receivers are told about a change: the object, how serious the change is, and the
documents before and after it.

Severity and reason follow from the type of the change and the kind alone (`classify`); the kind
is the subtype where one was found.  `Notice.message` is the text for people.
-/

namespace ClusterHerald

/-- How serious a change is. -/
inductive Severity where
  | normal
  | warning
  | danger
deriving Repr, DecidableEq

/-- What happened to the object. -/
inductive Reason where
  | created
  | updated
  | deleted
deriving Repr, DecidableEq

namespace Severity

/-- The word that receivers get. -/
def label : Severity → String
  | .normal => "Normal"
  | .warning => "Warning"
  | .danger => "Danger"

/-- The severity of a word. -/
def ofLabel? : String → Option Severity
  | "Normal" => some .normal
  | "Warning" => some .warning
  | "Danger" => some .danger
  | _ => none

theorem ofLabel?_label (s : Severity) : ofLabel? s.label = some s := by
  cases s <;> rfl

end Severity

namespace Reason

/-- The word that receivers get. -/
def label : Reason → String
  | .created => "Created"
  | .updated => "Updated"
  | .deleted => "Deleted"

/-- The reason of a word. -/
def ofLabel? : String → Option Reason
  | "Created" => some .created
  | "Updated" => some .updated
  | "Deleted" => some .deleted
  | _ => none

/-- The operation that the reason reports. -/
def operation : Reason → String
  | .created => "create"
  | .updated => "update"
  | .deleted => "delete"

theorem ofLabel?_label (r : Reason) : ofLabel? r.label = some r := by
  cases r <;> rfl

end Reason

/-! ### Classification -/

/-- The kinds that report a failure when they appear. -/
def failureKinds : List String :=
  ["NodeNotReady", "NodeRebooted", "Backoff"]

/-- Severity and reason of a change of an object of the given kind. -/
def classify (type : ChangeType) (kind : String) : Severity × Reason :=
  match type with
  | .create => (if kind ∈ failureKinds then .danger else .normal, .created)
  | .update => (if kind = "Backoff" then .danger else .warning, .updated)
  | .delete => (.danger, .deleted)

/-- The finer kind of a cluster event, from the reason that it states. -/
def eventSubtype? : String → Option String
  | "NodeReady" => some "NodeReady"
  | "NodeNotReady" => some "NodeNotReady"
  | "NodeRebooted" => some "NodeRebooted"
  | "BackOff" | "Backoff" => some "Backoff"
  | _ => none

/-! ### Notices -/

/-- What receivers are told about a change. -/
structure Notice where
  name : String
  /-- Empty for objects outside namespaces. -/
  namespaceName : String
  /-- The display name of the kind, or the subtype. -/
  kind : String
  apiVersion : String
  severity : Severity
  reason : Reason
  /-- The object as it is; none of a deleted object. -/
  object : Option Json
  /-- The object as it was; only an update has one. -/
  previous : Option Json
deriving Repr

namespace Notice

/-- The text for people, from the controller that is called `sender`. -/
def message (n : Notice) (sender : String) : String :=
  let what := n.reason.label
  "`" ++ sender ++ "` - " ++
    match n.kind with
    | "Namespace" => "A namespace `" ++ n.name ++ "` has been `" ++ what ++ "`"
    | "Node" => "A node `" ++ n.name ++ "` has been `" ++ what ++ "`"
    | "ClusterRole" => "A cluster role `" ++ n.name ++ "` has been `" ++ what ++ "`"
    | "NodeReady" => "Node `" ++ n.name ++ "` is Ready : \nNodeReady"
    | "NodeNotReady" => "Node `" ++ n.name ++ "` is Not Ready : \nNodeNotReady"
    | "NodeRebooted" => "Node `" ++ n.name ++ "` Rebooted : \nNodeRebooted"
    | "Backoff" =>
      "Pod `" ++ n.name ++ "` in `" ++ n.namespaceName ++ "` Crashed : \nCrashLoopBackOff " ++ what
    | kind =>
      "A `" ++ kind ++ "` in namespace `" ++ n.namespaceName ++ "` has been `" ++ what ++
        "`:\n`" ++ n.name ++ "`"

/-- The word of a label: a text, or an object whose one member is null. -/
def labelWord? : Json → Option String
  | .string s => some s
  | .object [(s, .null)] => some s
  | _ => none

/-- A document that may be missing; null counts as missing. -/
def presentDocument : Option Json → Option Json
  | none | some .null => none
  | some v => some v

/-- The notice of its eight parts; all but the documents must be there. -/
def ofParts? (name namespaceName kind apiVersion severity reason object previous : Option Json) :
    Option Notice := do
  let name ← name.bind Json.string?
  let namespaceName ← namespaceName.bind Json.string?
  let kind ← kind.bind Json.string?
  let apiVersion ← apiVersion.bind Json.string?
  let severity ← (severity.bind labelWord?).bind Severity.ofLabel?
  let reason ← (reason.bind labelWord?).bind Reason.ofLabel?
  return ⟨name, namespaceName, kind, apiVersion, severity, reason, presentDocument object,
    presentDocument previous⟩

/-- Reads a notice: an object, or the list of its parts in order. -/
def ofJson? : Json → Option Notice
  | .object ms =>
    let part := Entries.get? ms
    ofParts? (part "name") (part "namespace") (part "kind") (part "apiVersion") (part "status")
      (part "reason") (part "obj") (part "oldObj")
  | .array [name, ns, kind, apiVersion, severity, reason, object, previous] =>
    ofParts? (some name) (some ns) (some kind) (some apiVersion) (some severity) (some reason)
      (some object) (some previous)
  | _ => none

/-- The notice as a document; documents that are missing are null. -/
def toJson (n : Notice) : Json :=
  .ofMembers [
    ("name", .string n.name), ("namespace", .string n.namespaceName), ("kind", .string n.kind),
    ("apiVersion", .string n.apiVersion), ("status", .string n.severity.label),
    ("reason", .string n.reason.label), ("obj", n.object.getD .null),
    ("oldObj", n.previous.getD .null)]

end Notice

end ClusterHerald
