import ClusterHerald.Instant
import ClusterHerald.Notice

/-!
# Resolved changes

A change that was taken from the queue is resolved against the cache: the cached object, or else
the object that was observed, is the current one.  Name and namespace come from the key; a
namespace that the key lacks comes from the current object, or from the previous one when there is
no current one.

A create is dropped when its object was created before the anchor, the moment at which the
controller started, or does not tell when.
-/

namespace ClusterHerald

/-- A change with the documents before and after it. -/
structure Resolved where
  key : String
  type : ChangeType
  name : String
  namespaceName : String
  /-- The subtype, or the display name of the kind. -/
  kind : String
  apiVersion : String
  object : Option Json
  previous : Option Json
deriving Repr

/-- The notice of a resolved change. -/
def Resolved.notice (r : Resolved) : Notice :=
  let (severity, reason) := classify r.type r.kind
  ⟨r.name, r.namespaceName, r.kind, r.apiVersion, severity, reason, r.object, r.previous⟩

namespace Change

/-- Whether an object was created at the anchor or later. -/
def createdSince (anchor : Instant) (o : Option Object) : Bool :=
  match o.bind (·.metadata.creationTimestamp) with
  | some created => anchor.notAfter created
  | none => false

/-- Whether the change is a create that is not news. -/
def isReplay (c : Change) (anchor : Instant) (current : Option Object) : Bool :=
  c.type = .create && !createdSince anchor current

/-- The namespace of a change. -/
def namespaceOf (c : Change) (keyNamespace : Option String) (current : Option Object) : String :=
  match keyNamespace with
  | some ns => ns
  | none => ((current.or c.previous).bind (·.metadata.namespaceName)).getD ""

/-- The change with its current object. -/
def resolved (c : Change) (keyNamespace : Option String) (name : String)
    (current : Option Object) : Resolved where
  key := c.key
  type := c.type
  name := name
  namespaceName := c.namespaceOf keyNamespace current
  kind := c.subtype.getD c.kind
  apiVersion := c.apiVersion
  object := current.map Object.toJson
  previous := if c.type = .update then c.previous.map Object.toJson else none

universe u

variable {σ : Type u}

/-- The current object of a change: none of a delete, else the cached one, else the observed
one. -/
def current (c : Change) (lookup : String → σ → Except LookupError (Option Object) × σ) (s : σ) :
    Except LookupError (Option Object) × σ :=
  match c.type with
  | .delete => (.ok none, s)
  | .create | .update =>
    let (found, s) := lookup c.key s
    (found.map fun cached => cached.or c.object, s)

/-- Resolves a change; a replay resolves to nothing. -/
def resolve (c : Change) (anchor : Instant)
    (lookup : String → σ → Except LookupError (Option Object) × σ) (s : σ) :
    Except LookupError (Option Resolved) × σ :=
  match Key.parse c.key with
  | .error e => (.error e, s)
  | .ok (keyNamespace, name) =>
    let (current, s) := c.current lookup s
    (current.map fun o =>
      if c.isReplay anchor o then none else some (c.resolved keyNamespace name o), s)

end Change

end ClusterHerald
