import ClusterHerald.Instant
import ClusterHerald.Json.Basic

/-!
# Cluster objects

An object of any kind: its type, its metadata, and its other members as they were sent.
`Object.ofJson?` reads an object, `Object.toJson` shows it again.

Metadata keeps the members that every kind shares and drops others.  A member that is null counts
as absent; a member of the wrong form refuses the whole object.
-/

namespace ClusterHerald

/-- The type that an object states. -/
structure TypeMeta where
  apiVersion : String
  kind : String
deriving Repr, DecidableEq

/-- An object that owns another. -/
structure OwnerReference where
  apiVersion : String
  kind : String
  name : String
  uid : String
  blockOwnerDeletion : Option Bool
  controller : Option Bool
deriving Repr, DecidableEq

/-- What one manager has set. -/
structure ManagedFields where
  apiVersion : Option String
  fieldsType : Option String
  fields : Option Json
  manager : Option String
  operation : Option String
  subresource : Option String
  time : Option Instant
deriving Repr

/-- The members that every object shares. -/
structure Metadata where
  annotations : Option (Entries String) := none
  creationTimestamp : Option Instant := none
  deletionGracePeriodSeconds : Option Int := none
  deletionTimestamp : Option Instant := none
  finalizers : Option (List String) := none
  generateName : Option String := none
  generation : Option Int := none
  labels : Option (Entries String) := none
  managedFields : Option (List ManagedFields) := none
  name : Option String := none
  namespaceName : Option String := none
  ownerReferences : Option (List OwnerReference) := none
  resourceVersion : Option String := none
  selfLink : Option String := none
  uid : Option String := none
deriving Repr, Inhabited

/-- An object of the cluster. -/
structure Object where
  type : Option TypeMeta
  metadata : Metadata
  /-- All members but the type and the metadata. -/
  data : Entries Json
deriving Repr, Inhabited

namespace Object

/-! ### Reading -/

/-- The value of a member that may be missing or null. -/
def optional {α : Type} (read : Json → Option α) (members : Entries Json) (name : String) :
    Option (Option α) :=
  match Entries.get? members name with
  | none | some .null => some none
  | some v => (read v).map some

/-- A signed integer of 64 bits. -/
def long? (v : Json) : Option Int := do
  let n ← v.int?
  if Int64.minValue.toInt ≤ n ∧ n ≤ Int64.maxValue.toInt then some n else none

/-- An instant. -/
def instant? (v : Json) : Option Instant :=
  v.string?.bind Instant.read?

/-- A list whose items all have the form that `read` takes. -/
def list? {α : Type} (read : Json → Option α) (v : Json) : Option (List α) :=
  v.items?.bind fun items => items.mapM read

/-- A map of texts. -/
def texts? (v : Json) : Option (Entries String) :=
  v.members?.bind fun ms => ms.mapM fun m => m.2.string?.map fun s => (m.1, s)

/-- An owner; a text that is missing is empty. -/
def owner? (v : Json) : Option OwnerReference := do
  let ms ← v.members?
  let apiVersion ← optional Json.string? ms "apiVersion"
  let kind ← optional Json.string? ms "kind"
  let name ← optional Json.string? ms "name"
  let uid ← optional Json.string? ms "uid"
  let block ← optional Json.bool? ms "blockOwnerDeletion"
  let controller ← optional Json.bool? ms "controller"
  return ⟨apiVersion.getD "", kind.getD "", name.getD "", uid.getD "", block, controller⟩

/-- What one manager has set. -/
def managed? (v : Json) : Option ManagedFields := do
  let ms ← v.members?
  let apiVersion ← optional Json.string? ms "apiVersion"
  let fieldsType ← optional Json.string? ms "fieldsType"
  let fields ← optional some ms "fieldsV1"
  let manager ← optional Json.string? ms "manager"
  let operation ← optional Json.string? ms "operation"
  let subresource ← optional Json.string? ms "subresource"
  let time ← optional instant? ms "time"
  return ⟨apiVersion, fieldsType, fields, manager, operation, subresource, time⟩

/-- The metadata of an object. -/
def metadata? (v : Json) : Option Metadata := do
  let ms ← v.members?
  let annotations ← optional texts? ms "annotations"
  let creationTimestamp ← optional instant? ms "creationTimestamp"
  let deletionGracePeriodSeconds ← optional long? ms "deletionGracePeriodSeconds"
  let deletionTimestamp ← optional instant? ms "deletionTimestamp"
  let finalizers ← optional (list? Json.string?) ms "finalizers"
  let generateName ← optional Json.string? ms "generateName"
  let generation ← optional long? ms "generation"
  let labels ← optional texts? ms "labels"
  let managedFields ← optional (list? managed?) ms "managedFields"
  let name ← optional Json.string? ms "name"
  let namespaceName ← optional Json.string? ms "namespace"
  let ownerReferences ← optional (list? owner?) ms "ownerReferences"
  let resourceVersion ← optional Json.string? ms "resourceVersion"
  let selfLink ← optional Json.string? ms "selfLink"
  let uid ← optional Json.string? ms "uid"
  return { annotations, creationTimestamp, deletionGracePeriodSeconds, deletionTimestamp,
           finalizers, generateName, generation, labels, managedFields, name, namespaceName,
           ownerReferences, resourceVersion, selfLink, uid }

/-- The stated type, and the names of the members that were read for it.  Without both texts
there is no type, and the members are lost up to the first that is no text. -/
def typeOf (members : Entries Json) : Option TypeMeta × List String :=
  match Entries.get? members "apiVersion", Entries.get? members "kind" with
  | some (.string a), some (.string k) => (some ⟨a, k⟩, ["apiVersion", "kind"])
  | none, some _ => (none, ["kind"])
  | some (.string _), some _ => (none, ["apiVersion", "kind"])
  | _, _ => (none, ["apiVersion"])

/-- Reads an object. -/
def ofJson? (v : Json) : Option Object := do
  let ms ← v.members?
  let metadata ← match Entries.get? ms "metadata" with
    | none => some {}
    | some m => metadata? m
  let (type, taken) := typeOf ms
  return ⟨type, metadata, ms.filter fun m => m.1 ≠ "metadata" ∧ m.1 ∉ taken⟩

/-! ### Writing -/

/-- A member that is present. -/
def member {α : Type} (name : String) (value : Option α) (write : α → Json) :
    List (String × Json) :=
  match value with
  | some v => [(name, write v)]
  | none => []

/-- A map of texts as an object. -/
def textsJson (texts : Entries String) : Json :=
  .ofMembers (texts.map fun m => (m.1, .string m.2))

/-- An instant as a text. -/
def instantJson (t : Instant) : Json := .string t.render

/-- An owner as an object. -/
def ownerJson (o : OwnerReference) : Json :=
  .ofMembers <|
    [("apiVersion", .string o.apiVersion), ("kind", .string o.kind), ("name", .string o.name),
      ("uid", .string o.uid)] ++
    member "blockOwnerDeletion" o.blockOwnerDeletion .bool ++
    member "controller" o.controller .bool

/-- What one manager has set, as an object. -/
def managedJson (m : ManagedFields) : Json :=
  .ofMembers <|
    member "apiVersion" m.apiVersion .string ++ member "fieldsType" m.fieldsType .string ++
    member "fieldsV1" m.fields id ++ member "manager" m.manager .string ++
    member "operation" m.operation .string ++ member "subresource" m.subresource .string ++
    member "time" m.time instantJson

/-- The metadata as an object, without what is absent. -/
def metadataJson (m : Metadata) : Json :=
  .ofMembers <|
    member "annotations" m.annotations textsJson ++
    member "creationTimestamp" m.creationTimestamp instantJson ++
    member "deletionGracePeriodSeconds" m.deletionGracePeriodSeconds .int ++
    member "deletionTimestamp" m.deletionTimestamp instantJson ++
    member "finalizers" m.finalizers (fun fs => .array (fs.map .string)) ++
    member "generateName" m.generateName .string ++
    member "generation" m.generation .int ++
    member "labels" m.labels textsJson ++
    member "managedFields" m.managedFields (fun fs => .array (fs.map managedJson)) ++
    member "name" m.name .string ++
    member "namespace" m.namespaceName .string ++
    member "ownerReferences" m.ownerReferences (fun os => .array (os.map ownerJson)) ++
    member "resourceVersion" m.resourceVersion .string ++
    member "selfLink" m.selfLink .string ++
    member "uid" m.uid .string

/-- The object as a document. -/
def toJson (o : Object) : Json :=
  .ofMembers <|
    member "apiVersion" (o.type.map TypeMeta.apiVersion) .string ++
    member "kind" (o.type.map TypeMeta.kind) .string ++
    o.data ++ [("metadata", metadataJson o.metadata)]

end Object

end ClusterHerald
