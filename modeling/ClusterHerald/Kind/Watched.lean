import ClusterHerald.IgnoredFields
import ClusterHerald.Kind.Registry
import ClusterHerald.Text.Quoted

/-!
# Watched kinds

A kind as it is watched: where the API serves it, which namespace it is limited to, and which
fields an update of it may change silently.  It comes from the registry (`WatchedKind.ofBuiltin`)
or from the description of a custom resource (`WatchedKind.ofCustom`).

A kind whose objects live in no namespace is never limited to one.
-/

namespace ClusterHerald

/-- What can be wrong with a configuration. -/
inductive ConfigError where
  /-- The file cannot be read. -/
  | unreadable
  /-- The text is not a document of the expected form. -/
  | malformed
  /-- A kind is switched that the registry does not have. -/
  | unknownKind (id : String)
  /-- A custom resource lacks its version or its resource name. -/
  | incompleteResource (group version resource : String)
deriving Repr, DecidableEq

/-- The text of an error; reading and parsing have none of their own. -/
def ConfigError.message? : ConfigError → Option String
  | .unreadable | .malformed => none
  | .unknownKind id => some ("Unknown resource kind: " ++ id)
  | .incompleteResource group version resource =>
    some ("Invalid custom resource: group=" ++ Text.quoted group ++ " version=" ++
      Text.quoted version ++ " resource=" ++ Text.quoted resource ++
      ": version and resource are required")

/-- The description of a custom resource. -/
structure CustomResource where
  group : String
  version : String
  resource : String
  /-- The display name; the resource name stands in for it. -/
  kind : Option String
  namespaced : Bool
deriving Repr, DecidableEq

/-- The display name of a custom resource. -/
def CustomResource.name (r : CustomResource) : String :=
  r.kind.getD r.resource

/-- A kind as it is watched. -/
structure WatchedKind where
  name : String
  group : String
  version : String
  plural : String
  namespaced : Bool
  /-- The namespace that is watched; all of them if there is none. -/
  namespaceName : Option String
  ignored : IgnoredFields

namespace WatchedKind

/-- A built-in kind within a namespace, if one is given and the kind has namespaces. -/
def ofBuiltin (k : BuiltinKind) (namespaceName : Option String) (ignored : IgnoredFields) :
    WatchedKind :=
  ⟨k.name, k.group, k.version, k.plural, k.namespaced,
    if k.namespaced then namespaceName else none, ignored⟩

/-- A custom resource within a namespace, if one is given and the resource has namespaces. -/
def ofCustom (r : CustomResource) (namespaceName : Option String) (ignored : IgnoredFields) :
    Except ConfigError WatchedKind :=
  if r.version = "" ∨ r.resource = "" then
    .error (.incompleteResource r.group r.version r.resource)
  else
    .ok ⟨r.name, r.group, r.version, r.resource, r.namespaced,
      if r.namespaced then namespaceName else none, ignored⟩

/-- Group and version as objects state them. -/
def apiVersion (k : WatchedKind) : String :=
  if k.group = "" then k.version else k.group ++ "/" ++ k.version

/-- Where the API serves the objects of the kind. -/
def path (k : WatchedKind) : String :=
  (if k.group = "" then "/api/" else "/apis/") ++ k.apiVersion ++
    (match k.namespaceName with
      | some ns => if k.namespaced then "/namespaces/" ++ ns else ""
      | none => "") ++
    "/" ++ k.plural

end WatchedKind

end ClusterHerald
