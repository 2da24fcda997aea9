import ClusterHerald.Config.Basic

/-!
# The kinds that a configuration watches

`Config.check` finds what is wrong with a configuration, and `Config.kinds` gives the kinds that it
watches: the built-in ones that are on, in the order of the registry, and then the custom resources.
-/

namespace ClusterHerald

namespace Config

/-- The namespace that is watched, unless all are. -/
def namespaceFilter (c : Config) : Option String :=
  if c.namespaceName = "" then none else some c.namespaceName

/-- Where counters are served if nothing else is said. -/
def defaultAddress : String := "0.0.0.0:2112"

/-- Where counters are served. -/
def metricsAddress (c : Config) : String :=
  c.listenAddress.getD defaultAddress

/-- The fields that updates of a kind may change silently: those for every kind and its own. -/
def ignoredFor (c : Config) (kind : String) : IgnoredFields :=
  let all := c.ignored.tree.merge (IgnoredFields.ofPaths c.ignored.paths)
  match c.ignored.byKind.get? kind with
  | some own => all.merge own
  | none => all

/-- A custom resource as it is watched. -/
def customKind (c : Config) (r : CustomResource) : Except ConfigError WatchedKind :=
  WatchedKind.ofCustom r c.namespaceFilter (c.ignoredFor r.name)

/-- Whether the kinds that a configuration names are known and its custom resources complete.  An
unknown kind counts even if it is switched off. -/
def check (c : Config) : Except ConfigError Unit :=
  match c.switches.names.find? fun id => (Registry.find? id).isNone with
  | some id => .error (.unknownKind id)
  | none =>
    c.customResources.forM fun r =>
      (WatchedKind.ofCustom r none IgnoredFields.empty).map fun _ => ()

/-- The built-in kinds that are on. -/
def builtinKinds (c : Config) : List WatchedKind :=
  (Registry.kinds.filter fun k => c.switches.get? k.id = some true).map fun k =>
    WatchedKind.ofBuiltin k c.namespaceFilter (c.ignoredFor k.name)

/-- The kinds that are watched. -/
def kinds (c : Config) : Except ConfigError (List WatchedKind) := do
  c.check
  return c.builtinKinds ++ (← c.customResources.mapM c.customKind)

end Config

end ClusterHerald
