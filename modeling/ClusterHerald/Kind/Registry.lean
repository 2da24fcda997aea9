/-!
# Built-in kinds

The kinds that a configuration can switch on by a short id, in the order in which they are
watched.  Ids are distinct (`Registry.nodup_ids`), so `Registry.find?` answers for one entry.
-/

namespace ClusterHerald

/-- A built-in kind. -/
structure BuiltinKind where
  /-- The id in configurations. -/
  id : String
  /-- The environment variable that switches the kind on. -/
  envName : String
  /-- The display name. -/
  name : String
  /-- The API group; empty for the core group. -/
  group : String
  version : String
  /-- The name of the kind in API paths. -/
  plural : String
  /-- Whether objects of the kind live in namespaces. -/
  namespaced : Bool
deriving Repr, DecidableEq, Inhabited

namespace Registry

/-- All built-in kinds, in the order in which they are watched. -/
def kinds : List BuiltinKind := [
  ⟨"coreevent", "KW_CORE_EVENT", "Event", "", "v1", "events", true⟩,
  ⟨"event", "KW_EVENT", "Event", "events.k8s.io", "v1", "events", true⟩,
  ⟨"po", "KW_POD", "Pod", "", "v1", "pods", true⟩,
  ⟨"hpa", "KW_HPA", "HorizontalPodAutoscaler", "autoscaling", "v1", "horizontalpodautoscalers",
    true⟩,
  ⟨"ds", "KW_DAEMONSET", "DaemonSet", "apps", "v1", "daemonsets", true⟩,
  ⟨"statefulset", "KW_STATEFULSET", "StatefulSet", "apps", "v1", "statefulsets", true⟩,
  ⟨"rs", "KW_REPLICASET", "ReplicaSet", "apps", "v1", "replicasets", true⟩,
  ⟨"svc", "KW_SERVICE", "Service", "", "v1", "services", true⟩,
  ⟨"deployment", "KW_DEPLOYMENT", "Deployment", "apps", "v1", "deployments", true⟩,
  ⟨"ns", "KW_NAMESPACE", "Namespace", "", "v1", "namespaces", false⟩,
  ⟨"rc", "KW_REPLICATION_CONTROLLER", "ReplicationController", "", "v1", "replicationcontrollers",
    true⟩,
  ⟨"job", "KW_JOB", "Job", "batch", "v1", "jobs", true⟩,
  ⟨"node", "KW_NODE", "Node", "", "v1", "nodes", false⟩,
  ⟨"sa", "KW_SERVICE_ACCOUNT", "ServiceAccount", "", "v1", "serviceaccounts", true⟩,
  ⟨"clusterrole", "KW_CLUSTER_ROLE", "ClusterRole",
    "rbac.authorization.k8s.io", "v1", "clusterroles", false⟩,
  ⟨"clusterrolebinding", "KW_CLUSTER_ROLE_BINDING", "ClusterRoleBinding",
    "rbac.authorization.k8s.io", "v1", "clusterrolebindings", false⟩,
  ⟨"pv", "KW_PERSISTENT_VOLUME", "PersistentVolume", "", "v1", "persistentvolumes", false⟩,
  ⟨"secret", "KW_SECRET", "Secret", "", "v1", "secrets", true⟩,
  ⟨"configmap", "KW_CONFIGMAP", "ConfigMap", "", "v1", "configmaps", true⟩,
  ⟨"ing", "KW_INGRESS", "Ingress", "networking.k8s.io", "v1", "ingresses", true⟩]

/-- The built-in kind of an id. -/
def find? (id : String) : Option BuiltinKind :=
  kinds.find? fun k => k.id = id

theorem nodup_ids : (kinds.map BuiltinKind.id).Nodup := by decide

end Registry

end ClusterHerald
