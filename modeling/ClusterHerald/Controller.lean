import ClusterHerald.Config.Kinds
import ClusterHerald.Pipeline
import ClusterHerald.Sink.Setup

/-!
# The controller

One pipeline for each kind that a configuration watches, all with the same sinks.  A pipeline that
ends with an error leaves the others running.
-/

namespace ClusterHerald

/-- Why a controller cannot start. -/
inductive ControllerError where
  | config (e : ConfigError)
  | sink (e : SinkError)
  /-- It is not known how the cluster is reached. -/
  | cluster
deriving Repr, DecidableEq

/-- The text of an error, if its cause has one. -/
def ControllerError.message? : ControllerError → Option String
  | .config e => e.message?.map ("Configuration error: " ++ ·)
  | .sink e => e.message?.map ("Sink error: " ++ ·)
  | .cluster => none

/-- The pipelines of the watched kinds. -/
structure Controller where
  pipelines : List Pipeline

namespace Controller

/-- Starts the pipelines of a configuration.  Objects that were created before `anchor` are not
announced as new. -/
def start (c : Config) (library : ClientLibrary) (files : String → CertificateFile)
    (clusterKnown : Bool) (anchor : Instant) : Except ControllerError Controller := do
  let kinds ← c.kinds.mapError .config
  let sinks ← (c.sinks library files).mapError .sink
  if clusterKnown then
    let limit := c.syncTimeout.map UInt64.toNat
    return ⟨kinds.map fun k => .start ⟨k, anchor, sinks⟩ none limit⟩
  else throw .cluster

/-- Runs the workers, which are told to stop at the given moment. -/
def run (c : Controller) (stop : Nat) : List Pipeline.Run :=
  c.pipelines.map (·.run ⟨some stop, false⟩)

end Controller

namespace Pipeline.Run

/-- Whether the worker ended before it was told to. -/
def endedItself (r : Run) : Bool :=
  match r.result with
  | .ok () | .error .shutDown => false
  | .error _ => true

/-- What is reported when the worker has ended. -/
def report (r : Run) : Option LogRecord :=
  match r.result with
  | .ok () => none
  | .error e => some (.halted "worker" e.message)

end Pipeline.Run

end ClusterHerald
