import ClusterHerald.Sink.Basic

/-!
# Dispatch

A notice goes to every sink once, in the order of the sinks, whatever the sinks before answered.
A delivery that fails is written to the log and not tried again.

What lies outside (`World`) answers look-ups and requests; it may answer differently every time,
so it has a state of its own.
-/

namespace ClusterHerald

universe u

/-- What answers look-ups and requests. -/
structure World (σ : Type u) where
  /-- The cached object of a key. -/
  lookup : String → σ → Except LookupError (Option Object) × σ
  /-- The stamp of the next request. -/
  stamp : σ → Stamp × σ
  /-- The reply to a request, if there is one. -/
  post : Request → σ → Option Reply × σ

/-- A notice that was given to a sink, and what came of it. -/
structure Delivery where
  sink : Sink
  result : Except SinkError Unit

variable {σ : Type u}

/-- Gives a notice to one sink. -/
def Sink.deliver (sink : Sink) (world : World σ) (n : Notice) (s : σ) : Delivery × σ :=
  let (stamp, s') := world.stamp s
  match sink.request? n stamp with
  | none => (⟨sink, sink.ownResult⟩, s)
  | some request =>
    let (reply, s') := world.post request s'
    (⟨sink, request.result reply⟩, s')

/-- Gives a notice to every sink in order. -/
def dispatch (world : World σ) (n : Notice) : List Sink → σ → List Delivery × σ
  | [], s => ([], s)
  | sink :: sinks, s =>
    let (delivery, s) := sink.deliver world n s
    let (rest, s) := dispatch world n sinks s
    (delivery :: rest, s)

/-- The sinks of a dispatcher as text. -/
def describeSinks (sinks : List Sink) : String :=
  "Dispatcher \x7b sinks: [" ++
    String.intercalate ", " (sinks.map fun sink => Text.quoted sink.name) ++ "] \x7d"

/-- The text of a failed delivery in the log. -/
def SinkError.logText (e : SinkError) : String :=
  e.message?.getD "HTTP error"

/-- What a delivery leaves in the log. -/
def Delivery.log (d : Delivery) (n : Notice) (key : String) : List LogRecord :=
  match d.result with
  | .ok () => (d.sink.record? n).toList
  | .error e => [.undelivered key n.kind d.sink.name e.logText]

end ClusterHerald
