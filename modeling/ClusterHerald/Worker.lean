import ClusterHerald.Difference
import ClusterHerald.Dispatch
import ClusterHerald.Kind.Watched
import ClusterHerald.Queue.Timed
import ClusterHerald.Resolution

/-!
# The worker of a kind

The worker takes changes from the queue of its kind, one at a time.  A change is resolved against
the cache, passed over if it is a replay or shows nothing but ignored changes, and else announced
to every sink.

Only a malformed key and a look-up without an answer make an attempt fail, before any sink was
asked.  The change then comes back after a delay, five times at most; a change that is done with
in any other way has its failures forgotten.
-/

namespace ClusterHerald

universe u

/-- What became of an attempt to process a change. -/
inductive Outcome where
  | failed (e : LookupError)
  /-- The create is not news. -/
  | replayed
  /-- The update shows nothing but ignored changes. -/
  | irrelevant
  /-- Every sink was given the notice. -/
  | announced (notice : Notice) (deliveries : List Delivery)

/-- The worker of a kind. -/
structure Worker where
  kind : WatchedKind
  /-- The moment at which the controller started. -/
  anchor : Instant
  sinks : List Sink

/-- How often a change comes back before it is given up. -/
def maxRetries : Nat := 5

namespace Outcome

/-- Whether the change was not processed. -/
def isFailed : Outcome → Bool
  | .failed _ => true
  | _ => false

/-- The notices that a scripted sink was given. -/
def taken : Outcome → List Notice
  | .announced n deliveries =>
    (deliveries.filter fun d => d.sink matches .scripted _).map fun _ => n
  | _ => []

/-- What processing a change leaves in the log, apart from what comes of a failure. -/
def log (c : Change) : Outcome → List LogRecord
  | .failed _ | .replayed => []
  | .irrelevant => [.irrelevant c.type c.key]
  | .announced n deliveries => deliveries.flatMap fun d => d.log n c.key

end Outcome

namespace Worker

variable {σ : Type u}

/-- Whether a resolved change shows nothing but ignored changes. -/
def isIrrelevant (w : Worker) (r : Resolved) : Bool :=
  r.type = .update && isNoise r.previous r.object w.kind.ignored

/-- Processes one change. -/
def process (w : Worker) (world : World σ) (c : Change) (s : σ) : Outcome × σ :=
  match c.resolve w.anchor world.lookup s with
  | (.error e, s) => (.failed e, s)
  | (.ok none, s) => (.replayed, s)
  | (.ok (some r), s) =>
    if w.isIrrelevant r then (.irrelevant, s)
    else
      let (deliveries, s) := dispatch world r.notice w.sinks s
      (.announced r.notice deliveries, s)

/-- What an attempt leaves in the log, where `failures` counts the failures before it. -/
def log (w : Worker) (c : Change) (key : String) (failures : Nat) : Outcome → List LogRecord
  | .failed e =>
    if failures < maxRetries then [.retrying (failures + 1) c.type key e.message]
    else [.dropped c.type key w.kind.name e.message maxRetries]
  | outcome => outcome.log c

end Worker

namespace Queue

variable {α : Type u}

/-- Ends an attempt: a key that failed is scheduled once more, unless it failed too often; any
other key is forgotten.  The key is then no longer in hand. -/
def settle (q : Queue α) (backoff : Backoff) (key : String) (failed : Bool) :
    Option (Span × Nat) × Queue α :=
  if failed && q.failureCount key < maxRetries then
    let (scheduled, q) := q.retry backoff key
    (scheduled, q.done key)
  else (none, (q.forget key).done key)

end Queue

end ClusterHerald
