import ClusterHerald.Feed
import ClusterHerald.Pipeline

/-!
# The life of a watch

A watch takes what its feed tells it: it counts and enqueues the changes of each event, and goes on
after every fault.  Only an object without a name ends it, at once and without a word, so that the
queue behind it stays open; a watch that is told to stop closes its queue.
-/

namespace ClusterHerald

/-- A watch with what it has done so far. -/
structure Watch where
  pipeline : Pipeline
  counters : Counters
  faults : Nat
  /-- The queries that reached the server, with their paths. -/
  asked : List (Query × String)
  /-- Whether an object without a name has ended the watch. -/
  broken : Bool

namespace Watch

/-- A watch before its first query. -/
def start (p : Pipeline) : Watch :=
  ⟨p, .zero, 0, [], false⟩

/-- Takes one step of the feed. -/
def step (w : Watch) (s : FeedStep) : Watch :=
  if w.broken then w
  else
    match s with
    | .asked query =>
      let target := query.target w.pipeline.worker.kind.path
      { w with asked := w.asked ++ (Query.ofTarget? target).toList }
    | .fault => { w with faults := w.faults + 1 }
    | .learned event =>
      match w.pipeline.watch event with
      | .error _ => { w with broken := true }
      | .ok seen =>
        { w with pipeline := seen.next, counters := w.counters.observeAll seen.changes }

/-- A watch that the server answers with the given replies, and then no more. -/
def run (p : Pipeline) (replies : List ApiReply) : Watch :=
  (feed replies).foldl step (start p)

/-- The watch is told to stop. -/
def stop (w : Watch) : Watch :=
  if w.broken then w else { w with pipeline := w.pipeline.close }

end Watch

end ClusterHerald
