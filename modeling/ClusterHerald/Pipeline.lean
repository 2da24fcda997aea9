import ClusterHerald.Cache
import ClusterHerald.Counters
import ClusterHerald.Observer
import ClusterHerald.Worker

/-!
# The pipeline of a kind

Everything that belongs to one kind: the observer and the store that a watch feeds, the queue
between the watch and the worker, and the worker with its cache.  The cache is the store, unless a
cache in memory stands in for it.

`Pipeline.watch` takes one watch event, `Pipeline.process` one change; `Pipeline.run` is the life
of a worker.
-/

namespace ClusterHerald

/-- The pipeline of a kind. -/
structure Pipeline where
  worker : Worker
  observer : Observer
  store : Store
  /-- The cache that stands in for the store. -/
  memory : Option MemoryCache
  queue : TimedQueue Change
  /-- How many seconds the worker waits for the store, if it does not wait for ever. -/
  syncLimit : Option Nat
  /-- The store is not fed any more. -/
  abandoned : Bool

namespace Pipeline

/-- A pipeline before its first event. -/
def start (worker : Worker) (memory : Option MemoryCache) (syncLimit : Option Nat) : Pipeline :=
  ⟨worker, .start worker.kind, .empty, memory, .start .standard, syncLimit, false⟩

/-! ### The watch -/

/-- Enqueues changes. -/
def enqueue (p : Pipeline) (changes : List Change) : Pipeline :=
  { p with queue := changes.foldl (fun q c => q.add c.key c) p.queue }

/-- What a watch event comes to. -/
structure Watched where
  changes : List Change
  log : List LogRecord
  next : Pipeline

/-- Observes an event, enqueues its changes and applies it to the store. -/
def watch (p : Pipeline) (e : WatchEvent) : Except Nameless Watched := do
  -- the observer needs the store as it was before the event
  let seen ← p.observer.observe p.store e
  let store ← p.store.apply e
  return ⟨seen.changes, seen.log, { p with observer := seen.next, store }.enqueue seen.changes⟩

/-! ### The worker -/

/-- The world of a worker: look-ups go to the cache, and no receiver replies. -/
def world (store : Store) : World (Option MemoryCache) where
  lookup key memory :=
    match memory with
    | none => (store.lookup key, none)
    | some cache =>
      let (answer, cache) := cache.lookup key
      (answer, some cache)
  stamp memory := (⟨"", ""⟩, memory)
  post _ memory := (none, memory)

/-- What an attempt comes to. -/
structure Attempt where
  outcome : Outcome
  log : List LogRecord
  next : Pipeline

/-- Processes a change outside the queue. -/
def attempt (p : Pipeline) (c : Change) : Attempt :=
  let (outcome, memory) := p.worker.process (world p.store) c p.memory
  ⟨outcome, outcome.log c, { p with memory }⟩

/-- Processes a change that was taken from the queue. -/
def handle (p : Pipeline) (key : String) (c : Change) : Attempt :=
  let a := p.attempt c
  let log := p.worker.log c key (p.queue.queue.failureCount key) a.outcome
  let queue := a.next.queue.schedule key c
    (·.settle p.queue.backoff key a.outcome.isFailed)
  ⟨a.outcome, log, { a.next with queue }⟩

/-- What a worker does that waits for a change. -/
inductive Turn where
  /-- The queue is closed. -/
  | closed
  /-- No change came in time. -/
  | idle
  | processed (attempt : Attempt)

/-- Waits at most `ms` milliseconds for a change and processes it. -/
def process (p : Pipeline) (ms : Nat) : Turn × Pipeline :=
  match p.queue.getWithin ms with
  | (.closed, queue) => (.closed, { p with queue })
  | (.nothing, queue) => (.idle, { p with queue })
  | (.item key c, queue) =>
    let a := { p with queue }.handle key c
    (.processed a, a.next)

/-! ### The life of a worker -/

/-- What a worker does from its start to its end. -/
structure Run where
  result : Except SyncError Unit
  notices : List Notice
  log : List LogRecord
  next : Pipeline

/-- What waiting for the cache comes to. -/
def wait (p : Pipeline) : SyncWait :=
  match p.memory with
  | some cache => cache.wait
  | none => p.store.wait p.abandoned p.syncLimit

/-- A bound for the number of changes that are taken while none comes in: each comes back five
times at most. -/
def turns (p : Pipeline) : Nat :=
  (p.queue.queue.ready.length + p.queue.timers.length + 1) * (maxRetries + 2)

/-- Processes changes until the given moment, in at most `n` turns.  What comes back at that very
moment is still processed. -/
def processUntil (p : Pipeline) (stop : Nat) : Nat → List Notice × List LogRecord × Pipeline
  | 0 => ([], [], p)
  | n + 1 =>
    match p.process (stop - p.queue.now) with
    | (.processed a, p) =>
      let (notices, log, p) := p.processUntil stop n
      (a.outcome.taken ++ notices, a.log ++ log, p)
    | (.idle, p) => if p.queue.queue.ready.isEmpty then ([], [], p) else p.processUntil stop n
    | (.closed, p) => ([], [], p)

/-- Closes the queue. -/
def close (p : Pipeline) : Pipeline :=
  { p with queue := p.queue.close }

/-- What happens around a worker. -/
structure Surroundings where
  /-- After how many milliseconds the worker is told to stop; `none` before it starts. -/
  stop : Option Nat
  /-- Whether the store is not fed any more once the worker waits. -/
  abandons : Bool

/-- How the wait for the cache ends. -/
def waitIn (p : Pipeline) (around : Surroundings) : Except SyncError Unit :=
  let wait := if around.abandons && p.memory.isNone then p.wait.abandon else p.wait
  wait.endedBy (around.stop.map (endOfWait 0))

/-- Runs the worker until it is told to stop.  It takes no change before its cache is filled, and
ends at once if that fails. -/
def run (p : Pipeline) (around : Surroundings) : Run :=
  match p.waitIn around with
  | .error e => ⟨.error e, [], [.awaitingSync, .syncFailed e.message], p.close⟩
  | .ok () =>
    let stop := endOfWait 0 (around.stop.getD 0)
    let (notices, log, p) := p.processUntil stop p.turns
    ⟨.ok (), notices, [.awaitingSync, .synced] ++ log ++ [.workerStopped], p.close⟩

end Pipeline

end ClusterHerald
