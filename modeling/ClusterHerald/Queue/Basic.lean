import ClusterHerald.Backoff
import ClusterHerald.Table

/-!
# The queue of changes

Keys wait in the order in which they became ready, each with its newest payload.  A key in hand is
not handed out again: a payload that arrives meanwhile stays pending, and `done` makes the key
ready again.

A payload that could not be processed comes back after a delay (`retry`, then `fire`).  The queue
keeps the generation of the latest retry of every key, and `add` and `forget` drop it, so a retry
does not outlive what is told of its key later.  One that is scheduled after a newer payload was
added may still come back while that payload is in hand.

Once the queue is closed it hands out nothing and takes nothing in.
-/

namespace ClusterHerald

universe u

/-- A queue of payloads by key. -/
structure Queue (α : Type u) where
  /-- The keys that may be handed out, oldest first. -/
  ready : List String
  /-- The newest payload of every key that is ready or will be when it is done. -/
  pending : Table α
  /-- The keys that are handed out. -/
  inHand : NameSet
  /-- Consecutive failures of keys. -/
  failures : Table Nat
  /-- The generation of the scheduled retry of every key that has one. -/
  scheduled : Table Nat
  /-- The generation that was given out last. -/
  lastGeneration : Nat
  closed : Bool

namespace Queue

variable {α : Type u}

/-- The open queue without keys. -/
def empty : Queue α :=
  ⟨[], .empty, .empty, .empty, .empty, 0, false⟩

instance : Inhabited (Queue α) := ⟨empty⟩

/-- What is found when the queue is asked for a key. -/
inductive Taken (α : Type u) where
  /-- The queue is closed. -/
  | closed
  /-- No key is ready. -/
  | nothing
  /-- A key with its payload. -/
  | item (key : String) (payload : α)

/-- Makes `payload` pending for a key that has none pending.  The key is ready unless it is in
hand. -/
def push (q : Queue α) (key : String) (payload : α) : Queue α :=
  { q with
    pending := q.pending.insert key payload
    ready := if q.inHand.contains key then q.ready else q.ready ++ [key] }

/-- Enqueues a payload.  It replaces one that is pending, and drops a scheduled retry. -/
def add (q : Queue α) (key : String) (payload : α) : Queue α :=
  if q.closed then q
  else
    let q := { q with scheduled := q.scheduled.erase key }
    -- a pending key has its place in line already
    if q.pending.has key then { q with pending := q.pending.insert key payload }
    else q.push key payload

/-- The retry of the given generation falls due.  It does nothing if it was superseded, and never
replaces a pending payload. -/
def fire (q : Queue α) (key : String) (payload : α) (generation : Nat) : Queue α :=
  if q.closed then q
  else if q.scheduled.get? key ≠ some generation then q
  else
    let q := { q with scheduled := q.scheduled.erase key }
    if q.pending.has key then q else q.push key payload

/-- The first of `keys` with a payload, and the keys after it. -/
def firstPending (pending : Table α) : List String → Option ((String × α) × List String)
  | [] => none
  | k :: ks =>
    match pending.get? k with
    | some x => some ((k, x), ks)
    | none => firstPending pending ks

/-- Hands out the oldest ready key.  Ready keys whose payload was handed out before are
dropped. -/
def get (q : Queue α) : Taken α × Queue α :=
  if q.closed then (.closed, q)
  else
    match firstPending q.pending q.ready with
    | some ((key, payload), rest) =>
      (.item key payload,
        { q with ready := rest, pending := q.pending.erase key, inHand := q.inHand.add key })
    | none => (.nothing, { q with ready := [] })

/-- The key is no longer in hand.  If a payload arrived meanwhile the key is ready again. -/
def done (q : Queue α) (key : String) : Queue α :=
  { q with
    inHand := q.inHand.erase key
    ready := if !q.closed && q.pending.has key then q.ready ++ [key] else q.ready }

/-- Clears the failures of a key and drops its scheduled retry. -/
def forget (q : Queue α) (key : String) : Queue α :=
  { q with failures := q.failures.erase key, scheduled := q.scheduled.erase key }

/-- The consecutive failures of a key. -/
def failureCount (q : Queue α) (key : String) : Nat :=
  (q.failures.get? key).getD 0

/-- Counts a failure of a key and schedules its retry: the delay and the generation of the retry,
unless the queue is closed. -/
def retry (q : Queue α) (backoff : Backoff) (key : String) : Option (Span × Nat) × Queue α :=
  if q.closed then (none, q)
  else
    let failures := q.failureCount key + 1
    let generation := q.lastGeneration + 1
    (some (backoff.delay failures, generation),
      { q with
        failures := q.failures.insert key failures
        scheduled := q.scheduled.insert key generation
        lastGeneration := generation })

/-- Closes the queue. -/
def close (q : Queue α) : Queue α :=
  { q with closed := true }

/-- Whether `q'` has one ready key more than `q`: then one getter is woken. -/
def grew (q q' : Queue α) : Bool :=
  q.ready.length < q'.ready.length

end Queue

end ClusterHerald
