import ClusterHerald.Clock
import ClusterHerald.Queue.Shared

/-!
# A queue and its clock

A queue whose retries fall due as a clock of milliseconds moves.  The clock moves only in
`advance` and `getWithin`; retries that fall due in the same millisecond come back in the order in
which they were scheduled.  A wait that ends in the millisecond in which a retry falls due ends
first.

The getter of `getWithin` shares the clock with the getters that were sent to wait.  What happens
in one millisecond happens in turns: every retry takes one as it comes back, and then every getter
that was woken.  The getter of `getWithin` takes none of them; it goes on after each full round of
turns, and when all turns are over.
-/

namespace ClusterHerald

universe u

/-- A retry that was scheduled. -/
structure Timer (α : Type u) where
  due : Nat
  key : String
  payload : α
  generation : Nat

/-- A queue with its getters, its clock and its scheduled retries. -/
structure TimedQueue (α : Type u) where
  shared : SharedQueue α
  backoff : Backoff
  now : Nat
  /-- The scheduled retries, oldest first. -/
  timers : List (Timer α)
  /-- How many getters were sent to wait. -/
  sent : Nat

namespace TimedQueue

variable {α : Type u}

/-- An open queue without keys at the start of time. -/
def start (backoff : Backoff) : TimedQueue α :=
  ⟨.empty, backoff, 0, [], 0⟩

/-- The queue itself. -/
def queue (t : TimedQueue α) : Queue α :=
  t.shared.queue

/-- Changes the shared queue, and lets the getters go on. -/
def change (t : TimedQueue α) (f : SharedQueue α → SharedQueue α) : TimedQueue α :=
  { t with shared := (f t.shared).settle }

/-- Enqueues a payload. -/
def add (t : TimedQueue α) (key : String) (payload : α) : TimedQueue α :=
  t.change (·.update (·.add key payload))

/-- The key is no longer in hand. -/
def done (t : TimedQueue α) (key : String) : TimedQueue α :=
  t.change (·.update (·.done key))

/-- Clears the failures of a key and drops its scheduled retry. -/
def forget (t : TimedQueue α) (key : String) : TimedQueue α :=
  t.change (·.update (·.forget key))

/-- Closes the queue; scheduled retries are dropped. -/
def close (t : TimedQueue α) : TimedQueue α :=
  { t with timers := [] }.change SharedQueue.close

/-- The retry of a timer comes back. -/
def fire (t : TimedQueue α) (timer : Timer α) : TimedQueue α :=
  t.change (·.update (·.fire timer.key timer.payload timer.generation))

/-- Moves the clock; retries that fall due until then come back. -/
def fireUntil (t : TimedQueue α) (instant : Nat) : TimedQueue α :=
  let due := t.timers.filter (·.due ≤ instant)
  let rest := t.timers.filter (instant < ·.due)
  (due.mergeSort fun a b => a.due ≤ b.due).foldl fire
    { t with now := max t.now instant, timers := rest }

/-- Time passes. -/
def advance (t : TimedQueue α) (ms : Nat) : TimedQueue α :=
  t.fireUntil (endOfWait t.now ms)

/-- Changes the queue by an operation that may schedule a retry of a key. -/
def schedule (t : TimedQueue α) (key : String) (payload : α)
    (f : Queue α → Option (Span × Nat) × Queue α) : TimedQueue α :=
  let (scheduled, q) := f t.queue
  let t := t.change (·.update fun _ => q)
  match scheduled with
  | none => t
  | some (delay, generation) =>
    let timer : Timer α := ⟨endOfWait t.now delay.millis, key, payload, generation⟩
    { t with timers := t.timers ++ [timer] }.fireUntil t.now

/-- Counts a failure of a key and schedules its retry. -/
def retry (t : TimedQueue α) (key : String) (payload : α) : TimedQueue α :=
  t.schedule key payload (·.retry t.backoff key)

/-- The first instant at which a retry falls due. -/
def nextDue? (t : TimedQueue α) : Option Nat :=
  (t.timers.map (·.due)).min?

/-- How many turns make a round. -/
def roundLength : Nat := 61

/-- Takes turns in order, after `n` other turns of the same millisecond; the getter goes on after
each full round. -/
def takeTurns (s : SharedQueue α) (getter n : Nat)
    (turns : List (SharedQueue α → SharedQueue α)) : SharedQueue α :=
  (turns.zipIdx (n + 1)).foldl (fun s (turn, i) =>
    if i % roundLength = 0 then (turn s).run getter else turn s) s

/-- Moves the clock to an instant at which retries fall due, while the getter waits. -/
def fireBefore (t : TimedQueue α) (getter instant : Nat) : TimedQueue α :=
  let due := t.timers.filter (·.due ≤ instant)
  let fires := due.map fun timer (s : SharedQueue α) =>
    s.update (·.fire timer.key timer.payload timer.generation)
  let fired := takeTurns t.shared getter 0 fires
  -- getters are woken in the order of the line, and only those that were woken take turns
  let woken := t.shared.line.filter fun g => g ≠ getter && !fired.line.contains g
  let asked := takeTurns fired getter due.length (woken.map fun g s => s.run g)
  { t with
    now := max t.now instant
    timers := t.timers.filter (instant < ·.due)
    shared := asked.settle }

/-- Lets the clock move to the instants before `deadline` at which retries fall due, until the
getter is finished.  The last argument bounds the number of such instants. -/
def awaitGetter (t : TimedQueue α) (getter deadline : Nat) : Nat → TimedQueue α
  | 0 => t
  | n + 1 =>
    match t.shared.outcome? getter with
    | some _ => t
    | none =>
      match t.nextDue? with
      | some instant =>
        if instant < deadline then (t.fireBefore getter instant).awaitGetter getter deadline n
        else t
      | none => t

/-- What a getter that waits at most `ms` milliseconds gets; `Queue.Taken.nothing` when the time
is over. -/
def getWithin (t : TimedQueue α) (ms : Nat) : Queue.Taken α × TimedQueue α :=
  let deadline := endOfWait t.now ms
  let asked := t.change fun s => (s.enter t.sent).run t.sent
  let waited := asked.awaitGetter t.sent deadline (asked.timers.length + 1)
  let left := { waited with shared := waited.shared.cancel t.sent }
  match waited.shared.outcome? t.sent with
  | some (some (key, payload)) => (.item key payload, left)
  | some none => (.closed, left)
  -- the wait ended first, and only then come the retries that are due at its end
  | none => (.nothing, left.fireUntil deadline)

/-- What a getter gets that does not wait. -/
def getNow (t : TimedQueue α) : Queue.Taken α × TimedQueue α :=
  t.getWithin 0

/-- Sends a getter to wait: its number. -/
def sendGetter (t : TimedQueue α) : Nat × TimedQueue α :=
  (t.sent, { t with sent := t.sent + 1 }.change fun s => (s.enter t.sent).run t.sent)

/-- The finished getters with what they got, and the queue without them. -/
def collect (t : TimedQueue α) : List (Nat × Option (String × α)) × TimedQueue α :=
  let (got, shared) := t.shared.collect
  (got, { t with shared })

end TimedQueue

end ClusterHerald
