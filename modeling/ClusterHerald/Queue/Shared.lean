import ClusterHerald.Queue.Basic

/-!
# Getters that share a queue

Any number of getters may ask one queue for keys.  A getter registers, asks the queue, and waits
when it got nothing; a wake-up sends it round again.  Registering before asking is what makes a
wake-up reach a getter whatever happens between the two.

A wake-up goes to the oldest registered getter that has none yet; when there is none it is stored
as a permit, and the next getter to register takes it.  Closing the queue wakes every registered
getter.  A getter that leaves with a wake-up of its own unused hands it on.

The three steps of a getter are `register`, `ask` and `resume`; `settle` takes every step that can
be taken.
-/

namespace ClusterHerald

universe u

/-- What a registered getter has been told. -/
inductive Signal where
  | none
  /-- It took the stored permit as it registered. -/
  | permit
  /-- It was woken as the oldest in line. -/
  | one
  /-- It was woken with everybody in line. -/
  | all
deriving Repr, DecidableEq

/-- How far a getter is. -/
inductive Stage (α : Type u) where
  /-- It is about to register. -/
  | entering
  /-- It is about to ask the queue. -/
  | registered (signal : Signal)
  /-- It got nothing and goes on once it has a signal. -/
  | waiting (signal : Signal)
  /-- It has a key, or none because the queue is closed. -/
  | finished (item : Option (String × α))

/-- A queue with its getters. -/
structure SharedQueue (α : Type u) where
  queue : Queue α
  /-- A wake-up that nobody has taken yet. -/
  permit : Bool
  /-- The registered getters without a signal, oldest first. -/
  line : List Nat
  /-- The getters in the order in which they came. -/
  getters : List (Nat × Stage α)

namespace SharedQueue

variable {α : Type u}

/-- An open queue without keys and without getters. -/
def empty : SharedQueue α :=
  ⟨.empty, false, [], []⟩

/-- How far a getter is. -/
def stage? (s : SharedQueue α) (g : Nat) : Option (Stage α) :=
  s.getters.lookup g

/-- Sets how far a getter is. -/
def setStage (s : SharedQueue α) (g : Nat) (stage : Stage α) : SharedQueue α :=
  { s with getters := s.getters.map fun e => if e.1 = g then (g, stage) else e }

/-- Tells a getter something. -/
def tell (s : SharedQueue α) (g : Nat) (signal : Signal) : SharedQueue α :=
  match s.stage? g with
  | some (.registered _) => s.setStage g (.registered signal)
  | some (.waiting _) => s.setStage g (.waiting signal)
  | _ => s

/-- Wakes the oldest getter in line, or stores a permit. -/
def wakeOne (s : SharedQueue α) : SharedQueue α :=
  match s.line with
  | [] => { s with permit := true }
  | g :: rest => { s with line := rest }.tell g .one

/-- Wakes everybody in line. -/
def wakeAll (s : SharedQueue α) : SharedQueue α :=
  s.line.foldl (fun s g => s.tell g .all) { s with line := [] }

/-! ### Changes of the queue -/

/-- Changes the queue, and wakes a getter if a key became ready. -/
def update (s : SharedQueue α) (f : Queue α → Queue α) : SharedQueue α :=
  let q := f s.queue
  if s.queue.grew q then { s with queue := q }.wakeOne else { s with queue := q }

/-- Closes the queue and wakes everybody in line. -/
def close (s : SharedQueue α) : SharedQueue α :=
  { s with queue := s.queue.close }.wakeAll

/-! ### Steps of a getter -/

/-- A new getter comes. -/
def enter (s : SharedQueue α) (g : Nat) : SharedQueue α :=
  { s with getters := s.getters ++ [(g, .entering)] }

/-- The getter takes the permit or joins the line. -/
def register (s : SharedQueue α) (g : Nat) : SharedQueue α :=
  if s.permit then { s with permit := false }.setStage g (.registered .permit)
  else { s with line := s.line ++ [g] }.setStage g (.registered .none)

/-- Takes a getter out of the line; a wake-up that was meant for it alone is handed on. -/
def unregister (s : SharedQueue α) (g : Nat) : Signal → SharedQueue α
  | .none => { s with line := s.line.erase g }
  -- somebody else may be waiting for the key that this wake-up announced
  | .one => s.wakeOne
  | .permit | .all => s

/-- The getter asks the queue. -/
def ask (s : SharedQueue α) (g : Nat) (signal : Signal) : SharedQueue α :=
  match s.queue.get with
  | (.closed, q) => ({ s with queue := q }.setStage g (.finished none)).unregister g signal
  | (.item key payload, q) =>
    ({ s with queue := q }.setStage g (.finished (some (key, payload)))).unregister g signal
  | (.nothing, q) => { s with queue := q }.setStage g (.waiting signal)

/-- The next step of a getter, unless it is finished or has to wait. -/
def step (s : SharedQueue α) (g : Nat) : Option (SharedQueue α) :=
  match s.stage? g with
  | some .entering => some (s.register g)
  | some (.registered signal) => some (s.ask g signal)
  | some (.waiting .none) => none
  | some (.waiting _) => some (s.setStage g .entering)
  | some (.finished _) => none
  | none => none

/-- The getter gives up. -/
def cancel (s : SharedQueue α) (g : Nat) : SharedQueue α :=
  let left := { s with getters := s.getters.filter fun e => e.1 ≠ g }
  match s.stage? g with
  | some (.registered signal) => left.unregister g signal
  | some (.waiting signal) => left.unregister g signal
  | _ => left

/-- At most `n` steps of a getter. -/
def steps (s : SharedQueue α) (g : Nat) : Nat → SharedQueue α
  | 0 => s
  | n + 1 =>
    match s.step g with
    | some s => s.steps g n
    | none => s

/-- A getter on its own waits or is finished after seven steps: it uses a wake-up, then the
permit, and then it joins the line. -/
def stepsAlone : Nat := 7

/-- The getter goes on until it waits or is finished, while nothing else happens. -/
def run (s : SharedQueue α) (g : Nat) : SharedQueue α :=
  s.steps g stepsAlone

/-- Every getter goes on, in the order in which they came. -/
def settle (s : SharedQueue α) : SharedQueue α :=
  s.getters.foldl (fun s e => s.run e.1) s

/-- What a finished getter got. -/
def outcome? (s : SharedQueue α) (g : Nat) : Option (Option (String × α)) :=
  match s.stage? g with
  | some (.finished item) => some item
  | _ => none

/-- The finished getters with what they got, and the queue without them. -/
def collect (s : SharedQueue α) : List (Nat × Option (String × α)) × SharedQueue α :=
  (s.getters.filterMap fun (g, stage) =>
      match stage with
      | .finished item => some (g, item)
      | _ => none,
    { s with getters := s.getters.filter fun (_, stage) =>
        match stage with
        | .finished _ => false
        | _ => true })

end SharedQueue

end ClusterHerald
