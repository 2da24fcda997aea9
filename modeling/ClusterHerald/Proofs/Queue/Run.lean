import ClusterHerald.Proofs.Run
import ClusterHerald.Proofs.Table
import ClusterHerald.Queue.Basic

/-!
# Runs of a queue

A queue is used by several parties at once, and its retries come back whenever their delays are
over.  `System` is a queue with the retries that are still to come back, `Action` what may happen
to it next; every list of actions is a run (`System.run`), and `System.handed` is what the
successful gets of a run hand out.

A run says nothing about when an action happens, so what holds of every run holds for all delays
and for every order in which the parties come.

The lemmas of the first part say once what each operation of the queue does; the proofs about runs
use them and do not unfold the operations.

* `get_eq_item`, `get_eq_none` : what a get does to the queue, by what it hands out;
* `fire_cases` : a retry that comes back changes nothing, or drops its generation, or makes its
  payload pending;
* `System.move` : what an action does to the queue, once for all actions;
* `System.run_append` : runs may be cut anywhere.
-/

namespace ClusterHerald

universe u

namespace Queue

variable {α : Type u}

/-! ### What the operations do -/

/-- The key and the payload of a get that hands out something. -/
def Taken.item? : Taken α → Option (String × α)
  | .item key payload => some (key, payload)
  | .closed | .nothing => none

theorem firstPending_some {pending : Table α} {keys rest : List String} {key : String}
    {payload : α} (h : firstPending pending keys = some ((key, payload), rest)) :
    pending.get? key = some payload := by
  induction keys with
  | nil => cases h
  | cons k ks ih =>
    unfold firstPending at h
    split at h
    · next x hx =>
      simp only [Option.some.injEq, Prod.mk.injEq] at h
      obtain ⟨⟨rfl, rfl⟩, -⟩ := h
      exact hx
    · exact ih h

theorem firstPending_cons {pending : Table α} {key : String} {keys : List String} {payload : α}
    (h : pending.get? key = some payload) :
    firstPending pending (key :: keys) = some ((key, payload), keys) := by
  simp [firstPending, h]

/-- A get that hands out a key takes its payload from the queue and puts the key in hand. -/
theorem get_eq_item {q : Queue α} {key : String} {payload : α}
    (h : q.get.1.item? = some (key, payload)) :
    q.closed = false ∧ q.pending.get? key = some payload ∧ ∃ rest,
      q.get.2 = { q with
        ready := rest, pending := q.pending.erase key, inHand := q.inHand.add key } := by
  unfold get at h ⊢
  split at h
  · cases h
  · next hc =>
    cases hf : firstPending q.pending q.ready with
    | none => rw [hf] at h; cases h
    | some found =>
      obtain ⟨⟨k, x⟩, rest⟩ := found
      rw [hf] at h
      simp only [Taken.item?, Option.some.injEq, Prod.mk.injEq] at h
      obtain ⟨rfl, rfl⟩ := h
      exact ⟨by simpa using hc, firstPending_some hf, rest, by simp [hc]⟩

/-- A get that hands out nothing changes at most the line. -/
theorem get_eq_none {q : Queue α} (h : q.get.1.item? = none) :
    q.get.2 = { q with ready := q.get.2.ready } := by
  unfold get at h ⊢
  split
  · rfl
  · next hc =>
    cases hf : firstPending q.pending q.ready with
    | none => rfl
    | some found => simp [hc, hf, Taken.item?] at h

/-- The first key of an open line is handed out, if it is pending. -/
theorem get_of_ready {q : Queue α} {key : String} {keys : List String} {payload : α}
    (hc : q.closed = false) (hr : q.ready = key :: keys)
    (hp : q.pending.get? key = some payload) :
    q.get = (.item key payload, { q with
      ready := keys, pending := q.pending.erase key, inHand := q.inHand.add key }) := by
  simp [get, hc, hr, firstPending_cons hp]

/-- Nobody is handed anything while the line is empty. -/
theorem get_of_empty {q : Queue α} (hr : q.ready = []) : q.get.1.item? = none ∧ q.get.2 = q := by
  obtain ⟨ready, pending, inHand, failures, scheduled, lastGeneration, closed⟩ := q
  subst hr
  cases closed <;> exact ⟨rfl, rfl⟩

theorem add_of_closed {q : Queue α} (hc : q.closed = true) (key : String) (payload : α) :
    q.add key payload = q := by
  simp [add, hc]

/-- A payload that is added to an open queue is pending afterwards, and the retry of its key is
dropped.  The key joins the line if it is neither pending nor in hand. -/
theorem add_of_open {q : Queue α} (hc : q.closed = false) (key : String) (payload : α) :
    q.add key payload = { q with
      pending := q.pending.insert key payload
      scheduled := q.scheduled.erase key
      ready := if q.pending.has key || q.inHand.contains key then q.ready
        else q.ready ++ [key] } := by
  cases hp : q.pending.has key <;> simp [add, push, hc, hp]

/-- A retry that comes back may be superseded; else its generation is dropped, and its payload
becomes pending unless another one is. -/
theorem fire_cases (q : Queue α) (key : String) (payload : α) (generation : Nat) :
    q.fire key payload generation = q ∧
        (q.closed = true ∨ q.scheduled.get? key ≠ some generation) ∨
      q.closed = false ∧ q.scheduled.get? key = some generation ∧
        (q.pending.has key = true ∧
            q.fire key payload generation = { q with scheduled := q.scheduled.erase key } ∨
          q.pending.has key = false ∧
            q.fire key payload generation =
              { q with scheduled := q.scheduled.erase key }.push key payload) := by
  unfold fire
  cases hc : q.closed with
  | true => simp
  | false =>
    by_cases hg : q.scheduled.get? key = some generation
    · cases hp : q.pending.has key <;> simp [hg, hp]
    · simp [hg]

/-- A key that is done joins the line if a payload arrived meanwhile. -/
theorem done_of_open {q : Queue α} (hc : q.closed = false) (key : String) :
    q.done key = { q with
      inHand := q.inHand.erase key
      ready := if q.pending.has key then q.ready ++ [key] else q.ready } := by
  simp [done, hc]

theorem retry_of_closed {q : Queue α} (hc : q.closed = true) (backoff : Backoff) (key : String) :
    q.retry backoff key = (none, q) := by
  simp [retry, hc]

/-- A failure in an open queue is counted, and a retry of a new generation is scheduled. -/
theorem retry_of_open {q : Queue α} (hc : q.closed = false) (backoff : Backoff) (key : String) :
    q.retry backoff key =
      (some (backoff.delay (q.failureCount key + 1), q.lastGeneration + 1), { q with
        failures := q.failures.insert key (q.failureCount key + 1)
        scheduled := q.scheduled.insert key (q.lastGeneration + 1)
        lastGeneration := q.lastGeneration + 1 }) := by
  simp [retry, hc]

/-! ### Runs -/

/-- A retry that was scheduled and has not come back. -/
structure Retry (α : Type u) where
  key : String
  payload : α
  generation : Nat

/-- A queue with the retries that are still to come back. -/
structure System (α : Type u) where
  queue : Queue α
  /-- The retries, in the order in which they were scheduled. -/
  retries : List (Retry α)

/-- What may happen to a queue. -/
inductive Action (α : Type u) where
  | add (key : String) (payload : α)
  | get
  | done (key : String)
  | forget (key : String)
  | retry (key : String) (payload : α)
  /-- The retry at a place among those that are still to come back falls due. -/
  | fire (place : Nat)
  | close

namespace System

/-- The open queue without keys, to which no retry comes back. -/
def start : System α := ⟨.empty, []⟩

/-- The queue after an action. -/
def step (backoff : Backoff) (s : System α) : Action α → System α
  | .add key payload => { s with queue := s.queue.add key payload }
  | .get => { s with queue := s.queue.get.2 }
  | .done key => { s with queue := s.queue.done key }
  | .forget key => { s with queue := s.queue.forget key }
  | .retry key payload =>
    match s.queue.retry backoff key with
    | (some (_, generation), q) => ⟨q, s.retries ++ [⟨key, payload, generation⟩]⟩
    | (none, q) => { s with queue := q }
  | .fire place =>
    match s.retries[place]? with
    | some r => ⟨s.queue.fire r.key r.payload r.generation, s.retries.eraseIdx place⟩
    | none => s
  | .close => { s with queue := s.queue.close }

/-- What an action hands out. -/
def hands (s : System α) : Action α → Option (String × α)
  | .get => s.queue.get.1.item?
  | _ => none

theorem hands_some {s : System α} {a : Action α} {key : String} {payload : α}
    (h : s.hands a = some (key, payload)) :
    a = .get ∧ s.queue.closed = false ∧ s.queue.pending.get? key = some payload := by
  cases a with
  | get => exact ⟨rfl, (get_eq_item h).1, (get_eq_item h).2.1⟩
  | _ => cases h

/-- The queue after a run. -/
def run (backoff : Backoff) (s : System α) (actions : List (Action α)) : System α :=
  actions.foldl (step backoff) s

/-- What a run hands out, in order. -/
def handed (backoff : Backoff) (s : System α) : List (Action α) → List (String × α)
  | [] => []
  | a :: actions => (s.hands a).toList ++ (s.step backoff a).handed backoff actions

variable {backoff : Backoff} {s : System α}

@[simp] theorem run_nil : s.run backoff [] = s := rfl

@[simp] theorem run_cons (a : Action α) (actions : List (Action α)) :
    s.run backoff (a :: actions) = (s.step backoff a).run backoff actions := rfl

theorem run_append (before after : List (Action α)) :
    s.run backoff (before ++ after) = (s.run backoff before).run backoff after :=
  List.foldl_append

@[simp] theorem handed_nil : s.handed backoff [] = [] := rfl

@[simp] theorem handed_cons (a : Action α) (actions : List (Action α)) :
    s.handed backoff (a :: actions) =
      (s.hands a).toList ++ (s.step backoff a).handed backoff actions := rfl

/-- What an action does to the queue. -/
inductive Move (backoff : Backoff) (s : System α) : Action α → Prop
  /-- Nobody is handed anything and nothing is taken in: a get for which there is nothing, a retry
  that was superseded or is not there, or what comes to a closed queue. -/
  | stays (a : Action α) (ready : List String) (hands : s.hands a = none)
      (queue : (s.step backoff a).queue = { s.queue with ready }) : Move backoff s a
  | adds (key : String) (payload : α) (opened : s.queue.closed = false)
      (queue : (s.step backoff (.add key payload)).queue = { s.queue with
        pending := s.queue.pending.insert key payload
        scheduled := s.queue.scheduled.erase key
        ready := if s.queue.pending.has key || s.queue.inHand.contains key then s.queue.ready
          else s.queue.ready ++ [key] }) : Move backoff s (.add key payload)
  | takes (key : String) (payload : α) (ready : List String)
      (hands : s.hands .get = some (key, payload))
      (queue : (s.step backoff .get).queue = { s.queue with
        ready, pending := s.queue.pending.erase key, inHand := s.queue.inHand.add key }) :
      Move backoff s .get
  | settles (key : String) (queue : (s.step backoff (.done key)).queue = s.queue.done key) :
      Move backoff s (.done key)
  | forgets (key : String) (queue : (s.step backoff (.forget key)).queue = s.queue.forget key) :
      Move backoff s (.forget key)
  | fails (key : String) (payload : α) (opened : s.queue.closed = false)
      (queue : (s.step backoff (.retry key payload)).queue = { s.queue with
        failures := s.queue.failures.insert key (s.queue.failureCount key + 1)
        scheduled := s.queue.scheduled.insert key (s.queue.lastGeneration + 1)
        lastGeneration := s.queue.lastGeneration + 1 }) : Move backoff s (.retry key payload)
  /-- A retry comes back to a key with a newer payload. -/
  | yields (place : Nat) (r : Retry α) (there : s.retries[place]? = some r)
      (current : s.queue.scheduled.get? r.key = some r.generation)
      (pending : s.queue.pending.has r.key = true)
      (queue : (s.step backoff (.fire place)).queue =
        { s.queue with scheduled := s.queue.scheduled.erase r.key }) : Move backoff s (.fire place)
  /-- A retry comes back and is pending. -/
  | returns (place : Nat) (r : Retry α) (there : s.retries[place]? = some r)
      (current : s.queue.scheduled.get? r.key = some r.generation)
      (free : s.queue.pending.has r.key = false)
      (queue : (s.step backoff (.fire place)).queue =
        { s.queue with scheduled := s.queue.scheduled.erase r.key }.push r.key r.payload) :
      Move backoff s (.fire place)
  | closes (queue : (s.step backoff .close).queue = s.queue.close) : Move backoff s .close

theorem move (backoff : Backoff) (s : System α) (a : Action α) : Move backoff s a := by
  cases a with
  | add key payload =>
    cases hc : s.queue.closed with
    | true => exact .stays _ s.queue.ready rfl (add_of_closed hc key payload)
    | false => exact .adds key payload hc (add_of_open hc key payload)
  | get =>
    cases hg : s.queue.get.1.item? with
    | none => exact .stays _ s.queue.get.2.ready hg (get_eq_none hg)
    | some item =>
      obtain ⟨key, payload⟩ := item
      obtain ⟨-, -, rest, hq⟩ := get_eq_item hg
      exact .takes key payload rest hg hq
  | done key => exact .settles key rfl
  | forget key => exact .forgets key rfl
  | retry key payload =>
    cases hc : s.queue.closed with
    | true => exact .stays _ s.queue.ready rfl (by simp only [step, retry_of_closed hc])
    | false => exact .fails key payload hc (by simp only [step, retry_of_open hc])
  | fire place =>
    cases hr : s.retries[place]? with
    | none => exact .stays _ s.queue.ready rfl (by simp only [step, hr])
    | some r =>
      have hstep : (s.step backoff (.fire place)).queue =
          s.queue.fire r.key r.payload r.generation := by simp only [step, hr]
      obtain ⟨he, -⟩ | ⟨-, hg, ⟨hp, he⟩ | ⟨hp, he⟩⟩ :=
        fire_cases s.queue r.key r.payload r.generation
      · exact .stays _ s.queue.ready rfl (hstep.trans he)
      · exact .yields place r hr hg hp (hstep.trans he)
      · exact .returns place r hr hg hp (hstep.trans he)
  | close => exact .closes rfl

/-- Only closing closes a queue. -/
theorem step_closed {a : Action α} (ha : a ≠ .close) :
    (s.step backoff a).queue.closed = s.queue.closed := by
  cases move backoff s a with
  | closes queue => exact absurd rfl ha
  | stays _ ready hands queue => rw [queue]
  | adds key payload opened queue => rw [queue]
  | takes key payload ready hands queue => rw [queue]
  | settles key queue | forgets key queue => rfl
  | fails key payload opened queue => rw [queue]
  | yields place r there current pending queue => rw [queue]
  | returns place r there current free queue =>
    rw [queue]
    rfl

theorem open_of_step {a : Action α} (h : (s.step backoff a).queue.closed = false) :
    s.queue.closed = false := by
  by_cases ha : a = .close
  · subst ha
    cases h
  · rwa [step_closed ha] at h

theorem run_closed {actions : List (Action α)} (ha : ∀ a ∈ actions, a ≠ .close) :
    (s.run backoff actions).queue.closed = s.queue.closed := by
  have hopen : Obeys (step backoff) (fun _ a => a ≠ .close) s actions :=
    .of_forall fun a h _ => ha a h
  exact hopen.foldl (motive := fun t : System α => t.queue.closed = s.queue.closed) rfl
    fun _ _ h hne => (step_closed hne).trans h

end System

end Queue

end ClusterHerald
