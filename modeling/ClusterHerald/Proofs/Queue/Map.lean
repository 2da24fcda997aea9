import ClusterHerald.Proofs.Queue.Run

/-!
# Queues do not look into payloads

Changing every payload of a queue commutes with every operation, and so with every run
(`System.run_map`).  A run with marked payloads is thus the run without the marks, as far as the
queue is concerned.
-/

namespace ClusterHerald

universe u v

namespace Queue

variable {α : Type u} {β : Type v}

/-- Changes every payload. -/
def map (f : α → β) (q : Queue α) : Queue β :=
  { ready := q.ready, pending := q.pending.map f, inHand := q.inHand, failures := q.failures,
    scheduled := q.scheduled, lastGeneration := q.lastGeneration, closed := q.closed }

section

variable (f : α → β) (q : Queue α)

@[simp] theorem map_closed : (q.map f).closed = q.closed := rfl

@[simp] theorem map_pending : (q.map f).pending = q.pending.map f := rfl

@[simp] theorem map_scheduled : (q.map f).scheduled = q.scheduled := rfl

theorem map_push (key : String) (payload : α) :
    (q.push key payload).map f = (q.map f).push key (f payload) := by
  simp only [push, map, Table.map_insert]
  rfl

theorem map_add (key : String) (payload : α) :
    (q.add key payload).map f = (q.map f).add key (f payload) := by
  unfold add
  simp only [map_closed, map_pending, Table.has_map]
  split
  · rfl
  · split
    · simp [map, Table.map_insert]
    · exact map_push f _ key payload

theorem map_fire (key : String) (payload : α) (generation : Nat) :
    (q.fire key payload generation).map f = (q.map f).fire key (f payload) generation := by
  unfold fire
  simp only [map_closed, map_pending, map_scheduled, Table.has_map]
  split
  · rfl
  · split
    · rfl
    · split
      · rfl
      · exact map_push f _ key payload

theorem firstPending_map (pending : Table α) (keys : List String) :
    firstPending (pending.map f) keys =
      (firstPending pending keys).map fun found => ((found.1.1, f found.1.2), found.2) := by
  induction keys with
  | nil => rfl
  | cons key keys ih =>
    simp only [firstPending, Table.get?_map, ih]
    cases pending.get? key <;> rfl

theorem item?_get_map :
    (q.map f).get.1.item? = q.get.1.item?.map fun item => (item.1, f item.2) := by
  cases hc : q.closed with
  | true => simp [get, hc, Taken.item?]
  | false =>
    cases hf : firstPending q.pending q.ready with
    | none => simp [get, map, hc, firstPending_map, hf, Taken.item?]
    | some found => simp [get, map, hc, firstPending_map, hf, Taken.item?]

theorem map_get : q.get.2.map f = (q.map f).get.2 := by
  cases hc : q.closed with
  | true => simp [get, hc]
  | false =>
    cases hf : firstPending q.pending q.ready with
    | none => simp [get, map, hc, firstPending_map, hf]
    | some found => simp [get, map, hc, firstPending_map, hf, Table.map_erase]

theorem map_done (key : String) : (q.done key).map f = (q.map f).done key := by
  simp [done, map]

theorem retry_map (backoff : Backoff) (key : String) :
    (q.map f).retry backoff key =
      ((q.retry backoff key).1, (q.retry backoff key).2.map f) := by
  cases hc : q.closed with
  | true => rw [retry_of_closed hc, retry_of_closed (q := q.map f) hc]
  | false =>
    rw [retry_of_open hc, retry_of_open (q := q.map f) hc]
    rfl

end

/-! ### Runs -/

/-- Changes the payload of a retry. -/
def Retry.map (f : α → β) (r : Retry α) : Retry β := ⟨r.key, f r.payload, r.generation⟩

/-- Changes the payload of an action. -/
def Action.map (f : α → β) : Action α → Action β
  | .add key payload => .add key (f payload)
  | .get => .get
  | .done key => .done key
  | .forget key => .forget key
  | .retry key payload => .retry key (f payload)
  | .fire place => .fire place
  | .close => .close

namespace System

/-- Changes every payload. -/
def map (f : α → β) (s : System α) : System β :=
  ⟨s.queue.map f, s.retries.map (Retry.map f)⟩

variable {backoff : Backoff} (f : α → β)

@[simp] theorem map_start : (start : System α).map f = start := rfl

theorem map_step (backoff : Backoff) (f : α → β) (s : System α) (a : Action α) :
    (s.step backoff a).map f = (s.map f).step backoff (a.map f) := by
  cases a with
  | add key payload => simp [step, map, Action.map, map_add]
  | get => simp [step, map, Action.map, map_get]
  | done key => simp [step, map, Action.map, map_done]
  | forget key => rfl
  | retry key payload =>
    simp only [step, map, Action.map, retry_map]
    rcases s.queue.retry backoff key with ⟨_ | ⟨delay, generation⟩, q⟩
    · rfl
    · simp [Retry.map]
  | fire place =>
    simp only [step, map, Action.map, List.getElem?_map]
    cases s.retries[place]? with
    | none => rfl
    | some r => simp [map_fire, Retry.map, List.eraseIdx_eq_take_drop_succ]
  | close => rfl

theorem hands_map (s : System α) (a : Action α) :
    (s.map f).hands (a.map f) = (s.hands a).map fun item => (item.1, f item.2) := by
  cases a with
  | get => exact item?_get_map f s.queue
  | _ => rfl

theorem map_run (s : System α) (actions : List (Action α)) :
    (s.run backoff actions).map f = (s.map f).run backoff (actions.map (Action.map f)) := by
  induction actions generalizing s with
  | nil => rfl
  | cons a actions ih => simp [ih, map_step]

end System

end Queue

end ClusterHerald
