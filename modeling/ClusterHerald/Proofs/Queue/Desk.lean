import ClusterHerald.Proofs.Queue.Map
import ClusterHerald.Proofs.Queue.Scheduled

/-!
# Keys at a desk

The parties that take keys from a queue tell it of every payload, before the key is done, what
became of it: that it may be forgotten or that it has to come back.  `Desk` is a queue with what
the parties know, and `Desk.Careful` the rule that they keep to; anybody may add payloads at any
time, and retries come back whenever their delays are over.

A desk also keeps a record of what was handed out.  An entry is `late` if a retry had made the
payload pending while the key was in hand with another payload whose outcome was still open.

Neither tasks nor records are part of the queue (`Desk.system_run`), and what is kept of them does
not depend on the payloads (`Desk.map_run`).
-/

namespace ClusterHerald

universe u v

namespace Queue

variable {α : Type u} {β : Type v}

/-- How far the handling of a key in hand is. -/
inductive Task (α : Type u) where
  /-- The outcome of the payload is open. -/
  | processing (payload : α)
  /-- The queue was told the outcome. -/
  | settled

/-- The payload whose outcome is open. -/
def Task.open? : Task α → Option α
  | .processing payload => some payload
  | .settled => none

/-- A payload that was handed out. -/
structure HandOut (α : Type u) where
  key : String
  payload : α
  /-- A retry made the payload pending while the outcome of another payload was open. -/
  late : Bool

/-- A queue and what the parties know that use it. -/
structure Desk (α : Type u) where
  system : System α
  /-- The keys in hand, with how far they are. -/
  tasks : Table (Task α)
  /-- The keys whose pending payload a retry brought while the outcome of another was open. -/
  late : NameSet
  /-- What was handed out, oldest first. -/
  record : List (HandOut α)

namespace Desk

/-- A desk before the first action. -/
def start : Desk α := ⟨.start, .empty, .empty, []⟩

/-- The payload of `key` whose outcome is open. -/
def processing? (d : Desk α) (key : String) : Option α :=
  (d.tasks.get? key).bind Task.open?

/-- What was handed out for `key`, oldest first. -/
def handOuts (d : Desk α) (key : String) : List (HandOut α) :=
  d.record.filter (·.key = key)

/-- The desk after an action. -/
def step (backoff : Backoff) (d : Desk α) (a : Action α) : Desk α :=
  let system := d.system.step backoff a
  match a with
  | .add key _ => { d with system, late := d.late.erase key }
  | .get =>
    match d.system.hands .get with
    | some (key, payload) =>
      { system
        tasks := d.tasks.insert key (.processing payload)
        late := d.late.erase key
        record := d.record ++ [⟨key, payload, d.late.contains key⟩] }
    | none => { d with system }
  | .forget key | .retry key _ => { d with system, tasks := d.tasks.insert key .settled }
  | .done key => { d with system, tasks := d.tasks.erase key }
  | .fire place =>
    match d.system.comesBack place with
    | some key =>
      { d with
        system
        late := if (d.processing? key).isSome then d.late.add key else d.late.erase key }
    | none => { d with system }
  | .close => { d with system }

/-- The desk after a run. -/
def run (backoff : Backoff) (d : Desk α) (actions : List (Action α)) : Desk α :=
  actions.foldl (step backoff) d

/-- Each outcome is told once, by the party that has the key in hand, and before the key is done.
A payload that has to come back is the one that was handed out. -/
def Careful (d : Desk α) : Action α → Prop
  | .forget key => (d.processing? key).isSome = true
  | .retry key payload => d.processing? key = some payload
  | .done key => d.tasks.get? key = some .settled
  | _ => True

variable {backoff : Backoff} {d : Desk α}

/-! ### The queue on the desk -/

theorem system_step (a : Action α) : (d.step backoff a).system = d.system.step backoff a := by
  cases a with
  | get => simp only [step]; split <;> rfl
  | fire place => simp only [step]; split <;> rfl
  | _ => rfl

theorem system_run (actions : List (Action α)) :
    (d.run backoff actions).system = d.system.run backoff actions := by
  induction actions generalizing d with
  | nil => rfl
  | cons a actions ih =>
    change ((d.step backoff a).run backoff actions).system = _
    rw [ih, system_step]
    rfl

/-- An action that hands out a payload puts it on the record, and no other action touches it. -/
theorem record_step_cases (backoff : Backoff) (d : Desk α) (a : Action α) :
    (d.step backoff a).record = d.record ∧ d.system.hands a = none ∨
      ∃ key payload,
        (d.step backoff a).record = d.record ++ [⟨key, payload, d.late.contains key⟩] ∧
        d.system.hands a = some (key, payload) := by
  cases a with
  | get =>
    cases hg : d.system.hands .get with
    | none => exact .inl ⟨by simp only [step, hg], rfl⟩
    | some item => exact .inr ⟨item.1, item.2, by simp only [step, hg], rfl⟩
  | fire place => exact .inl ⟨by simp only [step]; split <;> rfl, rfl⟩
  | _ => exact .inl ⟨rfl, rfl⟩

/-- The pending payload of a key is handed out for it, or the key is handed nothing. -/
theorem handOuts_step_cases (backoff : Backoff) (d : Desk α) (a : Action α) (key : String) :
    (d.step backoff a).handOuts key = d.handOuts key ∨
      ∃ payload, d.system.queue.closed = false ∧ d.system.queue.pending.get? key = some payload ∧
        (d.step backoff a).handOuts key =
          d.handOuts key ++ [⟨key, payload, d.late.contains key⟩] := by
  obtain ⟨hr, -⟩ | ⟨k, payload, hr, hh⟩ := record_step_cases backoff d a
  · exact .inl (by rw [handOuts, hr, handOuts])
  · by_cases hk : k = key
    · subst hk
      obtain ⟨-, hc, hp⟩ := System.hands_some hh
      exact .inr ⟨payload, hc, hp, by simp [handOuts, hr]⟩
    · exact .inl (by simp [handOuts, hr, hk])

/-- The record says what was handed out. -/
theorem record_step (a : Action α) :
    (d.step backoff a).record.map (fun h => (h.key, h.payload)) =
      d.record.map (fun h => (h.key, h.payload)) ++ (d.system.hands a).toList := by
  obtain ⟨hr, hh⟩ | ⟨key, payload, hr, hh⟩ := record_step_cases backoff d a <;>
    simp [hr, hh]

theorem record_run (backoff : Backoff) (d : Desk α) (actions : List (Action α)) :
    (d.run backoff actions).record.map (fun h => (h.key, h.payload)) =
      d.record.map (fun h => (h.key, h.payload)) ++ d.system.handed backoff actions := by
  induction actions generalizing d with
  | nil => simp [run]
  | cons a actions ih =>
    change ((d.step backoff a).run backoff actions).record.map _ = _
    rw [ih, record_step, system_step, List.append_assoc]
    rfl

end Desk

/-! ### Other payloads -/

/-- Changes the payload of a task. -/
def Task.map (f : α → β) : Task α → Task β
  | .processing payload => .processing (f payload)
  | .settled => .settled

/-- Changes the payload of an entry. -/
def HandOut.map (f : α → β) (h : HandOut α) : HandOut β := ⟨h.key, f h.payload, h.late⟩

theorem System.comesBack_map (f : α → β) (s : System α) (place : Nat) :
    (s.map f).comesBack place = s.comesBack place := by
  simp only [comesBack, System.map, List.getElem?_map]
  cases s.retries[place]? with
  | none => rfl
  | some r =>
    simp only [Option.map_some, Retry.map, ← map_fire, map_pending, Table.has_map]

namespace Desk

/-- Changes every payload. -/
def map (f : α → β) (d : Desk α) : Desk β :=
  ⟨d.system.map f, d.tasks.map (Task.map f), d.late, d.record.map (HandOut.map f)⟩

variable {backoff : Backoff} (f : α → β)

@[simp] theorem map_start : (start : Desk α).map f = start := rfl

@[simp] theorem map_system (d : Desk α) : (d.map f).system = d.system.map f := rfl

theorem processing?_map (d : Desk α) (key : String) :
    (d.map f).processing? key = (d.processing? key).map f := by
  simp only [processing?, map, Table.get?_map]
  rcases d.tasks.get? key with _ | _ | _ <;> rfl

theorem handOuts_map (d : Desk α) (key : String) :
    (d.map f).handOuts key = (d.handOuts key).map (HandOut.map f) := by
  simp only [handOuts, map, List.filter_map]
  rfl

theorem map_step (d : Desk α) (a : Action α) :
    (d.step backoff a).map f = (d.map f).step backoff (a.map f) := by
  have hs := System.map_step backoff f d.system a
  cases a with
  | add key payload => simp only [step, map, hs]; rfl
  | get =>
    have hh := System.hands_map f d.system .get
    simp only [Action.map] at hh hs
    simp only [step, Action.map, map_system, hh]
    cases d.system.hands .get with
    | none => simp only [map, hs]; rfl
    | some item => simp [map, hs, Table.map_insert, Task.map, HandOut.map]
  | done key => simp only [step, map, hs, Table.map_erase]; rfl
  | forget key => simp only [step, map, hs, Table.map_insert]; rfl
  | retry key payload => simp only [step, map, hs, Table.map_insert]; rfl
  | fire place =>
    simp only [Action.map] at hs
    simp only [step, Action.map, map_system, System.comesBack_map, processing?_map,
      Option.isSome_map]
    cases d.system.comesBack place with
    | none => simp only [map, hs]
    | some key => simp only [map, hs]
  | close => simp only [step, map, hs]; rfl

theorem map_run (d : Desk α) (actions : List (Action α)) :
    (d.run backoff actions).map f = (d.map f).run backoff (actions.map (Action.map f)) := by
  induction actions generalizing d with
  | nil => rfl
  | cons a actions ih =>
    change ((d.step backoff a).run backoff actions).map f = _
    rw [ih, map_step]
    rfl

end Desk

end Queue

end ClusterHerald
