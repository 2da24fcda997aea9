import ClusterHerald.Proofs.Shift
import ClusterHerald.Proofs.Watch.Scene

/-!
# A watch with the shift of its worker

A bureau is what belongs to one kind: the scene of its watch, and the shift of its worker with the
queue between the two.  The watch takes its events, and the changes that an event shows are put in
line (`Action.observe`).  Between any two events the worker goes on, retries come back and the queue
may be closed (`Action.work`).  Look-ups and receivers answer as they please, so unlike a newsroom a
bureau does not say when look-ups see an event.  As in a newsroom, the changes of one event are put in
line at once.

Nobody but the watch adds changes.  So the changes that were added are those that the watch has
shown, in order (`Bureau.added_run`), and these depend on the events alone
(`Bureau.shown_eq_reports`).
-/

namespace ClusterHerald

universe u

namespace Scene

variable {s : Scene} {s? : Option Scene} {e : WatchEvent} {c : Change} {changes : List Change}

/-- A watch takes an event.  An object without a name ends it, and then it shows nothing. -/
def emit : Option Scene → WatchEvent → List Change × Option Scene
  | none, _ => ([], none)
  | some s, e =>
    match s.take e with
    | .ok (changes, s) => (changes, some s)
    | .error _ => ([], none)

/-- The changes that a watch shows, in order. -/
def reports : Option Scene → List WatchEvent → List Change
  | _, [] => []
  | s?, e :: events => (emit s? e).1 ++ reports (emit s? e).2 events

theorem emit_of_take {s' : Scene} (h : s.take e = .ok (changes, s')) :
    emit (some s) e = (changes, some s') := by
  simp only [emit, h]

theorem mem_emit_iff : c ∈ (emit s? e).1 ↔
    ∃ s changes s', s? = some s ∧ s.take e = .ok (changes, s') ∧ c ∈ changes := by
  constructor
  · intro hc
    cases s? with
    | none => cases hc
    | some s =>
      cases ht : s.take e with
      | error => simp only [emit, ht] at hc; cases hc
      | ok taken =>
        rw [emit_of_take ht] at hc
        exact ⟨s, _, _, rfl, ht, hc⟩
  · rintro ⟨s, changes, s', rfl, ht, hc⟩
    rwa [emit_of_take ht]

end Scene

/-- The state of a kind. -/
structure Bureau where
  /-- The scene of the watch, until an object without a name ends it. -/
  scene? : Option Scene
  shift : Shift.State

namespace Bureau

/-- What may happen next. -/
inductive Action : Type (u + 1) where
  /-- The watch observes an event, and the changes are put in line. -/
  | observe (e : WatchEvent)
  /-- The worker goes on, a retry comes back, or the queue is closed. -/
  | work (a : Shift.Action.{u})

/-- Before the first event. -/
def start (f : Shift) : Bureau := ⟨some (.start f.worker.kind), Shift.start⟩

/-- The changes that an action shows. -/
def shows (s : Bureau) : Action.{u} → List Change
  | .observe e => (Scene.emit s.scene? e).1
  | .work _ => []

/-- What an action is to the shift.  Nobody but the watch adds changes. -/
def moves (s : Bureau) : Action.{u} → List Shift.Action.{u}
  | .observe e => (s.shows (.observe.{u} e)).map fun c => .add c.key c
  | .work (.add _ _) => []
  | .work a => [a]

/-- The state after an action. -/
def step (f : Shift) (s : Bureau) (a : Action.{u}) : Bureau where
  scene? :=
    match a with
    | .observe e => (Scene.emit s.scene? e).2
    | .work _ => s.scene?
  shift := f.run s.shift (s.moves a)

/-- The state after a run. -/
def run (f : Shift) (s : Bureau) (actions : List Action.{u}) : Bureau :=
  actions.foldl (step f) s

/-- The changes that a run shows, in order. -/
def shown (f : Shift) (s : Bureau) : List Action.{u} → List Change
  | [] => []
  | a :: actions => s.shows a ++ shown f (s.step f a) actions

/-- The events of a run. -/
def events (actions : List Action.{u}) : List WatchEvent :=
  actions.filterMap fun
    | .observe e => some e
    | .work _ => none

variable {f : Shift} {s : Bureau} {c : Change} {actions : List Action.{u}}

/-- What a run shows depends on its events alone. -/
theorem shown_eq_reports (f : Shift) (s : Bureau) (actions : List Action.{u}) :
    shown f s actions = Scene.reports s.scene? (events actions) := by
  induction actions generalizing s with
  | nil => rfl
  | cons a actions ih =>
    rw [shown, ih]
    cases a <;> rfl

theorem flatMap_addition_moves (s : Bureau) (a : Action.{u}) :
    (s.moves a).flatMap Shift.Action.addition = (s.shows a).map fun c => (c.key, c) := by
  cases a with
  | observe e =>
    rw [moves, List.flatMap_map, List.map_eq_flatMap]
    rfl
  | work a => cases a <;> rfl

/-- The changes that were added are those that the watch has shown. -/
theorem added_run (f : Shift) (s : Bureau) (actions : List Action.{u}) :
    (run f s actions).shift.added =
      s.shift.added ++ (shown f s actions).map fun c => (c.key, c) := by
  induction actions generalizing s with
  | nil => exact (List.append_nil _).symm
  | cons a actions ih =>
    rw [shown, List.map_append, ← List.append_assoc, ← flatMap_addition_moves,
      ← Shift.added_run f s.shift]
    exact ih _

/-- To the shift a run of the bureau is a run of its own. -/
theorem exists_run_shift (f : Shift) (s : Bureau) (actions : List Action.{u}) :
    ∃ moves : List Shift.Action.{u}, (run f s actions).shift = f.run s.shift moves := by
  induction actions generalizing s with
  | nil => exact ⟨[], rfl⟩
  | cons a actions ih =>
    obtain ⟨rest, hrest⟩ := ih (s.step f a)
    exact ⟨s.moves a ++ rest, hrest.trans (Shift.run_append f s.shift _ _).symm⟩

/-- Every change that a run shows is that of an event. -/
theorem mem_shown (h : c ∈ shown f s actions) :
    ∃ before e after, actions = before ++ .observe e :: after ∧
      c ∈ (Scene.emit (run f s before).scene? e).1 := by
  induction actions generalizing s with
  | nil => cases h
  | cons a actions ih =>
    rcases List.mem_append.1 h with hnow | hlater
    · cases a with
      | observe e => exact ⟨[], e, actions, rfl, hnow⟩
      | work a => cases hnow
    · obtain ⟨before, e, after, rfl, hc⟩ := ih hlater
      exact ⟨a :: before, e, after, rfl, hc⟩

end Bureau

end ClusterHerald
