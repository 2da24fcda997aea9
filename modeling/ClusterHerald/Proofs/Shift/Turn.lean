import ClusterHerald.Proofs.Shift

/-!
# The worker's turn

In its turn the worker takes a key, processes its change, tells the queue what became of it, and is
done with the key.  `Shift.Turn` says once what each action does to that turn, and what the queue is
told; the proofs about the end of a shift, its failures and what is remembered of them are case
analyses over it.
-/

namespace ClusterHerald

open Queue

universe u

namespace Shift

variable {f : Shift} {s : State}

/-- The key that the worker has in hand. -/
def Stage.key? : Stage → Option String
  | .taken key _ | .processed key _ _ | .told key => some key
  | .idle => none

/-- How many steps the worker has to take until it is done with its key. -/
def Stage.left : Stage → Nat
  | .taken _ _ => 3
  | .processed _ _ _ => 2
  | .told _ => 1
  | .idle => 0

/-- The action processes a change, if there is one in hand. -/
def Action.isProcess : Action.{u} → Bool
  | .process _ _ => true
  | _ => false

/-- What an action does to the worker's turn. -/
inductive Turn (f : Shift) (s : State) (a : Action.{u}) : Prop
  /-- The worker does nothing, and others add a change, let a retry come back, or close the queue. -/
  | stays (stage : (f.step s a).stage = s.stage) (attempts : (f.step s a).attempts = s.attempts)
      (others : ∀ b, s.command? a = some b →
        (∃ key x, b = .add key x) ∨ (∃ place, b = .fire place) ∨ a = .close ∧ b = .close)
  | takes (before : s.stage = .idle) (command : s.command? a = some .get)
      (after : (f.step s a).stage =
        ((s.system.hands .get).map fun item => .taken item.1 item.2).getD .idle)
      (attempts : (f.step s a).attempts = s.attempts)
  | processes (attempt : Attempt) (before : s.stage = .taken attempt.key attempt.change)
      (command : s.command? a = none)
      (after : (f.step s a).stage =
        .processed attempt.key attempt.change attempt.outcome.isFailed)
      (attempts : (f.step s a).attempts = s.attempts ++ [attempt])
  | reports (key : String) (x : Numbered Change) (failed : Bool) (action : a = .report)
      (before : s.stage = .processed key x failed)
      (command : s.command? a = some (ending s key x failed))
      (after : (f.step s a).stage = .told key) (attempts : (f.step s a).attempts = s.attempts)
  | finishes (key : String) (before : s.stage = .told key)
      (command : s.command? a = some (.done key)) (after : (f.step s a).stage = .idle)
      (attempts : (f.step s a).attempts = s.attempts)

/-- What does not fit the worker's turn does nothing. -/
theorem Turn.of_eq {a : Action.{u}} (h : f.step s a = s) (hc : s.command? a = none) : Turn f s a :=
  .stays (by rw [h]) (by rw [h]) (by simp [hc])

theorem turn (f : Shift) (s : State) (a : Action.{u}) : Turn f s a := by
  cases a with
  | add key c | fire place | close => exact .stays rfl rfl (by simp [State.command?])
  | take =>
    cases hs : s.stage with
    | idle =>
      exact .takes hs (by simp only [State.command?, hs]) (by simp only [step, hs])
        (by simp only [step, hs])
    | _ => exact .of_eq (by simp only [step, hs]) (by simp only [State.command?, hs])
  | process world t =>
    cases hs : s.stage with
    | taken key x =>
      obtain ⟨posted, -, hstep⟩ := exists_step_process f hs world t
      exact .processes ⟨key, x, _, posted⟩ hs rfl (by rw [hstep]) (by rw [hstep])
    | _ => exact .of_eq (by simp only [step, hs]) rfl
  | report =>
    cases hs : s.stage with
    | processed key x failed =>
      exact .reports key x failed rfl hs (command?_report hs) (by simp only [step, hs])
        (by simp only [step, hs])
    | _ => exact .of_eq (by simp only [step, hs]) (by simp only [State.command?, hs])
  | finish =>
    cases hs : s.stage with
    | told key =>
      exact .finishes key hs (by simp only [State.command?, hs]) (by simp only [step, hs])
        (by simp only [step, hs])
    | _ => exact .of_eq (by simp only [step, hs]) (by simp only [State.command?, hs])

/-- The steps of the worker end with its key, which is not in hand any more. -/
theorem idle_of_steps (f : Shift) (s : State) {σ : Type u} (world : World σ) (t : σ) :
    let u := f.run s [.process world t, .report, .finish]
    u.stage = .idle ∧
      ∀ key, s.stage.key? = some key → u.system.queue.inHand.contains key = false := by
  cases hs : s.stage <;>
    simp [run, step, hs, Stage.key?, System.step, done, NameSet.contains_erase]

end Shift

end ClusterHerald
