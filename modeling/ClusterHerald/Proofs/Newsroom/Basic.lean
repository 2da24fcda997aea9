import ClusterHerald.Proofs.Shift.Steady
import ClusterHerald.Proofs.Watch.Scene

/-!
# The watch and the worker of a kind

A newsroom is the shift of a worker whose look-ups see what the watch has stored.  The watch and the
worker go on independently.  The watch observes an event and enqueues its changes
(`Action.observe`), and only then applies the event to the store that look-ups see
(`Action.apply`).  The worker takes a change (`Action.take`), looks its object up and judges the
change by what it finds (`Action.judge`), tells the queue what became of it (`Action.report`), and is
done with the key (`Action.finish`).  The watch may go on between any two of these, so a change may
be judged by what a later event shows.  The retry of a failed attempt comes back at any time
(`Action.fire`).

Every list of actions is a run, and `Newsroom.attempts` is what the worker judges in it.  The
changes of one event are enqueued at once: only the end of a listing has several of them, and these
are deletions.  An event that cannot be taken ends a watch; here it changes nothing, and a run may
go on without further events.

* `Newsroom.steady_run` : the queue stays open, its line in order, and the key in hand is that of the
  worker;
* `Newsroom.next_step` : what becomes of the next change of a key;
* `Newsroom.reaches_of_next` : the worker comes to it.
-/

namespace ClusterHerald

universe u

/-- A shift with its surroundings. -/
structure Newsroom (σ : Type u) extends Shift where
  /-- The world of the worker, apart from look-ups. -/
  outside : World σ

namespace Newsroom

/-- The state of a kind. -/
structure State (σ : Type u) where
  /-- What the watch keeps, with every event that was observed. -/
  scene : Scene
  /-- The store that look-ups see: before or after the last event. -/
  shown : Store
  /-- A listing began and is not complete. -/
  listing : Bool
  shift : Shift.State
  outside : σ

/-- What may happen next. -/
inductive Action where
  /-- An event is observed, and its changes are enqueued.  The event before it is applied. -/
  | observe (e : WatchEvent)
  /-- Look-ups see the last event. -/
  | apply
  /-- The worker takes the next change, if there is one. -/
  | take
  /-- The worker looks up the object of the change that it took, and processes it. -/
  | judge
  /-- The worker tells the queue what became of the change. -/
  | report
  /-- The worker is done with the key. -/
  | finish
  /-- The retry at a place among those that are still to come back falls due. -/
  | fire (place : Nat)

/-- An attempt of the worker to process a change. -/
structure Attempt where
  key : String
  change : Change
  /-- What look-ups saw. -/
  shown : Store
  outcome : Outcome

variable {σ : Type u}

/-- Before the first event. -/
def start (n : Newsroom σ) (outside : σ) : State σ :=
  ⟨.start n.worker.kind, .empty, false, Shift.start, outside⟩

/-- What processing a change comes to. -/
def answer (n : Newsroom σ) (s : State σ) (c : Change) : Outcome × σ :=
  n.worker.process (s.shown.serving n.outside) c s.outside

/-- The attempt at the change that the worker took, if it judges it now. -/
def attempt? (n : Newsroom σ) (s : State σ) : Option Attempt :=
  match s.shift.stage with
  | .taken key x => some ⟨key, x.payload, s.shown, (n.answer s x.payload).1⟩
  | .idle | .processed _ _ _ | .told _ => none

/-- What an action is to the shift. -/
def moves (n : Newsroom σ) (s : State σ) : Action → List Shift.Action.{u}
  | .observe e =>
    match s.scene.take e with
    | .ok (changes, _) => Shift.adds changes
    | .error _ => []
  | .apply => []
  | .take => [.take]
  | .judge => [.process (s.shown.serving n.outside) s.outside]
  | .report => [.report]
  | .finish => [.finish]
  | .fire place => [.fire place]

/-- Whether a listing is under way after an event. -/
def goesOn (listing : Bool) : WatchEvent → Bool
  | .listing => true
  | .complete => false
  | .listed _ | .applied _ | .deleted _ => listing

/-- The state after an action. -/
def step (n : Newsroom σ) (s : State σ) (a : Action) : State σ :=
  let shift := n.toShift.run s.shift (n.moves s a)
  match a with
  | .observe e =>
    match s.scene.take e with
    | .ok (_, scene) => ⟨scene, s.scene.store, goesOn s.listing e, shift, s.outside⟩
    | .error _ => s
  | .apply => { s with shown := s.scene.store }
  | .judge =>
    { s with
      shift
      outside := ((n.attempt? s).map fun a => (n.answer s a.change).2).getD s.outside }
  | .take | .report | .finish | .fire _ => { s with shift }

/-- The state after a run. -/
def run (n : Newsroom σ) (s : State σ) (actions : List Action) : State σ :=
  actions.foldl n.step s

/-- The attempt that an action is. -/
def made (n : Newsroom σ) (s : State σ) : Action → Option Attempt
  | .judge => n.attempt? s
  | .observe _ | .apply | .take | .report | .finish | .fire _ => none

/-- The attempts of a run, in order. -/
def attempts (n : Newsroom σ) (s : State σ) : List Action → List Attempt
  | [] => []
  | a :: actions => (n.made s a).toList ++ n.attempts (n.step s a) actions

/-- A whole turn of the worker. -/
def turn : List Action := [.take, .judge, .report, .finish]

/-- Whole turns of the worker. -/
def turns (m : Nat) : List Action := (List.replicate m turn).flatten

variable {n : Newsroom σ} {s : State σ} {key : String} {a : Attempt}

@[simp] theorem run_nil : n.run s [] = s := rfl

@[simp] theorem run_cons (a : Action) (actions : List Action) :
    n.run s (a :: actions) = n.run (n.step s a) actions := rfl

theorem run_append (before after : List Action) :
    n.run s (before ++ after) = n.run (n.run s before) after :=
  List.foldl_append

theorem mem_attempts_cons {b : Action} {actions : List Action} :
    a ∈ n.attempts s (b :: actions) ↔
      n.made s b = some a ∨ a ∈ n.attempts (n.step s b) actions := by
  simp [attempts]

theorem mem_attempts_append {before after : List Action} :
    a ∈ n.attempts s (before ++ after) ↔
      a ∈ n.attempts s before ∨ a ∈ n.attempts (n.run s before) after := by
  induction before generalizing s with
  | nil => simp [attempts]
  | cons b before ih => rw [List.cons_append, mem_attempts_cons, ih, mem_attempts_cons, or_assoc]; rfl

theorem made_eq_some {b : Action} (h : n.made s b = some a) :
    b = .judge ∧ n.attempt? s = some a := by
  cases b with
  | judge => exact ⟨rfl, h⟩
  | _ => cases h

theorem attempt?_of_taken {x : Queue.Numbered Change} (h : s.shift.stage = .taken key x) :
    n.attempt? s = some ⟨key, x.payload, s.shown, (n.answer s x.payload).1⟩ := by
  simp only [attempt?, h]

theorem attempt?_eq_some :
    n.attempt? s = some a ↔
      (∃ x, s.shift.stage = .taken a.key x ∧ x.payload = a.change) ∧ a.shown = s.shown ∧
        a.outcome = (n.answer s a.change).1 := by
  constructor
  · intro h
    cases hs : s.shift.stage with
    | taken k x =>
      rw [attempt?_of_taken hs] at h
      cases h
      exact ⟨⟨x, rfl, rfl⟩, rfl, rfl⟩
    | _ =>
      simp only [attempt?, hs] at h
      cases h
  · obtain ⟨key, change, shown, outcome⟩ := a
    rintro ⟨⟨x, hs, hx⟩, hshown, houtcome⟩
    rw [attempt?_of_taken hs, Option.some.injEq, Attempt.mk.injEq]
    exact ⟨rfl, hx, hshown.symm, (congrArg (fun c => (n.answer s c).1) hx).trans houtcome.symm⟩

/-! ### Actions and the shift -/

theorem step_observe {e : WatchEvent} {changes : List Change} {scene : Scene}
    (h : s.scene.take e = .ok (changes, scene)) :
    n.step s (.observe e) =
      ⟨scene, s.scene.store, goesOn s.listing e, n.toShift.run s.shift (Shift.adds.{u} changes),
        s.outside⟩ := by
  simp only [step, moves, h]

/-- An event that cannot be taken changes nothing. -/
theorem step_observe_of_error {e : WatchEvent} {failure : Nameless}
    (h : s.scene.take e = .error failure) : n.step s (.observe e) = s := by
  simp only [step, h]

theorem shift_step (n : Newsroom σ) (s : State σ) (b : Action) :
    (n.step s b).shift = n.toShift.run s.shift (n.moves s b) := by
  cases b with
  | observe e =>
    simp only [step, moves]
    cases s.scene.take e <;> rfl
  | _ => rfl

/-- Nobody closes the queue. -/
theorem ne_close_of_mem_moves {b : Action} {m : Shift.Action.{u}} (h : m ∈ n.moves s b) :
    m ≠ .close := by
  rintro rfl
  cases b with
  | observe e =>
    simp only [moves] at h
    split at h
    · obtain ⟨c, -, hc⟩ := List.mem_map.1 h
      cases hc
    · cases h
  | _ => simp [moves] at h

theorem steady_step (h : Shift.Steady s.shift) (b : Action) :
    Shift.Steady (n.step s b).shift := by
  rw [shift_step]
  exact h.run fun _ => ne_close_of_mem_moves

theorem steady_run (h : Shift.Steady s.shift) (actions : List Action) :
    Shift.Steady (n.run s actions).shift := by
  induction actions generalizing s with
  | nil => exact h
  | cons b actions ih => exact ih (steady_step h b)

/-- What is reported of an object that was found. -/
theorem reported_finding? (w : Observer) (f? : Option Finding) (key : String) :
    Shift.reported (f?.toList.map (w.changeAt · key)) key = f?.map (w.changeAt · key) := by
  cases f? with
  | none => rfl
  | some f => simp [Shift.reported, Observer.changeAt]

/-- What becomes of the next change of a key: it stays so, or the worker judges it, or the changes
of an event have a newer one of its key. -/
theorem next_step (h : Shift.Steady s.shift) {c : Change} (hn : s.shift.Next key c) (b : Action) :
    (n.step s b).shift.Next key c ∨
      (∃ a, n.made s b = some a ∧ a.key = key ∧ a.change = c) ∨
      ∃ e changes scene d, b = .observe e ∧ s.scene.take e = .ok (changes, scene) ∧
        d ∈ changes ∧ d.key = key ∧ (n.step s b).shift.Next key d := by
  have quiet {m : Shift.Action.{u}} (hm : n.moves s b = [m]) (ha : ∀ k d, m ≠ .add k d)
      (hp : m.isProcess = false) : (n.step s b).shift.Next key c := by
    rw [shift_step, hm]
    obtain hnext | ⟨hprocess, -⟩ := hn.step (f := n.toShift) ha
    · exact hnext
    · rw [hp] at hprocess
      cases hprocess
  cases b with
  | apply => exact .inl hn
  | take | report | finish | fire place => exact .inl (quiet rfl (by simp) rfl)
  | judge =>
    obtain hnext | ⟨-, x, hx, rfl⟩ := hn.step (f := n.toShift)
      (a := .process (s.shown.serving n.outside) s.outside) (by simp)
    · exact .inl hnext
    · exact .inr (.inl ⟨_, attempt?_of_taken hx, rfl, rfl⟩)
  | observe e =>
    cases ht : s.scene.take e with
    | error =>
      rw [step_observe_of_error ht]
      exact .inl hn
    | ok taken =>
      obtain ⟨changes, scene⟩ := taken
      obtain ⟨hpending, hstage, -⟩ := Shift.run_adds.{u} n.toShift h.isOpen changes key
      rw [step_observe ht]
      simp only [Shift.State.Next, hpending, hstage]
      obtain ⟨hp, hk⟩ | htaken := hn
      · cases hr : Shift.reported changes key with
        | none => exact .inl (.inl ⟨hp, hk⟩)
        | some d =>
          obtain ⟨hmem, hd⟩ := Shift.reported_mem hr
          exact .inr (.inr ⟨e, changes, scene, d, rfl, ht, hmem, hd, .inl ⟨rfl, hk⟩⟩)
      · exact .inl (.inr htaken)

/-- The worker judges the next change of a key, if it judges one of this key. -/
theorem attempt?_of_next {c : Change} (hn : s.shift.Next key c) (ha : n.attempt? s = some a)
    (hk : a.key = key) : a.change = c := by
  obtain ⟨⟨x, hx, hchange⟩, -⟩ := attempt?_eq_some.1 ha
  obtain ⟨-, hne⟩ | ⟨y, hy, rfl⟩ := hn
  · rw [hx, ← hk] at hne
    exact absurd rfl hne
  · rw [hx, Shift.Stage.taken.injEq] at hy
    rw [← hchange, hy.2]

/-! ### Whole turns -/

theorem turns_succ (m : Nat) : turns (m + 1) = turn ++ turns m := by
  simp [turns, List.replicate_succ]

theorem shift_run_turn (n : Newsroom σ) (s : State σ) :
    (n.run s turn).shift =
      n.toShift.run s.shift (Shift.turnIn (s.shown.serving n.outside) s.outside) := rfl

/-- In a turn the worker judges what it has taken. -/
theorem mem_attempts_turn : a ∈ n.attempts s turn ↔ n.attempt? (n.step s .take) = some a := by
  simp [turn, attempts, made]

/-- The worker comes to a key: after some whole turns it takes a change of the key, and it judges
none of it before. -/
def Reaches (n : Newsroom σ) (s : State σ) (key : String) : Prop :=
  ∃ m a, n.attempt? (n.run s (turns m ++ [.take])) = some a ∧ a.key = key ∧
    ∀ b ∈ n.attempts s (turns m ++ [.take]), b.key ≠ key

theorem Reaches.of_turn (h : n.Reaches (n.run s turn) key)
    (hne : ∀ b ∈ n.attempt? (n.step s .take), b.key ≠ key) : n.Reaches s key := by
  obtain ⟨m, a, ha, hkey, hfirst⟩ := h
  refine ⟨m + 1, a, ?_, hkey, fun b hb => ?_⟩
  · rw [turns_succ, List.append_assoc, run_append]
    exact ha
  · rw [turns_succ, List.append_assoc, mem_attempts_append] at hb
    rcases hb with hb | hb
    · exact hne b (mem_attempts_turn.1 hb)
    · exact hfirst b hb

theorem reaches_of_taken {x : Queue.Numbered Change}
    (h : (n.step s .take).shift.stage = .taken key x) : n.Reaches s key := by
  refine ⟨0, _, attempt?_of_taken h, rfl, fun b hb => ?_⟩
  cases hb

/-- A worker without a key comes to every key of the line. -/
theorem reaches_of_ready (h : Shift.Steady s.shift) (hs : s.shift.stage = .idle)
    (hk : key ∈ s.shift.system.queue.ready) : n.Reaches s key := by
  -- every turn takes the first key off the line, so the induction is on the line
  generalize hr : s.shift.system.queue.ready = keys at hk
  induction keys generalizing s with
  | nil => cases hk
  | cons first keys ih =>
    obtain ⟨⟨x, hx⟩, hidle, hrest⟩ :=
      h.turn (f := n.toShift) hs hr (s.shown.serving n.outside) s.outside
    by_cases hfirst : first = key
    · exact reaches_of_taken (hfirst ▸ hx)
    · have hk : key ∈ keys := (List.mem_cons.1 hk).resolve_left fun h => hfirst h.symm
      refine (ih (steady_run h turn) hidle hrest hk).of_turn fun b hb => ?_
      rw [attempt?_of_taken hx] at hb
      cases hb
      exact hfirst

/-- The worker comes to the next change of every key. -/
theorem reaches_of_next (h : Shift.Steady s.shift) {c : Change} (hn : s.shift.Next key c) :
    n.Reaches s key := by
  have htake : (n.step s .take).shift = n.toShift.step s.shift .take.{u} := rfl
  obtain ⟨hp, hk⟩ | ⟨x, hx, -⟩ := hn
  · by_cases hidle : s.shift.stage = .idle
    · exact reaches_of_ready h hidle (h.mem_ready_of_pending? hp hk)
    · -- the turn that is under way ends first
      obtain ⟨hidle', hkept⟩ := Shift.run_turnIn_of_ne_idle (f := n.toShift) hidle
        (s.shown.serving n.outside) s.outside
      rw [← shift_run_turn n s] at hidle' hkept
      have hturn := steady_run (n := n) h turn
      have hready : key ∈ (n.run s turn).shift.system.queue.ready :=
        hturn.mem_ready_of_pending? (hkept key c hp) (by rw [hidle']; nofun)
      refine (reaches_of_ready hturn hidle' hready).of_turn fun b hb => ?_
      obtain ⟨⟨y, hy, -⟩, -⟩ := attempt?_eq_some.1 hb
      rw [htake, Shift.step_take_of_ne_idle hidle] at hy
      rintro rfl
      exact hk (by rw [hy]; rfl)
  · refine reaches_of_taken (x := x) ?_
    rw [htake, Shift.step_take_of_ne_idle (by rw [hx]; nofun), hx]

end Newsroom

end ClusterHerald
