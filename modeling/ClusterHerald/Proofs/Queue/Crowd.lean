import ClusterHerald.Proofs.Queue.Getters

/-!
# A crowd at a queue

Any number of getters come and go while the queue is used.  A getter takes its steps whenever it
likes, and anything may happen between two of them.  `Crowd` is a queue with its getters and its
retries, `Crowd.Action` what may happen next, and every list of actions is a run.

* `Crowd.system_step` : an action of a crowd is an action on its queue, or none;
* `Crowd.lined_run` : who is still to be woken is in line;
* `Crowd.remains_run` : what is left of a closed queue, whatever its crowd does;
* `Crowd.gets_nothing_of_run` : the getters of a closed queue get nothing, and do not wait for it.
-/

namespace ClusterHerald

open Queue (Retry System)

universe u

variable {α : Type u}

/-! ### A queue with its getters -/

/-- A queue with its getters and the retries that are still to come back. -/
structure Crowd (α : Type u) where
  shared : SharedQueue α
  /-- The retries, in the order in which they were scheduled. -/
  retries : List (Retry α)
  /-- How many getters have come. -/
  came : Nat

namespace Crowd

/-- What may happen next. -/
inductive Action (α : Type u) where
  | add (key : String) (payload : α)
  | done (key : String)
  | forget (key : String)
  | retry (key : String) (payload : α)
  /-- The retry at a place among those that are still to come back falls due. -/
  | fire (place : Nat)
  | close
  /-- A new getter comes. -/
  | enter
  /-- A getter takes its next step, if there is one. -/
  | go (getter : Nat)
  /-- A getter gives up. -/
  | leave (getter : Nat)

/-- The open queue without keys, without getters and without retries. -/
def start : Crowd α := ⟨.empty, [], 0⟩

/-- The queue with its retries. -/
def system (s : Crowd α) : System α := ⟨s.shared.queue, s.retries⟩

/-- What an action does to the queue, if anything: a getter asks it when it is registered. -/
def command? (s : Crowd α) : Action α → Option (Queue.Action α)
  | .add key payload => some (.add key payload)
  | .done key => some (.done key)
  | .forget key => some (.forget key)
  | .retry key payload => some (.retry key payload)
  | .fire place => some (.fire place)
  | .close => some .close
  | .go g =>
    match s.shared.stage? g with
    | some (.registered _) => some .get
    | _ => none
  | .enter | .leave _ => none

/-- The state after an action. -/
def step (backoff : Backoff) (s : Crowd α) : Action α → Crowd α
  | .add key payload => { s with shared := s.shared.update (·.add key payload) }
  | .done key => { s with shared := s.shared.update (·.done key) }
  | .forget key => { s with shared := s.shared.update (·.forget key) }
  | .retry key payload =>
    let t := s.system.step backoff (.retry key payload)
    { s with shared := s.shared.update fun _ => t.queue, retries := t.retries }
  | .fire place =>
    let t := s.system.step backoff (.fire place)
    { s with shared := s.shared.update fun _ => t.queue, retries := t.retries }
  | .close => { s with shared := s.shared.close }
  | .enter => { s with shared := s.shared.enter s.came, came := s.came + 1 }
  | .go g => { s with shared := (s.shared.step g).getD s.shared }
  | .leave g => { s with shared := s.shared.cancel g }

/-- The state after a run. -/
def run (backoff : Backoff) (s : Crowd α) (actions : List (Action α)) : Crowd α :=
  actions.foldl (step backoff) s

/-- The action is a step of the getter. -/
def Action.goes (g : Nat) : Action α → Bool
  | .go h => h = g
  | _ => false

variable {backoff : Backoff} {s : Crowd α} {g : Nat}

theorem system_step (backoff : Backoff) (s : Crowd α) (a : Action α) :
    (s.step backoff a).system =
      ((s.command? a).map (s.system.step backoff)).getD s.system := by
  cases a with
  | add key payload | done key | forget key => simp [step, command?, system, System.step]
  | retry key payload | fire place => simp [step, command?, system]
  | close => simp [step, command?, system, System.step]
  | enter => rfl
  | leave g => simp [step, command?, system]
  | go g =>
    simp only [step, command?, SharedQueue.step]
    rcases s.shared.stage? g with _ | (_ | signal | signal | item)
    · rfl
    · simp [system]
    · simp [system, System.step]
    · cases signal <;> simp [system]
    · rfl

theorem lined_step (backoff : Backoff) (h : s.shared.Lined) (a : Action α) :
    (s.step backoff a).shared.Lined := by
  cases a with
  | add key payload | done key | forget key | retry key payload | fire place => exact h.update _
  | close => exact h.close
  | enter => exact h.enter _
  | leave g => exact h.cancel g
  | go g =>
    simp only [step]
    cases hs : s.shared.step g with
    | none => exact h
    | some s' => exact h.step hs

theorem lined_run (backoff : Backoff) (h : s.shared.Lined) (actions : List (Action α)) :
    (s.run backoff actions).shared.Lined := by
  induction actions generalizing s with
  | nil => exact h
  | cons a actions ih => exact ih (lined_step backoff h a)

/-! ### The queue after closing -/

theorem command?_eq_done_iff {a : Action α} {key : String} :
    s.command? a = some (.done key) ↔ a = .done key := by
  cases a with
  | go g =>
    simp only [command?]
    split <;> simp
  | _ => simp [command?]

theorem command?_eq_forget_iff {a : Action α} {key : String} :
    s.command? a = some (.forget key) ↔ a = .forget key := by
  cases a with
  | go g =>
    simp only [command?]
    split <;> simp
  | _ => simp [command?]

/-- What an action leaves of a closed queue and its retries. -/
theorem remains_step (backoff : Backoff) (hc : s.shared.queue.closed = true) (a : Action α) :
    s.shared.queue.Remains (s.step backoff a).shared.queue (fun key => .done key = a)
        (fun key => .forget key = a) ∧
      (s.step backoff a).retries.Sublist s.retries := by
  show s.system.queue.Remains (s.step backoff a).system.queue _ _ ∧
    (s.step backoff a).system.retries.Sublist s.system.retries
  simp only [@eq_comm _ _ a, ← command?_eq_done_iff (s := s), ← command?_eq_forget_iff (s := s)]
  rw [system_step]
  cases s.command? a with
  | none => exact ⟨.refl hc nofun nofun, .refl _⟩
  | some b =>
    simp only [Option.some.injEq, @eq_comm _ b]
    exact ⟨System.remains_step backoff hc b, System.retries_step_of_closed backoff hc b⟩

/-- What a run leaves of a closed queue and its retries. -/
theorem remains_run (backoff : Backoff) (hc : s.shared.queue.closed = true)
    (later : List (Action α)) :
    s.shared.queue.Remains (s.run backoff later).shared.queue (fun key => .done key ∈ later)
        (fun key => .forget key ∈ later) ∧
      (s.run backoff later).retries.Sublist s.retries := by
  induction later generalizing s with
  | nil =>
    exact ⟨.refl hc (fun _ => List.not_mem_nil) (fun _ => List.not_mem_nil), .refl _⟩
  | cons a later ih =>
    obtain ⟨hqueue, hretries⟩ := remains_step backoff hc a
    obtain ⟨hqueue', hretries'⟩ := ih hqueue.closed
    simp only [List.mem_cons]
    exact ⟨hqueue.trans hqueue', hretries'.trans hretries⟩

/-! ### Getters after closing -/

/-- What becomes of a getter of a closed queue.  It stays where it is, but for a getter that comes,
leaves, or takes a step. -/
theorem stage?_step_cases (backoff : Backoff) (hd : s.shared.Dismissed) (a : Action α) (g : Nat) :
    (s.shared.Nudges (s.step backoff a).shared g ∧
        ∀ stage, a = .go g → s.shared.stage? g = some stage → stage.turns = 0) ∨
      (s.shared.stage? g = none ∧ (s.step backoff a).shared.stage? g = some .entering) ∨
      (a = .leave g ∧ (s.step backoff a).shared.stage? g = none) ∨
      a = .go g ∧ ∃ stage stage', s.shared.stage? g = some stage ∧
        (s.step backoff a).shared.stage? g = some stage' ∧ stage'.turns + 1 = stage.turns ∧
        ∀ item, stage' = .finished item → item = none := by
  cases a with
  | add key payload | done key | forget key | retry key payload | fire place =>
    exact .inl ⟨SharedQueue.nudges_update _ _ g, nofun⟩
  | close => exact .inl ⟨SharedQueue.nudges_close _ g, nofun⟩
  | enter =>
    simp only [SharedQueue.Nudges, step, SharedQueue.stage?_enter]
    cases hg : s.shared.stage? g with
    | some stage => exact .inl ⟨.inl rfl, nofun⟩
    | none =>
      split
      · exact .inr (.inl ⟨rfl, rfl⟩)
      · exact .inl ⟨.inl rfl, nofun⟩
  | leave h =>
    by_cases hne : h = g
    · subst hne
      exact .inr (.inr (.inl ⟨rfl, SharedQueue.stage?_cancel_self _ h⟩))
    · exact .inl ⟨SharedQueue.nudges_cancel _ hne, nofun⟩
  | go h =>
    simp only [step]
    cases hs : s.shared.step h with
    | none =>
      refine .inl ⟨.inl rfl, fun stage he hg => ?_⟩
      cases he
      refine Decidable.byContradiction fun hopen => ?_
      obtain ⟨s', hs', -⟩ := hd.step hg hopen
      rw [hs] at hs'
      cases hs'
    | some s' =>
      obtain ⟨stage, hg, hopen⟩ := SharedQueue.turns_ne_zero_of_step hs
      obtain ⟨s'', hs'', ⟨stage', hown⟩, hothers⟩ := hd.step hg hopen
      cases hs.symm.trans hs''
      by_cases hne : h = g
      · subst hne
        exact .inr (.inr (.inr ⟨rfl, stage, stage', hg, hown⟩))
      · exact .inl ⟨hothers g hne, fun _ he => absurd (Action.go.inj he) hne⟩

theorem dismissed_step (backoff : Backoff) (hd : s.shared.Dismissed) (a : Action α) :
    (s.step backoff a).shared.Dismissed := by
  refine ⟨(remains_step backoff hd.closed a).1.closed, fun g hg => ?_⟩
  obtain ⟨hn, -⟩ | ⟨-, hafter⟩ | ⟨-, hafter⟩ | ⟨-, stage, stage', -, hafter, hturns, -⟩ :=
    stage?_step_cases backoff hd a g
  · exact hn.awake (hd.awake g) hg
  · rw [hafter] at hg
    cases hg
  · rw [hafter] at hg
    cases hg
  · -- a getter that waits has the most steps before it
    rw [hafter] at hg
    cases hg
    cases stage <;> simp [Stage.turns] at hturns

/-- Who did not get a key before closing does not get one afterwards. -/
theorem finished_of_step (backoff : Backoff) (hd : s.shared.Dismissed) {a : Action α}
    {item : String × α} (hg : (s.step backoff a).shared.stage? g = some (.finished (some item))) :
    s.shared.stage? g = some (.finished (some item)) := by
  obtain ⟨hn, -⟩ | ⟨-, hafter⟩ | ⟨-, hafter⟩ | ⟨-, stage, stage', -, hafter, -, hitem⟩ :=
    stage?_step_cases backoff hd a g
  · obtain he | ⟨signal, -, he⟩ := hn
    · rwa [he] at hg
    · rw [he] at hg
      obtain ⟨stage, hs, htold⟩ := Option.map_eq_some_iff.1 hg
      rw [hs, Stage.told_eq_finished_iff.1 htold]
  · rw [hafter] at hg
    cases hg
  · rw [hafter] at hg
    cases hg
  · rw [hafter] at hg
    cases hg
    cases hitem _ rfl

/-- A getter comes to its end by its own steps, whatever else happens. -/
theorem turns_step (backoff : Backoff) (hd : s.shared.Dismissed) {stage : Stage α}
    (hg : s.shared.stage? g = some stage) {a : Action α} (ha : a ≠ .leave g) :
    ∃ stage', (s.step backoff a).shared.stage? g = some stage' ∧
      stage'.turns = stage.turns - if a.goes g then 1 else 0 := by
  obtain ⟨hn, hover⟩ | ⟨hnone, -⟩ | ⟨rfl, -⟩ | ⟨rfl, stage₀, stage', hg₀, hafter, hturns, -⟩ :=
    stage?_step_cases backoff hd a g
  · obtain ⟨stage', hafter, hturns, -⟩ := hn.stage hg
    refine ⟨stage', hafter, ?_⟩
    rw [hturns]
    split
    · next hgoes =>
      cases a with
      | go h =>
        obtain rfl : h = g := by simpa [Action.goes] using hgoes
        rw [hover stage rfl hg]
      | _ => cases hgoes
    · rfl
  · rw [hnone] at hg
    cases hg
  · exact absurd rfl ha
  · rw [hg₀] at hg
    cases hg
    refine ⟨stage', hafter, ?_⟩
    rw [if_pos (by simp [Action.goes])]
    omega

theorem turns_run (backoff : Backoff) (hd : s.shared.Dismissed) {stage : Stage α}
    (hg : s.shared.stage? g = some stage) {later : List (Action α)} (hl : .leave g ∉ later) :
    ∃ stage', (s.run backoff later).shared.stage? g = some stage' ∧
      stage'.turns = stage.turns - later.countP (·.goes g) := by
  induction later generalizing s stage with
  | nil => exact ⟨stage, hg, rfl⟩
  | cons a later ih =>
    rw [List.mem_cons, not_or] at hl
    obtain ⟨mid, hmid, hturns⟩ := turns_step backoff hd hg (Ne.symm hl.1)
    obtain ⟨stage', hafter, hrest⟩ := ih (dismissed_step backoff hd a) hmid hl.2
    refine ⟨stage', hafter, ?_⟩
    rw [List.countP_cons, hrest, hturns]
    omega

theorem finished_of_run (backoff : Backoff) (hd : s.shared.Dismissed) {later : List (Action α)}
    {item : String × α}
    (hg : (s.run backoff later).shared.stage? g = some (.finished (some item))) :
    s.shared.stage? g = some (.finished (some item)) := by
  induction later generalizing s with
  | nil => exact hg
  | cons a later ih => exact finished_of_step backoff hd (ih (dismissed_step backoff hd a) hg)

/-- A getter of a closed queue that is not finished gets nothing, as soon as it has taken the steps
that it still has to take. -/
theorem gets_nothing_of_run (backoff : Backoff) (hd : s.shared.Dismissed) {stage : Stage α}
    (hg : s.shared.stage? g = some stage) (hopen : stage.turns ≠ 0) {later : List (Action α)}
    (hl : .leave g ∉ later) (hmany : stage.turns ≤ later.countP (·.goes g)) :
    (s.run backoff later).shared.outcome? g = some none := by
  obtain ⟨stage', hafter, hturns⟩ := turns_run backoff hd hg hl
  have hzero : stage'.turns = 0 := by omega
  cases stage' with
  | finished item =>
    cases item with
    | none => simp only [SharedQueue.outcome?, hafter]
    | some item =>
      -- a key that it has was handed out before closing
      have hbefore := finished_of_run backoff hd hafter
      rw [hg] at hbefore
      cases hbefore
      exact absurd rfl hopen
  | entering | registered signal | waiting signal => cases hzero

theorem dismissed_run (backoff : Backoff) (hd : s.shared.Dismissed) (later : List (Action α)) :
    (s.run backoff later).shared.Dismissed := by
  induction later generalizing s with
  | nil => exact hd
  | cons a later ih => exact ih (dismissed_step backoff hd a)

/-- From closing on the queue is closed, and nobody waits without a signal. -/
theorem dismissed_of_close_mem (backoff : Backoff) (hl : s.shared.Lined)
    {before : List (Action α)} (hclose : .close ∈ before) :
    (s.run backoff before).shared.Dismissed := by
  obtain ⟨first, rest, rfl⟩ := List.append_of_mem hclose
  rw [run, List.foldl_append, List.foldl_cons]
  exact dismissed_run backoff (lined_run backoff hl first).dismissed_close rest

end Crowd

end ClusterHerald
