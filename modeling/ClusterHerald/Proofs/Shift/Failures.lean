import ClusterHerald.Proofs.Queue.Failures
import ClusterHerald.Proofs.Shift.Closing

/-!
# Failures of a shift

The worker counts the failed attempts at a key in its queue.  It reads the count and then raises or
clears it, while changes are added and retries come back in between; but nobody else touches the
count, so it tells how many attempts at the key have failed in a row, whichever change they were
made at.

What an action tells the queue is `State.command?`, and what it means for the failures of one key
is `Effect`: the proofs about runs are case analyses over that.

* `Shift.effect` : an action makes an attempt fail, or tells the queue of it, or clears the failures
  of the key, or leaves them alone;
* `Shift.tally_run` : the attempts that fail between two clearings are those that the queue counts;
* `Shift.sixth_failure_gives_up` : no more than six attempts fail in a row.
-/

namespace ClusterHerald

open Queue

universe u

namespace Shift

variable {f : Shift} {s s' : State} {key : String} {x : Numbered Change} {a : Action.{u}}

/-! ### Clearing the failures of a key -/

/-- The key that the queue forgets. -/
def forgotten? : Queue.Action (Numbered Change) → Option String
  | .forget key => some key
  | .add _ _ | .get | .done _ | .retry _ _ | .fire _ | .close => none

/-- The action clears the failures of a key. -/
def State.Clears (s : State) (key : String) (a : Action.{u}) : Prop :=
  s.command? a = some (.forget key)

theorem bind_forgotten?_iff {command : Option (Queue.Action (Numbered Change))} :
    command.bind forgotten? = some key ↔ command = some (.forget key) := by
  rcases command with _ | b
  · simp
  · cases b <;> simp [forgotten?]

instance (s : State) (key : String) (a : Action.{u}) : Decidable (s.Clears key a) :=
  decidable_of_iff ((s.command? a).bind forgotten? = some key) bind_forgotten?_iff

/-- Failures are cleared by an attempt that does not fail, and by one that fails once too often. -/
theorem clears_iff :
    s.Clears key a ↔ a = .report ∧ ∃ x failed, s.stage = .processed key x failed ∧
      (failed = true → maxRetries ≤ s.system.queue.failureCount key) := by
  unfold State.Clears
  cases a with
  | report =>
    simp only [State.command?, true_and]
    split
    · next k y failed hs =>
      simp only [ending, hs, Option.some.injEq, Stage.processed.injEq]
      by_cases hend : (failed && decide (s.system.queue.failureCount k < maxRetries)) = true
      · rw [if_pos hend]
        simp only [Bool.and_eq_true, decide_eq_true_eq] at hend
        refine iff_of_false (by simp) ?_
        rintro ⟨_, _, ⟨rfl, rfl, rfl⟩, hmany⟩
        exact absurd (hmany hend.1) (Nat.not_le.2 hend.2)
      · rw [if_neg hend]
        simp only [Bool.and_eq_true, decide_eq_true_eq, not_and, Nat.not_lt] at hend
        constructor
        · rintro ⟨⟩
          exact ⟨y, failed, ⟨rfl, rfl, rfl⟩, hend⟩
        · rintro ⟨_, _, ⟨rfl, rfl, rfl⟩, -⟩
          rfl
    · next hs =>
      refine iff_of_false (by simp) ?_
      rintro ⟨y, failed, h, -⟩
      exact hs _ _ _ h
  | take | finish =>
    simp only [State.command?]
    split <;> simp
  | _ => simp [State.command?]

/-! ### What an action does to the failures of a key -/

/-- How many attempts at the key have failed. -/
def State.failed (s : State) (key : String) : Nat :=
  s.attempts.countP fun a => a.key = key && a.outcome.isFailed

/-- How many attempts at the key have failed in a row that the queue has counted. -/
def State.count (s : State) (key : String) : Nat :=
  s.system.queue.failureCount key

/-- How many attempts at the key have failed that the queue was not told of. -/
def Stage.untold (key : String) : Stage → Nat
  | .processed k _ failed => if k = key && failed then 1 else 0
  | .idle | .taken _ _ | .told _ => 0

theorem untold_le_one (stage : Stage) (key : String) : stage.untold key ≤ 1 := by
  cases stage with
  | processed k y failed =>
    simp only [Stage.untold]
    split <;> omega
  | _ => exact Nat.zero_le 1

theorem untold_eq_one_iff {stage : Stage} :
    stage.untold key = 1 ↔ ∃ x, stage = .processed key x true := by
  cases stage with
  | processed k y failed => cases failed <;> simp [Stage.untold, eq_comm]
  | _ => simp [Stage.untold]

/-- The generation of the scheduled retry of the key. -/
def State.scheduled? (s : State) (key : String) : Option Nat :=
  s.system.queue.scheduled.get? key

/-- What an action does to the failures of a key. -/
inductive Effect (f : Shift) (key : String) (s : State) (a : Action.{u}) : Prop
  /-- Neither is there a new failure of the key nor is the queue told of one, nor are they
  cleared. -/
  | nothing (quiet : ¬ s.Clears key a) (failed : (f.step s a).failed key = s.failed key)
      (count : (f.step s a).count key = s.count key)
      (untold : (f.step s a).stage.untold key = s.stage.untold key)
      (scheduled : s.scheduled? key = none → (f.step s a).scheduled? key = none)
  /-- An attempt fails. -/
  | fails (x : Numbered Change) (failed : (f.step s a).failed key = s.failed key + 1)
      (before : s.stage = .taken key x) (after : (f.step s a).stage = .processed key x true)
      (system : (f.step s a).system = s.system)
  /-- The queue is told of a failure, and counts it unless it is closed. -/
  | counts (x : Numbered Change) (failed : (f.step s a).failed key = s.failed key)
      (before : s.stage = .processed key x true) (after : (f.step s a).stage = .told key)
      (few : s.count key < maxRetries)
      (count : (f.step s a).count key =
        if s.system.queue.closed then s.count key else s.count key + 1)
  /-- The failures are cleared. -/
  | clears (clears : s.Clears key a) (failed : (f.step s a).failed key = s.failed key)
      (after : (f.step s a).stage = .told key) (count : (f.step s a).count key = 0)
      (scheduled : (f.step s a).scheduled? key = none)
      (retries : (f.step s a).system.retries = s.system.retries)

/-- A command that tells the queue nothing of the failures of a key leaves them alone. -/
theorem quiet_of_command (backoff : Backoff) {t : System (Numbered Change)}
    {b : Queue.Action (Numbered Change)} (hr : ∀ x, b ≠ .retry key x) (hf : b ≠ .forget key) :
    (t.step backoff b).queue.failureCount key = t.queue.failureCount key ∧
      (t.queue.scheduled.get? key = none →
        (t.step backoff b).queue.scheduled.get? key = none) := by
  constructor
  · unfold failureCount
    obtain he | ⟨k, y, rfl, -, he⟩ | ⟨k, rfl, he⟩ := System.failures_step_cases backoff t b
    · rw [he]
    · have hk : k ≠ key := fun hk => hr y (hk ▸ rfl)
      rw [he, Table.get?_insert_ne _ hk]
    · have hk : k ≠ key := fun hk => hf (hk ▸ rfl)
      rw [he, Table.get?_erase_ne _ hk]
  · intro hnone
    refine Option.eq_none_iff_forall_ne_some.2 fun generation hg => ?_
    obtain hold | ⟨y, rfl, -, -⟩ := System.scheduled_of_step_generation hg
    · rw [hnone] at hold
      cases hold
    · exact hr y rfl

/-- An action that makes no attempt, and tells the queue nothing of the failures of a key, leaves
them alone. -/
theorem effect_of_command (hattempts : (f.step s a).attempts = s.attempts)
    (huntold : (f.step s a).stage.untold key = s.stage.untold key)
    (hc : ∀ b ∈ s.command? a, (∀ x, b ≠ .retry key x) ∧ b ≠ .forget key) : Effect f key s a := by
  have hfailed : (f.step s a).failed key = s.failed key := by rw [State.failed, hattempts]; rfl
  cases hb : s.command? a with
  | none =>
    have hsystem := system_step_of_none (f := f) hb
    exact .nothing (by simp [State.Clears, hb]) hfailed (by rw [State.count, hsystem]; rfl) huntold
      (by rw [State.scheduled?, State.scheduled?, hsystem]; exact id)
  | some b =>
    obtain ⟨hr, hf⟩ := hc b hb
    obtain ⟨hcount, hnone⟩ := quiet_of_command f.backoff (t := s.system) hr hf
    have hsystem := system_step_of_command (f := f) hb
    have hquiet : ¬ s.Clears key a := by simpa [State.Clears, hb] using hf
    exact .nothing hquiet hfailed (by rw [State.count, hsystem]; exact hcount) huntold
      (by rw [State.scheduled?, State.scheduled?, hsystem]; exact hnone)

/-- An attempt is a new failure if it fails, and the queue is not told of it yet. -/
theorem effect_of_attempt {attempt : Attempt}
    (before : s.stage = .taken attempt.key attempt.change) (command : s.command? a = none)
    (after : (f.step s a).stage =
      .processed attempt.key attempt.change attempt.outcome.isFailed)
    (attempts : (f.step s a).attempts = s.attempts ++ [attempt]) : Effect f key s a := by
  have hsystem := system_step_of_none (f := f) command
  have hfailed : (f.step s a).failed key =
      s.failed key + if attempt.key = key && attempt.outcome.isFailed then 1 else 0 := by
    rw [State.failed, attempts, List.countP_append, List.countP_singleton]
    rfl
  by_cases hk : (attempt.key = key && attempt.outcome.isFailed) = true
  · rw [if_pos hk] at hfailed
    simp only [Bool.and_eq_true, decide_eq_true_eq] at hk
    obtain ⟨rfl, hout⟩ := hk
    exact .fails attempt.change hfailed before (by rw [after, hout]) hsystem
  · rw [if_neg hk] at hfailed
    refine .nothing (by simp [State.Clears, command]) hfailed (by rw [State.count, hsystem]; rfl)
      ?_ (by rw [State.scheduled?, State.scheduled?, hsystem]; exact id)
    rw [after, before, Stage.untold, if_neg hk]
    rfl

/-- What the queue is told of an attempt is a failure that it counts, or clears the failures. -/
theorem effect_of_report {k : String} {failed : Bool} (before : s.stage = .processed k x failed)
    (command : s.command? .report.{u} = some (ending s k x failed))
    (after : (f.step s .report.{u}).stage = .told k)
    (attempts : (f.step s .report.{u}).attempts = s.attempts) : Effect f key s .report.{u} := by
  by_cases hk : k = key
  · subst hk
    have hsystem := system_step_of_command (f := f) command
    have hfailed : (f.step s .report.{u}).failed k = s.failed k := by
      rw [State.failed, attempts]
      rfl
    obtain ⟨hend, rfl⟩ | hend := ending_cases s k x failed
    · have hfew : s.count k < maxRetries := by
        refine Nat.lt_of_not_le fun hmany => ?_
        have := clears_iff.{u}.2 ⟨rfl, x, true, before, fun _ => hmany⟩
        rw [State.Clears, command, hend] at this
        cases this
      refine .counts x hfailed before after hfew ?_
      rw [State.count, hsystem, hend, State.count]
      cases hc : s.system.queue.closed with
      | true => simp [System.step, retry_of_closed hc]
      | false => simp [System.step, retry_of_open hc, failureCount]
    · rw [hend] at command hsystem
      refine .clears command hfailed after ?_ ?_ ?_
      · rw [State.count, hsystem]
        simp [System.step, forget, failureCount]
      · rw [State.scheduled?, hsystem]
        simp [System.step, forget]
      · rw [hsystem]
        rfl
  · refine effect_of_command attempts ?_ fun b hb => ?_
    · simp [after, before, Stage.untold, hk]
    · rw [command] at hb
      cases hb
      obtain ⟨hend, -⟩ | hend := ending_cases s k x failed <;> rw [hend] <;> simp [hk]

/-- What an action does to the failures of a key. -/
theorem effect (f : Shift) (key : String) (s : State) (a : Action.{u}) : Effect f key s a := by
  cases turn f s a with
  | stays stage attempts others =>
    refine effect_of_command attempts (by rw [stage]) fun b hb => ?_
    obtain ⟨k, x, rfl⟩ | ⟨place, rfl⟩ | ⟨-, rfl⟩ := others b hb <;> simp
  | takes before command after attempts =>
    refine effect_of_command attempts ?_ (by simp [command])
    rw [before, after]
    cases s.system.hands .get <;> rfl
  | processes attempt before command after attempts =>
    exact effect_of_attempt before command after attempts
  | reports k x failed action before command after attempts =>
    subst action
    exact effect_of_report before command after attempts
  | finishes k before command after attempts =>
    refine effect_of_command attempts ?_ (by simp [command])
    rw [before, after]
    rfl

/-! ### Failures in a row -/

/-- How many attempts at the key have failed in a row: those that the queue has counted, and one that
it may not have been told of. -/
def State.row (s : State) (key : String) : Nat :=
  s.count key + s.stage.untold key

theorem count_le_step (f : Shift) (key : String) (h : s.count key ≤ maxRetries) (a : Action.{u}) :
    (f.step s a).count key ≤ maxRetries := by
  cases effect f key s a with
  | nothing quiet failed count untold scheduled => rwa [count]
  | fails x failed before after system => rwa [State.count, system]
  | counts x failed before after few count =>
    rw [count]
    split
    · exact h
    · exact few
  | clears clears failed after count scheduled retries =>
    rw [count]
    exact Nat.zero_le maxRetries

/-- The queue never counts more failures than it lets come back. -/
theorem count_le_run (f : Shift) (key : String) (h : s.count key ≤ maxRetries)
    (actions : List Action.{u}) : (f.run s actions).count key ≤ maxRetries := by
  induction actions generalizing s with
  | nil => exact h
  | cons a actions ih => exact ih (count_le_step f key h a)

theorem failed_le_step (f : Shift) (key : String) (s : State) (a : Action.{u}) :
    s.failed key ≤ (f.step s a).failed key := by
  cases effect f key s a <;> omega

/-- What has become of the failures of a key since a state, while they were not cleared. -/
inductive Tally (key : String) (s t : State) : Prop
  /-- The attempts that have failed since are in the row. -/
  | inRow (row : t.failed key + s.row key = s.failed key + t.row key)
  /-- The queue was closed before it was told of the last one, which is not counted any more. -/
  | closed (closed : t.system.queue.closed = true) (few : t.stage.left < 2)
      (failed : t.failed key ≤ s.failed key + maxRetries)

theorem tally_step (f : Shift) {s t : State} (h : Tally key s t) {a : Action.{u}}
    (ha : ¬ t.Clears key a) : Tally key s (f.step t a) := by
  cases h with
  | inRow row =>
    unfold State.row at row
    cases effect f key t a with
    | nothing quiet failed count untold scheduled =>
      exact .inRow (by unfold State.row; omega)
    | fails x failed before after system =>
      have hcount : (f.step t a).count key = t.count key := by rw [State.count, system]; rfl
      have hbefore : t.stage.untold key = 0 := by rw [before]; rfl
      have hafter := untold_eq_one_iff.2 ⟨x, after⟩
      exact .inRow (by unfold State.row; omega)
    | counts x failed before after few count =>
      have hbefore := untold_eq_one_iff.2 ⟨x, before⟩
      have hafter : (f.step t a).stage.untold key = 0 := by rw [after]; rfl
      cases hc : t.system.queue.closed with
      | false =>
        rw [hc] at count
        exact .inRow (by unfold State.row; simp only [count, Bool.false_eq_true, if_false]; omega)
      | true =>
        -- the one failure that is told but not counted; the worker gets no key after it
        refine .closed (closed_step f hc a) ?_ (by omega)
        rw [after]
        exact Nat.lt_succ_self 1
    | clears clears failed after count scheduled retries => exact absurd clears ha
  | closed closed few failed =>
    refine .closed (closed_step f closed a)
      (Nat.lt_of_le_of_lt (left_step_of_closed f closed a) few) ?_
    have hattempts := attempts_step_of_left f (Nat.lt_succ_of_lt few) a
    rwa [State.failed, hattempts]

/-- Between two clearings of a key the attempts that fail are those in the row. -/
theorem tally_run (f : Shift) {s : State} {mid : List Action.{u}}
    (hm : Obeys f.step (fun t a => ¬ t.Clears key a) s mid) : Tally key s (f.run s mid) :=
  hm.foldl (motive := Tally key s) (.inRow rfl) fun _ _ h ha => tally_step f h ha

/-- A failure of the key is counted or is still to be told, or a retry of it is scheduled. -/
def State.Troubled (s : State) (key : String) : Prop :=
  s.count key ≠ 0 ∨ s.scheduled? key ≠ none ∨ s.stage.untold key ≠ 0

/-- A key without trouble gets into it by an attempt that fails. -/
theorem not_troubled_step (f : Shift) (h : ¬ s.Troubled key) {a : Action.{u}}
    (hf : (f.step s a).failed key = s.failed key) : ¬ (f.step s a).Troubled key := by
  unfold State.Troubled at h ⊢
  simp only [not_or, Decidable.not_not] at h ⊢
  obtain ⟨hcount, hscheduled, huntold⟩ := h
  cases effect f key s a with
  | nothing quiet failed count untold scheduled =>
    exact ⟨by rw [count, hcount], scheduled hscheduled, by rw [untold, huntold]⟩
  | fails x failed before after system => omega
  | counts x failed before after few count =>
    rw [untold_eq_one_iff.2 ⟨x, before⟩] at huntold
    cases huntold
  | clears clears failed after count scheduled retries =>
    exact ⟨count, scheduled, by rw [after]; rfl⟩

theorem not_troubled_run (f : Shift) (h : ¬ s.Troubled key) {later : List Action.{u}}
    (hf : (f.run s later).failed key = s.failed key) : ¬ (f.run s later).Troubled key := by
  have hle (t : State) (later : List Action.{u}) : t.failed key ≤ (f.run t later).failed key := by
    induction later generalizing t with
    | nil => exact Nat.le_refl _
    | cons a later ih => exact Nat.le_trans (failed_le_step f key t a) (ih _)
  induction later generalizing s with
  | nil => exact h
  | cons a later ih =>
    -- failed attempts never become fewer, so that no step in between adds one
    have hstep := failed_le_step f key s a
    have hrest := hle (f.step s a) later
    have hsame : (f.step s a).failed key = s.failed key := Nat.le_antisymm (hf ▸ hrest) hstep
    exact ih (not_troubled_step f h hsame) (hf.trans hsame.symm)

/-- Clearing the failures of a key ends its trouble. -/
theorem not_troubled_of_clears (f : Shift) {a : Action.{u}} (h : s.Clears key a) :
    ¬ (f.step s a).Troubled key ∧ (f.step s a).failed key = s.failed key ∧
      (f.step s a).system.retries = s.system.retries := by
  cases effect f key s a with
  | nothing quiet failed count untold scheduled => exact absurd h quiet
  | clears clears failed after count scheduled retries =>
    refine ⟨?_, failed, retries⟩
    unfold State.Troubled
    simp [count, scheduled, after, Stage.untold]
  | fails x failed before after system =>
    obtain ⟨-, y, failed', hs, -⟩ := clears_iff.1 h
    rw [before] at hs
    cases hs
  | counts x failed before after few count =>
    obtain ⟨-, y, failed', hs, hmany⟩ := clears_iff.1 h
    rw [before] at hs
    cases hs
    exact absurd (hmany rfl) (Nat.not_le.2 few)

/-- Nobody else touches the count between the end of an attempt and what the worker tells the queue
of it. -/
theorem count_run_of_processed (f : Shift) {failed : Bool} (hs : s.stage = .processed key x failed)
    {mid : List Action.{u}} (hm : ∀ a ∈ mid, a ≠ .report) :
    (f.run s mid).count key = s.count key := by
  induction mid generalizing s with
  | nil => rfl
  | cons a mid ih =>
    have ha := hm a List.mem_cons_self
    have hstage : (f.step s a).stage = .processed key x failed := by
      cases a with
      | report => exact absurd rfl ha
      | _ => simp only [step, hs]
    have hcount : (f.step s a).count key = s.count key := by
      cases effect f key s a with
      | nothing quiet failed count untold scheduled => exact count
      | fails y failed before after system => rw [State.count, system]; rfl
      | counts y failed before after few count =>
        rw [hstage] at after
        cases after
      | clears clears failed after count scheduled retries => exact absurd (clears_iff.1 clears).1 ha
    exact (ih hstage fun b hb => hm b (List.mem_cons_of_mem a hb)).trans hcount

theorem clears_of_succeeded (hs : s.stage = .processed key x false) : s.Clears key .report.{u} :=
  clears_iff.2 ⟨rfl, x, false, hs, nofun⟩

/-- **A change is given up when it fails for the sixth time.**  Whatever happens to a worker and its
queue, and whatever look-ups answer:

* the queue counts at most as many failures of a key as it lets come back, and what it has counted
  does not change between the end of an attempt and what the worker tells it of the attempt;
* as long as the failures of a key are not cleared, no more than six attempts at it fail, whichever
  of its changes they are made at.  When the sixth has failed, the worker clears the failures, and
  no retry is scheduled;
* an attempt that does not fail clears the failures of its key;
* once they are cleared, the count of the key is zero and no retry of it is scheduled, until another
  attempt at it fails. -/
theorem sixth_failure_gives_up (f : Shift) (before : List Action.{u}) (key : String) :
    let s := f.run start before
    s.count key ≤ maxRetries ∧
    (∀ x failed, s.stage = .processed key x failed → ∀ mid : List Action.{u},
      (∀ a ∈ mid, a ≠ .report) → (f.run s mid).count key = s.count key) ∧
    (∀ mid : List Action.{u}, Obeys f.step (fun t a => ¬ t.Clears key a) s mid →
      let t := f.run s mid
      t.failed key ≤ s.failed key + (maxRetries + 1) ∧
      (t.failed key = s.failed key + (maxRetries + 1) →
        (∃ x, t.stage = .processed key x true) ∧ t.Clears key .report.{u} ∧
        let u := f.step t .report.{u}
        u.count key = 0 ∧ u.scheduled? key = none ∧ u.system.retries = t.system.retries)) ∧
    (∀ x, s.stage = .processed key x false → s.Clears key .report.{u}) ∧
    ∀ a : Action.{u}, s.Clears key a → ∀ later : List Action.{u},
      let t := f.run (f.step s a) later
      t.failed key = s.failed key → t.count key = 0 ∧ t.scheduled? key = none := by
  intro s
  have hstart : start.count key ≤ maxRetries := Nat.zero_le maxRetries
  have hs : s.count key ≤ maxRetries := count_le_run f key hstart before
  have hcleared {t : State} (h : ¬ t.Troubled key) :
      t.count key = 0 ∧ t.scheduled? key = none := by
    simp only [State.Troubled, not_or, Decidable.not_not] at h
    exact ⟨h.1, h.2.1⟩
  refine ⟨hs, fun x failed hstage mid => count_run_of_processed f hstage, ?_,
    fun x => clears_of_succeeded, ?_⟩
  · intro mid hm t
    have ht : t.count key ≤ maxRetries := count_le_run f key hs mid
    have huntold := untold_le_one t.stage key
    have htally : Tally key s t := tally_run f hm
    cases htally with
    | closed closed few failed => exact ⟨Nat.le_succ_of_le failed, fun hsix => by omega⟩
    | inRow row =>
      unfold State.row at row
      refine ⟨by omega, fun hsix => ?_⟩
      -- the queue counts five at most, so that the sixth is still to be told
      have hmany : maxRetries ≤ t.count key := by omega
      obtain ⟨x, hstage⟩ := untold_eq_one_iff.1 (show t.stage.untold key = 1 by omega)
      have hclears : t.Clears key .report.{u} :=
        clears_iff.2 ⟨rfl, x, true, hstage, fun _ => hmany⟩
      obtain ⟨htrouble, -, hretries⟩ := not_troubled_of_clears f hclears
      obtain ⟨hcount, hscheduled⟩ := hcleared htrouble
      exact ⟨⟨x, hstage⟩, hclears, hcount, hscheduled, hretries⟩
  · intro a ha later t hf
    obtain ⟨htrouble, hfailed, -⟩ := not_troubled_of_clears f ha
    exact hcleared (not_troubled_run f htrouble (hf.trans hfailed.symm))

/-- Six attempts at a key fail in a row, the third of them at a change that replaced the first one
while it was scheduled, and with another key in between. -/
theorem replaced_change_gives_up :
    let f : Shift := ⟨⟨⟨"Pod", "", "v1", "pods", true, none, .empty⟩, default, []⟩, .standard⟩
    let c : Change := ⟨"a/x", .update, "Pod", "v1", none, none, none⟩
    let world : World Unit := ⟨fun _ s => (.error (.unavailable "a/x"), s),
      fun s => (⟨"", ""⟩, s), fun _ s => (none, s)⟩
    let attempt : List Action.{0} := [.take, .process world (), .report, .finish]
    let mid : List Action.{0} := [.add "a/x" c] ++ attempt ++ [.fire 0] ++ attempt ++
      [.add "a/y" c, .add "a/x" { c with type := .create }, .fire 0] ++ attempt ++ attempt ++
      [.fire 1] ++ attempt ++ [.fire 1] ++ attempt ++ [.fire 1, .take, .process world ()]
    let s := f.run start []
    let t := f.run s mid
    Obeys f.step (fun t a => ¬ t.Clears "a/x" a) s mid ∧
      t.failed "a/x" = s.failed "a/x" + (maxRetries + 1) ∧
      (f.step t .report.{0}).count "a/x" = 0 := by
  intro f c world attempt mid s t
  have hm : Obeys f.step (fun t a => ¬ t.Clears "a/x" a) s mid := by decide +kernel
  have hsix : t.failed "a/x" = s.failed "a/x" + (maxRetries + 1) := by decide +kernel
  obtain ⟨-, hgiven⟩ := (sixth_failure_gives_up f [] "a/x").2.2.1 mid hm
  exact ⟨hm, hsix, (hgiven hsix).2.2.1⟩

end Shift

end ClusterHerald
