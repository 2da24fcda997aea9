import ClusterHerald.Proofs.Queue.Crowd
import ClusterHerald.Proofs.Shift.Turn

/-!
# The end of a shift

Closing the queue ends a shift.  The worker still goes through with the key that it has in hand, and
nothing about its attempt is different from any other; but it gets no further key, whatever is
pending or scheduled.

* `Shift.left_step_of_closed` : a worker whose queue is closed only comes nearer to its end;
* `Shift.attempts_run_of_closed` : it makes no attempt any more once it has processed its change;
* `Shift.closing_is_final` : what closing means for a queue, its getters and its worker.
-/

namespace ClusterHerald

open Queue

universe u v

namespace Shift

variable {f : Shift} {s s' : State} {key : String} {x : Numbered Change}

theorem closed_step (f : Shift) (hc : s.system.queue.closed = true) (a : Action.{u}) :
    (f.step s a).system.queue.closed = true := by
  rw [system_step]
  cases s.command? a with
  | none => exact hc
  | some b => exact System.closed_step f.backoff hc b

theorem closed_run (f : Shift) (hc : s.system.queue.closed = true) (later : List Action.{u}) :
    (f.run s later).system.queue.closed = true := by
  induction later generalizing s with
  | nil => exact hc
  | cons a later ih => exact ih (closed_step f hc a)

theorem closed_of_close_mem (f : Shift) (s : State) {before : List Action.{u}}
    (hclose : .close ∈ before) : (f.run s before).system.queue.closed = true := by
  obtain ⟨first, rest, rfl⟩ := List.append_of_mem hclose
  rw [run_append]
  exact closed_run f (s := f.step (f.run s first) .close) rfl rest

/-- A worker whose queue is closed only comes nearer to its end. -/
theorem left_step_of_closed (f : Shift) (hc : s.system.queue.closed = true) (a : Action.{u}) :
    (f.step s a).stage.left ≤ s.stage.left := by
  cases turn f s a with
  | stays stage attempts others => exact Nat.le_of_eq (by rw [stage])
  | takes before command after attempts =>
    rw [after, System.hands_of_closed hc]
    exact Nat.zero_le _
  | processes attempt before command after attempts =>
    rw [before, after]
    exact Nat.le_succ 2
  | reports key x failed action before command after attempts =>
    rw [before, after]
    exact Nat.le_succ 1
  | finishes key before command after attempts =>
    rw [after]
    exact Nat.zero_le _

/-- Only a change that was taken is attempted. -/
theorem attempts_step_of_left (f : Shift) (hs : s.stage.left < 3) (a : Action.{u}) :
    (f.step s a).attempts = s.attempts := by
  cases turn f s a with
  | processes attempt before command after attempts =>
    rw [before] at hs
    exact absurd hs (Nat.lt_irrefl 3)
  | stays stage attempts others => exact attempts
  | takes before command after attempts => exact attempts
  | reports key x failed action before command after attempts => exact attempts
  | finishes key before command after attempts => exact attempts

/-- A worker whose queue is closed makes no attempt once it has processed its change. -/
theorem attempts_run_of_closed (f : Shift) (hc : s.system.queue.closed = true)
    (hs : s.stage.left < 3) (later : List Action.{u}) :
    (f.run s later).attempts = s.attempts := by
  induction later generalizing s with
  | nil => rfl
  | cons a later ih =>
    have hleft := Nat.lt_of_le_of_lt (left_step_of_closed f hc a) hs
    exact (ih (closed_step f hc a) hleft).trans (attempts_step_of_left f hs a)

/-- A change that was taken stays in hand until it is processed. -/
theorem run_of_taken (f : Shift) (hs : s.stage = .taken key x) {quiet : List Action.{u}}
    (hq : ∀ a ∈ quiet, a.isProcess = false) :
    (f.run s quiet).stage = .taken key x ∧ (f.run s quiet).attempts = s.attempts := by
  induction quiet generalizing s with
  | nil => exact ⟨hs, rfl⟩
  | cons a quiet ih =>
    have hstep : (f.step s a).stage = .taken key x ∧ (f.step s a).attempts = s.attempts := by
      have ha := hq a List.mem_cons_self
      cases a with
      | process world t => cases ha
      | _ => simp [step, hs]
    obtain ⟨hstage, hattempts⟩ := ih hstep.1 fun b hb => hq b (List.mem_cons_of_mem a hb)
    exact ⟨hstage, hattempts.trans hstep.2⟩

/-- The change in hand is attempted once after closing, and nothing else is. -/
theorem attempts_of_taken (f : Shift) (hc : s.system.queue.closed = true)
    (hs : s.stage = .taken key x) {quiet : List Action.{u}} (hq : ∀ a ∈ quiet, a.isProcess = false)
    {σ : Type u} (world : World σ) (t : σ) (later : List Action.{u}) :
    ∃ posted, (f.worker.process world x.payload t).1.Posts f.worker.sinks posted ∧
      (f.run s (quiet ++ .process world t :: later)).attempts =
        s.attempts ++ [⟨key, x, (f.worker.process world x.payload t).1, posted⟩] := by
  obtain ⟨hstage, hattempts⟩ := run_of_taken f hs hq
  obtain ⟨posted, hposts, hstep⟩ := exists_step_process f hstage world t
  refine ⟨posted, hposts, ?_⟩
  have hclosed := closed_step f (closed_run f hc quiet) (.process world t)
  have hleft : (f.step (f.run s quiet) (.process world t)).stage.left < 3 := by
    rw [hstep]
    exact Nat.lt_succ_self 2
  rw [run_append]
  refine (attempts_run_of_closed f hclosed hleft later).trans ?_
  rw [hstep, hattempts]

theorem left_run_of_closed (f : Shift) (hc : s.system.queue.closed = true)
    (later : List Action.{u}) : (f.run s later).stage.left ≤ s.stage.left := by
  induction later generalizing s with
  | nil => exact Nat.le_refl _
  | cons a later ih => exact Nat.le_trans (ih (closed_step f hc a)) (left_step_of_closed f hc a)

/-- A worker that has no key when its queue is closed gets none any more. -/
theorem idle_run_of_closed (f : Shift) (hc : s.system.queue.closed = true) (hs : s.stage = .idle)
    (later : List Action.{u}) : (f.run s later).stage = .idle := by
  have hleft := left_run_of_closed f hc later
  rw [hs] at hleft
  cases hstage : (f.run s later).stage with
  | idle => rfl
  | taken key x | processed key x failed | told key =>
    rw [hstage] at hleft
    cases hleft

/-- **Closing is final.**  Once a queue is closed, whatever happens to it:

* nothing joins its line, its pending payloads, the keys in hand or the retries, and no failure is
  counted.  A key that is done with is in hand no more, and a key that is forgotten has no failures
  and no retry; everything else stays as it is;
* no getter is handed a key.  A getter that waits, or is about to ask, gets nothing as soon as it
  has taken the steps that it still has to take, unless it leaves;
* the worker makes no attempt, but at the change that it had taken.  That one is processed as ever,
  with what the sinks are given; when its key is done with, the worker has no key any more. -/
theorem closing_is_final {α : Type v} (backoff : Backoff) {uses : List (Crowd.Action α)}
    (huses : .close ∈ uses) (f : Shift) {before : List Action.{u}} (hbefore : .close ∈ before) :
    let crowd := (Crowd.start : Crowd α).run backoff uses
    let s := f.run start before
    (∀ later, let t := crowd.run backoff later
      crowd.shared.queue.Remains t.shared.queue (fun key => .done key ∈ later)
        (fun key => .forget key ∈ later) ∧
      t.retries.Sublist crowd.retries ∧
      (∀ g item, t.shared.stage? g = some (.finished (some item)) →
        crowd.shared.stage? g = some (.finished (some item))) ∧
      ∀ g stage, crowd.shared.stage? g = some stage → crowd.shared.outcome? g = none →
        .leave g ∉ later → stage.turns ≤ later.countP (·.goes g) →
        t.shared.outcome? g = some none) ∧
    ((∀ key x, s.stage ≠ .taken key x) →
      ∀ later : List Action.{u}, (f.run s later).attempts = s.attempts) ∧
    (∀ key x, s.stage = .taken key x →
      ∀ quiet : List Action.{u}, (∀ a ∈ quiet, a.isProcess = false) →
      (f.run s quiet).attempts = s.attempts ∧
      ∀ {σ : Type u} (world : World σ) (t : σ) (later : List Action.{u}),
        ∃ posted, (f.worker.process world x.payload t).1.Posts f.worker.sinks posted ∧
          (f.run s (quiet ++ .process world t :: later)).attempts =
            s.attempts ++ [⟨key, x, (f.worker.process world x.payload t).1, posted⟩]) ∧
    ∀ {σ : Type u} (world : World σ) (t : σ) (later : List Action.{u}),
      let u := f.run s [.process world t, .report, .finish]
      (∀ key, s.stage.key? = some key → u.system.queue.inHand.contains key = false) ∧
        (f.run u later).stage = .idle := by
  intro crowd s
  have hd : crowd.shared.Dismissed :=
    Crowd.dismissed_of_close_mem backoff SharedQueue.lined_empty huses
  have hc : s.system.queue.closed = true := closed_of_close_mem f start hbefore
  refine ⟨fun later => ?_, fun hstage later => ?_, fun key x hs quiet hq => ?_, ?_⟩
  · obtain ⟨hremains, hretries⟩ := Crowd.remains_run backoff hd.closed later
    refine ⟨hremains, hretries, fun g item => Crowd.finished_of_run backoff hd,
      fun g stage hg hnone hleave hturns => ?_⟩
    have hopen : stage.turns ≠ 0 := by
      intro hzero
      cases stage with
      | finished item => simp [SharedQueue.outcome?, hg] at hnone
      | entering | registered signal | waiting signal => cases hzero
    exact Crowd.gets_nothing_of_run backoff hd hg hopen hleave hturns
  · have hleft : s.stage.left < 3 := by
      cases hs : s.stage with
      | taken key x => exact absurd hs (hstage key x)
      | idle | processed key x failed | told key => simp [Stage.left]
    exact attempts_run_of_closed f hc hleft later
  · exact ⟨(run_of_taken f hs hq).2, attempts_of_taken f hc hs hq⟩
  · intro σ world t later
    obtain ⟨hidle, hkey⟩ := idle_of_steps f s world t
    exact ⟨hkey, idle_run_of_closed f (closed_run f hc _) hidle later⟩

/-- A queue is closed while one getter has a key, another one waits, and the worker has taken the
first of two changes: the waiting getter gets nothing, and the worker makes one attempt more, which
reaches its receiver. -/
theorem closed_amid_attempt :
    let uses : List (Crowd.Action Nat) :=
      [.add "a" 1, .enter, .go 0, .go 0, .retry "a" 1, .enter, .go 1, .go 1, .close]
    let later : List (Crowd.Action Nat) := [.fire 0, .go 1, .add "b" 2, .go 1, .done "a", .go 1]
    let crowd := (Crowd.start : Crowd Nat).run .standard uses
    let f : Shift := ⟨⟨⟨"Pod", "", "v1", "pods", true, none, .empty⟩, default,
      [.discord "http://receiver" ""]⟩, .standard⟩
    let c : Change := ⟨"a/x", .update, "Pod", "v1", none, none, none⟩
    let world : World Unit :=
      ⟨fun _ s => (.ok none, s), fun s => (⟨"", ""⟩, s), fun _ s => (none, s)⟩
    let before : List Action.{0} := [.add "a/x" c, .add "a/y" c, .take, .close]
    let quiet : List Action.{0} := [.add "a/x" c]
    let after : List Action.{0} := [.report, .finish, .take, .process world ()]
    let s := f.run start before
    .close ∈ uses ∧ .close ∈ before ∧
      crowd.shared.outcome? 1 = none ∧ (crowd.run .standard later).shared.outcome? 1 = some none ∧
      ∃ outcome posted, (f.run s (quiet ++ .process world () :: after)).attempts =
        [⟨"a/x", ⟨0, c⟩, outcome, posted⟩] ∧ outcome.given.length = 1 := by
  intro uses later crowd f c world before quiet after s
  have huses : .close ∈ uses := by simp [uses]
  have hbefore : .close ∈ before := by simp [before]
  obtain ⟨hcrowd, -, htaken, -⟩ := closing_is_final .standard huses f hbefore
  have hstage : crowd.shared.stage? 1 = some (.waiting .all) := by rfl
  have hnone : crowd.shared.outcome? 1 = none := by rfl
  obtain ⟨-, -, -, hget⟩ := hcrowd later
  have hs : s.stage = .taken "a/x" ⟨0, c⟩ := by rfl
  obtain ⟨posted, -, hattempts⟩ :=
    (htaken "a/x" ⟨0, c⟩ hs quiet (by simp [quiet, Action.isProcess])).2 world () after
  refine ⟨huses, hbefore, hnone, hget 1 _ hstage hnone (by simp [later]) (by decide), _, posted,
    hattempts, ?_⟩
  decide +kernel

end Shift

end ClusterHerald
