import ClusterHerald.Proofs.Queue.Clock
import ClusterHerald.Proofs.Queue.Map
import ClusterHerald.Proofs.Shift.Startup

/-!
# The life of a worker is a duty

A pipeline does what its worker does in one order only: it waits as long as it takes, and takes one
change after the other.  A duty leaves the order open.  So what holds of every run of a duty holds
of the worker of a pipeline, since what a pipeline does from the start to the end of its worker is
one of these runs.

* `Duty.Follows` : a duty that is where the worker of a pipeline is;
* `Duty.AtWork.serves` : what happens to the queue while a getter waits may happen to a duty;
* `Duty.AtWork.exists_processUntil` : what a worker does with its changes is a run;
* `Pipeline.exists_duty` : so is its life, from the first event to the end.
-/

namespace ClusterHerald

open Queue Queue.System Relation Shift

namespace Duty

variable {f : Shift} {d : Duty} {s s' : System Change} {got : Got Change}
  {attempts : List Shift.Attempt}

/-- The queue of a duty with its retries, without the numbers of the changes. -/
def unnumbered (d : Duty) : System Change := d.shift.system.map Numbered.payload

/-- The worker has in hand what it has got. -/
def Has (d : Duty) : Got Change → Prop
  | none | some none => d.shift.stage = .idle
  | some (some (key, c)) => ∃ x : Numbered Change, d.shift.stage = .taken key x ∧ x.payload = c

/-- A worker in its shift, which has made attempts and has got something or nothing. -/
structure AtWork (d : Duty) (attempts : List Shift.Attempt) (s : System Change)
    (got : Got Change) : Prop where
  phase : d.phase = .working
  attempts : d.shift.attempts = attempts
  system : d.unnumbered = s
  has : d.Has got

/-- A worker without a key in hand asks for one. -/
theorem step_work_of_idle (hp : d.phase = .working) (hs : d.shift.stage = .idle)
    (hc : d.shift.system.queue.closed = false) {σ : Type} (world : World σ) (t : σ) :
    d.step f (.work world t) = { d with shift := f.step d.shift .take.{0} } := by
  simp only [step, hp, serve, hs, hc, turn]

/-- A worker that asks has in hand what the queue hands out. -/
theorem AtWork.asks (world : World (Option MemoryCache)) (t : Option MemoryCache)
    (h : d.AtWork attempts s none) (hc : s.queue.closed = false) :
    (d.step f (.work world t)).AtWork attempts (s.step f.backoff .get)
      ((s.hands .get).map some) := by
  obtain ⟨hphase, hattempts, rfl, hidle⟩ := h
  have hidle : d.shift.stage = .idle := hidle
  have hhands : d.unnumbered.hands .get =
      (d.shift.system.hands .get).map fun x => (x.1, x.2.payload) :=
    hands_map Numbered.payload d.shift.system .get
  rw [step_work_of_idle hphase hidle hc, hhands]
  refine ⟨hphase, ?_, ?_, ?_⟩
  · simpa only [Shift.step, hidle] using hattempts
  · simp only [unnumbered, Shift.step, hidle]
    exact map_step f.backoff Numbered.payload d.shift.system .get
  · simp only [Has, Shift.step, hidle]
    cases d.shift.system.hands .get with
    | none => rfl
    | some item => exact ⟨item.2, rfl, rfl⟩

/-- What happens to the queue while a getter waits is something that may happen to the duty. -/
theorem AtWork.serves (world : World (Option MemoryCache)) (t : Option MemoryCache)
    {got' : Got Change} (h : d.AtWork attempts s got)
    (hs : Serves f.backoff (s, got) (s', got')) :
    ∃ actions : List Action.{0}, (d.run f actions).AtWork attempts s' got' := by
  cases hs with
  | fire _ _ place =>
    obtain ⟨hphase, hattempts, rfl, hhas⟩ := h
    refine ⟨[.errand (.fire place)], hphase, hattempts, ?_, ?_⟩
    · exact map_step f.backoff Numbered.payload d.shift.system (.fire place)
    · cases got with
      | none => exact hhas
      | some item => cases item <;> exact hhas
  | vain hc hh =>
    have hasked := h.asks (f := f) world t hc
    rw [hh] at hasked
    exact ⟨[.work world t], hasked⟩
  | item hh =>
    have hasked := h.asks (f := f) world t (get_eq_item hh).1
    rw [hh] at hasked
    exact ⟨[.work world t], hasked⟩
  | closed hc => exact ⟨[], h.phase, h.attempts, h.system, h.has⟩

theorem AtWork.serves_many (world : World (Option MemoryCache)) (t : Option MemoryCache)
    {got' : Got Change} (h : d.AtWork attempts s got)
    (hs : ReflTransGen (Serves f.backoff) (s, got) (s', got')) :
    ∃ actions : List Action.{0}, (d.run f actions).AtWork attempts s' got' := by
  have hall (served : System Change × Got Change)
      (hs : ReflTransGen (Serves f.backoff) (s, got) served) :
      ∃ actions : List Action.{0}, (d.run f actions).AtWork attempts served.1 served.2 := by
    induction hs with
    | refl => exact ⟨[], h⟩
    | tail _ hnext ih =>
      obtain ⟨first, hfirst⟩ := ih
      obtain ⟨rest, hrest⟩ := hfirst.serves world t hnext
      exact ⟨first ++ rest, by rwa [run_append]⟩
  exact hall (s', got') hs

/-! ### What a pipeline does -/

/-- The duty is where the worker of the pipeline is. -/
structure Follows (f : Shift) (d : Duty) (p : Pipeline) : Prop where
  worker : p.worker = f.worker
  queue : p.queue.Shows f.backoff d.unnumbered

/-- A worker that has a change in hand processes it, tells the queue, and is done with it. -/
theorem run_work_of_taken {key : String} {x : Numbered Change} (hp : d.phase = .working)
    (hs : d.shift.stage = .taken key x) {σ : Type} (world : World σ) (t : σ) :
    d.run f [.work world t, .work world t, .work world t] =
      { d with shift := f.run d.shift [.process world t, .report, .finish] } := by
  simp only [run, Shift.run, List.foldl_cons, List.foldl_nil, step, hp, serve, hs, turn,
    Shift.step]

/-- The queue of a worker that has processed a change and is done with it. -/
theorem unnumbered_run_work {key : String} {x : Numbered Change} (hp : d.phase = .working)
    (hs : d.shift.stage = .taken key x) {σ : Type} (world : World σ) (t : σ) :
    (d.run f [.work world t, .work world t, .work world t]).unnumbered =
      let failed := (f.worker.process world x.payload t).1.isFailed
      d.unnumbered.run f.backoff [if failed && d.unnumbered.queue.failureCount key < maxRetries
        then .retry key x.payload else .forget key, .done key] := by
  obtain ⟨posted, -, hprocess⟩ := exists_step_process f hs world t
  rw [run_work_of_taken hp hs world t]
  change ((f.run (f.step d.shift (.process world t)) [.report, .finish]).system.map
    Numbered.payload) = _
  rw [hprocess, system_settled rfl, map_run, List.map_cons, List.map_cons, List.map_nil]
  simp only [ending, apply_ite (Queue.Action.map Numbered.payload)]
  rfl

/-- A worker in its shift processes the change that it has got. -/
theorem AtWork.exists_handle {p : Pipeline} {key : String} {c : Change}
    (h : d.AtWork attempts s (some (some (key, c)))) (hp : d.Follows f p) :
    ∃ (actions : List Action.{0}) (attempt : Shift.Attempt) (s' : System Change),
      attempt.outcome = (p.handle key c).outcome ∧
      (d.run f actions).AtWork (attempts ++ [attempt]) s' none ∧
      (d.run f actions).Follows f (p.handle key c).next := by
  obtain ⟨hphase, hattempts, rfl, x, hstage, rfl⟩ := h
  let world := Pipeline.world p.store
  let outcome := (f.worker.process world x.payload p.memory).1
  obtain ⟨posted, -, hprocess⟩ := exists_step_process f hstage world p.memory
  let works : List Action.{0} := [.work world p.memory, .work world p.memory, .work world p.memory]
  -- the three steps at the queue, and then the retry that may be due at once
  have hworked : (d.run f works).AtWork (attempts ++ [⟨key, x, outcome, posted⟩])
      (d.run f works).unnumbered none := by
    have hrun : d.run f works = { d with
        shift := f.run d.shift [.process world p.memory, .report, .finish] } :=
      run_work_of_taken hphase hstage world p.memory
    refine ⟨hrun ▸ hphase, ?_, rfl, ?_⟩
    · rw [hrun, ← hattempts]
      change (f.run (f.step d.shift _) [.report, .finish]).attempts = _
      rw [hprocess]
      rfl
    · rw [hrun]
      change (f.run (f.step d.shift _) [.report, .finish]).stage = _
      rw [hprocess]
      rfl
  have hsettled : (d.run f works).unnumbered = d.unnumbered.run f.backoff
      [if outcome.isFailed && d.unnumbered.queue.failureCount key < maxRetries
        then .retry key x.payload else .forget key, .done key] :=
    unnumbered_run_work hphase hstage world p.memory
  have hqueue : (d.run f works).unnumbered.queue =
      (d.unnumbered.queue.settle f.backoff key outcome.isFailed).2 := by
    rw [hsettled, queue_settle]
  have hretries := d.unnumbered.retries_settle f.backoff key x.payload outcome.isFailed
  rw [← hsettled] at hretries
  obtain ⟨s', hserves, hshows⟩ := hp.queue.schedule key x.payload
    (·.settle f.backoff key outcome.isFailed) hqueue hretries
  obtain ⟨actions, hactions⟩ := hworked.serves_many world p.memory hserves
  have houtcome : outcome = (p.handle key x.payload).outcome := by
    simp only [Pipeline.handle, Pipeline.attempt, hp.worker]
    rfl
  refine ⟨works ++ actions, _, s', houtcome, run_append f d works actions ▸ hactions, hp.worker, ?_⟩
  rw [run_append, hactions.system]
  simp only [Pipeline.handle, Pipeline.attempt, hp.worker, hp.queue.backoff_eq]
  exact hshows

/-- A worker in its shift waits for a change. -/
theorem AtWork.exists_getWithin {p : Pipeline} (h : d.AtWork attempts s none) (hp : d.Follows f p)
    (ms : Nat) : ∃ (actions : List Action.{0}) (s' : System Change),
      (d.run f actions).AtWork attempts s' (p.queue.getWithin ms).1.got ∧
      (d.run f actions).Follows f { p with queue := (p.queue.getWithin ms).2 } := by
  obtain ⟨s', hserves, hshows⟩ := hp.queue.getWithin ms
  rw [h.system] at hserves
  obtain ⟨actions, hactions⟩ := h.serves_many (Pipeline.world p.store) p.memory hserves
  exact ⟨actions, s', hactions, hp.worker, hactions.system ▸ hshows⟩

/-- What a worker does with its changes until a moment is a run. -/
theorem AtWork.exists_processUntil {p : Pipeline} (h : d.AtWork attempts s none)
    (hp : d.Follows f p) (stop n : Nat) :
    ∃ (actions : List Action.{0}) (new : List Shift.Attempt) (s' : System Change),
      (new.flatMap fun a => a.outcome.taken) = (p.processUntil stop n).1 ∧
      (d.run f actions).AtWork (attempts ++ new) s' none ∧
      (d.run f actions).Follows f (p.processUntil stop n).2.2 := by
  induction n generalizing d p attempts s with
  | zero => exact ⟨[], [], s, rfl, (List.append_nil attempts).symm ▸ h, hp⟩
  | succ n ih =>
    obtain ⟨waited, s', hwaited, hp'⟩ := h.exists_getWithin hp (stop - p.queue.now)
    rw [Pipeline.processUntil, Pipeline.process]
    generalize p.queue.getWithin (stop - p.queue.now) = got at hwaited hp'
    obtain ⟨got, queue⟩ := got
    cases got with
    | closed =>
      have hidle : (d.run f waited).AtWork (attempts ++ []) s' none :=
        ⟨hwaited.phase, by rw [hwaited.attempts, List.append_nil], hwaited.system, hwaited.has⟩
      exact ⟨waited, [], s', rfl, hidle, hp'⟩
    | nothing =>
      simp only
      split
      · exact ⟨waited, [], s', rfl, (List.append_nil attempts).symm ▸ hwaited, hp'⟩
      · obtain ⟨rest, new, s'', hnew, hrest, hp''⟩ := ih hwaited hp'
        exact ⟨waited ++ rest, new, s'', hnew, run_append f d waited rest ▸ ⟨hrest, hp''⟩⟩
    | item key c =>
      obtain ⟨handled, attempt, s'', hattempt, hhandled, hp''⟩ := hwaited.exists_handle hp'
      obtain ⟨rest, new, t, hnew, hrest, hlast⟩ := ih hhandled hp''
      refine ⟨waited ++ (handled ++ rest), attempt :: new, t, ?_, ?_⟩
      · rw [List.flatMap_cons, hnew, hattempt]
      · rw [run_append, run_append, List.append_cons]
        exact ⟨hrest, hlast⟩

/-! ### From the start to the end -/

/-- The duty is where the worker of the pipeline is, which waits for its cache. -/
structure Awaits (f : Shift) (d : Duty) (p : Pipeline) : Prop extends d.Follows f p where
  phase : d.phase = .awaiting
  synced : d.synced = none
  idle : d.shift.stage = .idle
  attempts : d.shift.attempts = []

theorem awaits_start (worker : Worker) (memory : Option MemoryCache) (syncLimit : Option Nat) :
    start.Awaits ⟨worker, .standard⟩ (.start worker memory syncLimit) where
  worker := rfl
  queue := TimedQueue.shows_start .standard
  phase := rfl
  synced := rfl
  idle := rfl
  attempts := rfl

/-- A change that is enqueued is an errand. -/
theorem Awaits.enqueue {p : Pipeline} (h : d.Awaits f p) (changes : List Change) :
    (d.run f (changes.map fun c => .errand (.add c.key c))).Awaits f (p.enqueue changes) := by
  induction changes generalizing d p with
  | nil => exact h
  | cons c changes ih =>
    have hadded : (d.step f (.errand (.add c.key c))).Awaits f (p.enqueue [c]) := by
      refine ⟨⟨h.worker, ?_⟩, h.phase, h.synced, h.idle, h.attempts⟩
      have hsystem : (d.step f (.errand (.add c.key c))).unnumbered =
          d.unnumbered.step f.backoff (.add c.key c) :=
        map_step f.backoff Numbered.payload d.shift.system (.add c.key _)
      rw [hsystem]
      exact h.queue.add c.key c
    exact ih hadded

/-- What a watch event enqueues are errands. -/
theorem Awaits.watch {p : Pipeline} {e : WatchEvent} {w : Pipeline.Watched} (h : d.Awaits f p)
    (hw : p.watch e = .ok w) :
    (d.run f (w.changes.map fun c => .errand (.add c.key c))).Awaits f w.next := by
  unfold Pipeline.watch at hw
  cases hseen : p.observer.observe p.store e with
  | error n => rw [hseen] at hw; cases hw
  | ok seen =>
    cases hstore : p.store.apply e with
    | error n => rw [hseen, hstore] at hw; cases hw
    | ok store =>
      rw [hseen, hstore] at hw
      cases hw
      have hfed : d.Awaits f { p with observer := seen.next, store } :=
        ⟨⟨h.worker, h.queue⟩, h.phase, h.synced, h.idle, h.attempts⟩
      exact hfed.enqueue seen.changes

/-- A worker that ends badly. -/
theorem Awaits.exists_failed {p : Pipeline} (h : d.Awaits f p) (e : SyncError) :
    ∃ actions : List Action.{0}, let d' := d.run f actions
      d'.phase = .ended (.error e) ∧ d'.shift.attempts = [] ∧
        d'.unnumbered.queue = p.queue.queue.close := by
  have hqueue : d.unnumbered.queue.close = p.queue.queue.close := by rw [h.queue.queue]
  by_cases he : e = .shutDown
  · subst he
    refine ⟨[.cancel, .heed, .guard], ?_⟩
    simp only [run, List.foldl_cons, List.foldl_nil, step, h.phase, if_true]
    exact ⟨trivial, h.attempts, hqueue⟩
  · refine ⟨[.sync (.error e), .proceed, .guard], ?_⟩
    simp only [run, List.foldl_cons, List.foldl_nil, step, h.phase, h.synced, Option.none_or,
      if_true]
    exact ⟨trivial, h.attempts, hqueue⟩

/-- A worker in its shift that is told to stop. -/
theorem AtWork.exists_stopped (h : d.AtWork attempts s none) :
    ∃ actions : List Action.{0}, let d' := d.run f actions
      d'.phase = .ended (.ok ()) ∧ d'.shift.attempts = attempts ∧
        d'.unnumbered.queue = s.queue.close := by
  obtain ⟨hphase, rfl, rfl, hidle⟩ := h
  have hidle : d.shift.stage = .idle := hidle
  refine ⟨[.cancel, .guard, .work (Pipeline.world .empty) none], ?_⟩
  simp only [run, List.foldl_cons, List.foldl_nil, step, hphase, if_true, serve, Shift.step, hidle,
    System.step, Queue.close]
  exact ⟨trivial, trivial, rfl⟩

/-- The life of a worker is a run. -/
theorem Awaits.exists_run {p : Pipeline} (h : d.Awaits f p) (around : Pipeline.Surroundings) :
    ∃ actions : List Action.{0}, let d' := d.run f actions
      d'.phase = .ended (p.run around).result ∧
        (d'.shift.attempts.flatMap fun a => a.outcome.taken) = (p.run around).notices ∧
          d'.unnumbered.queue = (p.run around).next.queue.queue := by
  cases hw : p.waitIn around with
  | error e =>
    obtain ⟨actions, hphase, hattempts, hqueue⟩ := h.exists_failed e
    simp only [Pipeline.run, hw, Pipeline.queue_close]
    exact ⟨actions, hphase, by rw [hattempts]; rfl, hqueue⟩
  | ok u =>
    have hbegun : (d.run f [.sync (.ok ()), .proceed]).AtWork [] d.unnumbered none := by
      simp only [run, List.foldl_cons, List.foldl_nil, step, h.phase, h.synced, Option.none_or]
      exact ⟨rfl, h.attempts, rfl, h.idle⟩
    have hfollows : (d.run f [.sync (.ok ()), .proceed]).Follows f p :=
      ⟨h.worker, hbegun.system ▸ h.queue⟩
    obtain ⟨worked, new, s', hnew, hworked, hp⟩ :=
      hbegun.exists_processUntil hfollows (endOfWait 0 (around.stop.getD 0)) p.turns
    obtain ⟨stopped, hphase, hattempts, hqueue⟩ := hworked.exists_stopped (f := f)
    refine ⟨[.sync (.ok ()), .proceed] ++ (worked ++ stopped), ?_⟩
    simp only [Pipeline.run, hw, Pipeline.queue_close]
    rw [run_append, run_append]
    refine ⟨hphase, ?_, ?_⟩
    · rw [hattempts, List.nil_append, hnew]
    · rw [hqueue, ← hworked.system, hp.queue.queue]

end Duty

namespace Pipeline

/-- The pipeline after watch events. -/
def watchAll (p : Pipeline) (events : List WatchEvent) : Except Nameless Pipeline :=
  events.foldlM (fun p e => return (← p.watch e).next) p

/-- **The life of a worker is a run of its duty.**  A pipeline starts, is fed with watch events, and
runs its worker.  Then there is a run of a duty in which the worker ends in the same way, the sinks
are given the same notices, and the queue is the same in the end.  The worker ends well exactly if
its cache is filled. -/
theorem exists_duty (worker : Worker) (memory : Option MemoryCache) (syncLimit : Option Nat)
    {events : List WatchEvent} {p : Pipeline}
    (h : (start worker memory syncLimit).watchAll events = .ok p) (around : Surroundings) :
    ∃ actions : List Duty.Action.{0}, let d := Duty.start.run ⟨worker, .standard⟩ actions
      d.phase = .ended (p.run around).result ∧
        (d.shift.attempts.flatMap fun a => a.outcome.taken) = (p.run around).notices ∧
          d.unnumbered.queue = (p.run around).next.queue.queue ∧
            (d.phase = .ended (.ok ()) ↔ p.wait = .filled) := by
  have hfed (events : List WatchEvent) (d : Duty) (p p' : Pipeline)
      (hd : d.Awaits ⟨worker, .standard⟩ p) (h : p.watchAll events = .ok p') :
      ∃ actions : List Duty.Action.{0},
        (d.run ⟨worker, .standard⟩ actions).Awaits ⟨worker, .standard⟩ p' := by
    induction events generalizing d p with
    | nil =>
      cases h
      exact ⟨[], hd⟩
    | cons e events ih =>
      rw [watchAll, List.foldlM_cons] at h
      cases hw : p.watch e with
      | error n => rw [hw] at h; cases h
      | ok w =>
        rw [hw] at h
        obtain ⟨rest, hrest⟩ := ih _ _ (hd.watch hw) h
        exact ⟨_ ++ rest, by rw [Duty.run_append]; exact hrest⟩
  obtain ⟨fed, hawaits⟩ := hfed events _ _ _ (Duty.awaits_start worker memory syncLimit) h
  obtain ⟨actions, hphase, hnotices, hqueue⟩ := hawaits.exists_run around
  refine ⟨fed ++ actions, ?_⟩
  rw [Duty.run_append]
  refine ⟨hphase, hnotices, hqueue, ?_⟩
  rw [hphase, Duty.Phase.ended.injEq, (p.run_ends_as_wait around).1, waitIn_eq_ok_iff]

end Pipeline

end ClusterHerald
