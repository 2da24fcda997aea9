import ClusterHerald.Proofs.Dispatch
import ClusterHerald.Proofs.Queue.Order
import ClusterHerald.Proofs.Worker
import Mathlib.Data.List.Forall2

/-!
# A shift of the worker

The worker of a kind takes a change from its queue, processes it, tells the queue what became of
it, and is done with the key.  Changes are added and retries come back between any two of these
(`Shift.Action`).  Look-ups and receivers answer each attempt as they please, since an attempt
brings its own world.  What does not fit the worker's turn does nothing, so every list of actions is
a run.

Processing does not touch the queue, and nobody but the worker counts failures, so it makes no
difference that processing a change, and telling what became of it, are one action each.

Changes are numbered in the order in which they are added.  The numbers are no part of the queue
(`Queue.System.map_run`), but they tell apart changes of one key that look the same.

* `Shift.leads_step` : an action moves a change from one place to another, or puts a new one in
  line;
* `Shift.Tidy` : so every change is in one place at most, and where it is all attempts at it have
  failed so far;
* `Shift.unanswered_run` : what the sinks answer does not show in the queue;
* `Shift.delivered_at_most_once` : what follows for deliveries.
-/

namespace ClusterHerald

open Queue

universe u

/-- A worker with the delays of its retries. -/
structure Shift where
  worker : Worker
  backoff : Backoff

namespace Shift

/-- How far the worker is. -/
inductive Stage where
  /-- No key is in hand. -/
  | idle
  /-- A change was taken from the queue. -/
  | taken (key : String) (change : Numbered Change)
  /-- The change was processed. -/
  | processed (key : String) (change : Numbered Change) (failed : Bool)
  /-- The queue was told what became of the change. -/
  | told (key : String)

/-- The change that may still have to come back. -/
def Stage.open? : Stage → Option (String × Numbered Change)
  | .taken key x => some (key, x)
  | .processed key x failed => if failed then some (key, x) else none
  | .idle | .told _ => none

/-- An attempt to process a change. -/
structure Attempt where
  key : String
  change : Numbered Change
  outcome : Outcome
  /-- The requests that were posted. -/
  posted : List Request

/-- The state of a worker with its queue. -/
structure State where
  system : System (Numbered Change)
  stage : Stage
  /-- The changes that were added, with their keys; the number of a change is its place here. -/
  added : List (String × Change)
  /-- What the worker has done, oldest first. -/
  attempts : List Attempt

/-- What may happen next. -/
inductive Action : Type (u + 1) where
  | add (key : String) (change : Change)
  /-- The worker takes the next change, if there is one. -/
  | take
  /-- The worker processes the change that it took. -/
  | process {σ : Type u} (world : World σ) (s : σ)
  /-- The worker tells the queue to forget the key, or to retry the change if it failed. -/
  | report
  /-- The worker is done with the key. -/
  | finish
  /-- The retry at a place among those that are still to come back falls due. -/
  | fire (place : Nat)
  | close

/-- Before the first action. -/
def start : State := ⟨.start, .idle, [], []⟩

/-- What the queue is told of a change that was processed. -/
def ending (s : State) (key : String) (x : Numbered Change) (failed : Bool) :
    Queue.Action (Numbered Change) :=
  if failed && s.system.queue.failureCount key < maxRetries then .retry key x else .forget key

/-- The state after an action. -/
def step (f : Shift) (s : State) : Action.{u} → State
  | .add key c =>
    { s with
      system := s.system.step f.backoff (.add key ⟨s.added.length, c⟩)
      added := s.added ++ [(key, c)] }
  | .take =>
    match s.stage with
    | .idle =>
      { s with
        system := s.system.step f.backoff .get
        stage := ((s.system.hands .get).map fun item => .taken item.1 item.2).getD .idle }
    | _ => s
  | .process world t =>
    match s.stage with
    | .taken key x =>
      let (outcome, _, posted) := f.worker.process world.recording x.payload (t, [])
      { s with
        stage := .processed key x outcome.isFailed
        attempts := s.attempts ++ [⟨key, x, outcome, posted⟩] }
    | _ => s
  | .report =>
    match s.stage with
    | .processed key x failed =>
      { s with system := s.system.step f.backoff (ending s key x failed), stage := .told key }
    | _ => s
  | .finish =>
    match s.stage with
    | .told key => { s with system := s.system.step f.backoff (.done key), stage := .idle }
    | _ => s
  | .fire place => { s with system := s.system.step f.backoff (.fire place) }
  | .close => { s with system := s.system.step f.backoff .close }

/-- The state after a run. -/
def run (f : Shift) (s : State) (actions : List Action.{u}) : State :=
  actions.foldl f.step s

/-- What an action tells the queue, if anything. -/
def State.command? (s : State) : Action.{u} → Option (Queue.Action (Numbered Change))
  | .add key c => some (.add key ⟨s.added.length, c⟩)
  | .take =>
    match s.stage with
    | .idle => some .get
    | _ => none
  | .process _ _ => none
  | .report =>
    match s.stage with
    | .processed key x failed => some (ending s key x failed)
    | _ => none
  | .finish =>
    match s.stage with
    | .told key => some (.done key)
    | _ => none
  | .fire place => some (.fire place)
  | .close => some .close

variable {f : Shift} {s s' : State} {key : String} {x : Numbered Change}

theorem run_append (f : Shift) (s : State) (before after : List Action.{u}) :
    f.run s (before ++ after) = f.run (f.run s before) after :=
  List.foldl_append

theorem system_step (f : Shift) (s : State) (a : Action.{u}) :
    (f.step s a).system = ((s.command? a).map (s.system.step f.backoff)).getD s.system := by
  cases a with
  | add key c | fire place | close => rfl
  | take | process world t | report | finish =>
    cases hs : s.stage <;> simp [step, State.command?, hs]

theorem system_step_of_command {b : Queue.Action (Numbered Change)} {a : Action.{u}}
    (h : s.command? a = some b) : (f.step s a).system = s.system.step f.backoff b := by
  rw [system_step, h]
  rfl

theorem system_step_of_none {a : Action.{u}} (h : s.command? a = none) :
    (f.step s a).system = s.system := by
  rw [system_step, h]
  rfl

theorem command?_report {failed : Bool} (hs : s.stage = .processed key x failed) :
    s.command? .report.{u} = some (ending s key x failed) := by
  simp only [State.command?, hs]

/-- Only a change that failed is retried. -/
theorem ending_cases (s : State) (key : String) (x : Numbered Change) (failed : Bool) :
    ending s key x failed = .retry key x ∧ failed = true ∨
      ending s key x failed = .forget key := by
  unfold ending
  split
  · next h => exact .inl ⟨rfl, (Bool.and_eq_true_iff.1 h).1⟩
  · exact .inr rfl

/-- The queue is told what became of a change, and that the worker is done with it. -/
theorem system_settled {failed : Bool} (hs : s.stage = .processed key x failed) :
    (f.run s [.report, .finish]).system =
      s.system.run f.backoff [ending s key x failed, .done key] := by
  simp only [run, List.foldl_cons, List.foldl_nil, step, hs, System.run_cons, System.run_nil]

/-- Report and finish settle a key as a pipeline does. -/
theorem queue_settled {failed : Bool} (hs : s.stage = .processed key x failed) :
    (f.run s [.report, .finish]).system.queue =
      (s.system.queue.settle f.backoff key failed).2 := by
  rw [system_settled hs]
  exact s.system.queue_settle f.backoff key x failed

/-- What an attempt comes to. -/
theorem exists_step_process (f : Shift) (hs : s.stage = .taken key x) {σ : Type u}
    (world : World σ) (t : σ) :
    ∃ posted, (f.worker.process world x.payload t).1.Posts f.worker.sinks posted ∧
      f.step s (.process world t) = { s with
        stage := .processed key x (f.worker.process world x.payload t).1.isFailed
        attempts := s.attempts ++
          [⟨key, x, (f.worker.process world x.payload t).1, posted⟩] } := by
  obtain ⟨posted, hposts, hrun⟩ := f.worker.exists_process_recording world x.payload t []
  exact ⟨posted, hposts, by simp only [step, hs, hrun, List.nil_append]⟩

theorem dated_step (hd : s.system.Dated) (a : Action.{u}) : (f.step s a).system.Dated := by
  cases a with
  | add key c => exact System.dated_step hd _
  | process world t => simp only [step]; split <;> exact hd
  | fire place => exact System.dated_step hd _
  | close => exact System.dated_step hd _
  | take | report | finish =>
    simp only [step]
    split
    · exact System.dated_step hd _
    · exact hd

/-- What an action adds. -/
def Action.addition : Action.{u} → List (String × Change)
  | .add key c => [(key, c)]
  | .take | .process _ _ | .report | .finish | .fire _ | .close => []

theorem added_step (f : Shift) (s : State) (a : Action.{u}) :
    (f.step s a).added = s.added ++ a.addition := by
  cases a with
  | add key c => rfl
  | fire place | close => exact (List.append_nil _).symm
  | take | process world t | report | finish =>
    simp only [step, Action.addition, List.append_nil]
    split <;> rfl

theorem added_run (f : Shift) (s : State) (actions : List Action.{u}) :
    (f.run s actions).added = s.added ++ actions.flatMap Action.addition := by
  induction actions generalizing s with
  | nil => exact (List.append_nil _).symm
  | cons a actions ih =>
    rw [List.flatMap_cons, ← List.append_assoc, ← added_step f s a]
    exact ih _

/-! ### Where a change is -/

/-- Where a change may be that is still to be processed. -/
inductive Place where
  | pending
  | scheduled
  | inHand

/-- The change is in a place, under the key. -/
def State.Holds (s : State) (key : String) (x : Numbered Change) : Place → Prop
  | .pending => s.system.queue.pending.get? key = some x
  | .scheduled => s.system.Scheduled key x
  | .inHand => s.stage.open? = some (key, x)

/-- Every change of the state after was in one place before, from where `move` leads to its place,
or it is the one that was added last. -/
def State.Leads (s s' : State) : Prop :=
  ∃ move : String → Place → Place, ∀ key x p, s'.Holds key x p →
    (s'.added = s.added ++ [(key, x.payload)] ∧ x.number = s.added.length ∧ p = .pending) ∨
      ∃ p', s.Holds key x p' ∧ move key p' = p

theorem State.Leads.of_holds (h : ∀ key x p, s'.Holds key x p → s.Holds key x p) : s.Leads s' :=
  ⟨fun _ p => p, fun key x p hp => .inr ⟨p, h key x p hp, rfl⟩⟩

/-- Nothing is in a new place after an action of the queue that adds, schedules and brings back
nothing. -/
theorem holds_of_quiet (hd : s.system.Dated) {b : Queue.Action (Numbered Change)}
    (hb : (∃ k, b = .forget k) ∨ (∃ k, b = .done k) ∨ b = .close) {p : Place}
    (h : s'.Holds key x p) (hs : s'.system = s.system.step f.backoff b)
    (hopen : s'.stage.open? = some (key, x) → s.stage.open? = some (key, x)) :
    s.Holds key x p := by
  cases p with
  | pending =>
    rw [State.Holds, hs] at h
    obtain rfl | ⟨hp, -⟩ | ⟨_, rfl, -⟩ := System.pending_of_step h
    · simp at hb
    · exact hp
    · simp at hb
  | scheduled =>
    rw [State.Holds, hs] at h
    obtain rfl | ⟨hold, -⟩ := System.scheduled_of_step hd h
    · simp at hb
    · exact hold
  | inHand => exact hopen h

theorem leads_add (hd : s.system.Dated) (c : Change) :
    s.Leads (f.step s (.add.{u} key c)) := by
  refine ⟨fun _ p => p, fun k x p h => ?_⟩
  cases p with
  | pending =>
    obtain he | ⟨hp, -⟩ | ⟨_, he, -⟩ := System.pending_of_step h
    · cases he
      exact .inl ⟨rfl, rfl, rfl⟩
    · exact .inr ⟨.pending, hp, rfl⟩
    · cases he
  | scheduled =>
    obtain he | ⟨hold, -⟩ := System.scheduled_of_step hd h
    · cases he
    · exact .inr ⟨.scheduled, hold, rfl⟩
  | inHand => exact .inr ⟨.inHand, h, rfl⟩

/-- A change that is taken was pending. -/
theorem leads_take (hd : s.system.Dated) : s.Leads (f.step s .take.{u}) := by
  simp only [step]
  split
  · refine ⟨fun key => fun
      | .pending => if (s.system.hands .get).map Prod.fst = some key then .inHand else .pending
      | p => p, fun key x p h => .inr ?_⟩
    cases p with
    | pending =>
      obtain he | ⟨hp, hn⟩ | ⟨_, he, -⟩ := System.pending_of_step h
      · cases he
      · refine ⟨.pending, hp, if_neg fun hk => ?_⟩
        obtain ⟨⟨k, y⟩, hh, rfl⟩ := Option.map_eq_some_iff.1 hk
        have hy : some x = some y := hp.symm.trans (System.hands_some hh).2.2
        exact hn (by rw [hh, Option.some.inj hy])
      · cases he
    | scheduled =>
      obtain he | ⟨hold, -⟩ := System.scheduled_of_step hd h
      · cases he
      · exact ⟨.scheduled, hold, rfl⟩
    | inHand =>
      cases hh : s.system.hands .get with
      | none => simp [State.Holds, hh, Stage.open?] at h
      | some item =>
        simp only [State.Holds, hh, Option.map_some, Option.getD_some, Stage.open?,
          Option.some.injEq, Prod.mk.injEq] at h
        obtain ⟨rfl, rfl⟩ := h
        exact ⟨.pending, (System.hands_some hh).2.2, if_pos rfl⟩
  · exact .of_holds fun _ _ _ h => h

theorem holds_of_process {σ : Type u} {world : World σ} {t : σ} {p : Place}
    (h : (f.step s (.process world t)).Holds key x p) : s.Holds key x p := by
  simp only [step] at h
  split at h
  · next k y hs =>
    cases p with
    | pending | scheduled => exact h
    | inHand =>
      simp only [State.Holds, Stage.open?, hs] at h ⊢
      split at h
      · exact h
      · cases h
  · exact h

/-- Only what failed is scheduled. -/
theorem leads_report (hd : s.system.Dated) : s.Leads (f.step s .report.{u}) := by
  simp only [step]
  split
  · next k y failed hs =>
    obtain ⟨he, rfl⟩ | he := ending_cases s k y failed <;> rw [he]
    · refine ⟨fun _ => fun
        | .inHand => .scheduled
        | p => p, fun key x p h => .inr ?_⟩
      cases p with
      | pending =>
        obtain he | ⟨hp, -⟩ | ⟨_, he, -⟩ := System.pending_of_step h
        · cases he
        · exact ⟨.pending, hp, rfl⟩
        · cases he
      | scheduled =>
        obtain he | ⟨hold, -⟩ := System.scheduled_of_step hd h
        · cases he
          exact ⟨.inHand, by simp [State.Holds, hs, Stage.open?], rfl⟩
        · exact ⟨.scheduled, hold, rfl⟩
      | inHand => cases h
    · refine .of_holds fun key x p h => holds_of_quiet (f := f) hd (.inl ⟨k, rfl⟩) h rfl ?_
      exact nofun
  · exact .of_holds fun _ _ _ h => h

theorem leads_fire (hd : s.system.Dated) (place : Nat) :
    s.Leads (f.step s (.fire.{u} place)) := by
  refine ⟨fun key => fun
    | .scheduled => if s.system.comesBack place = some key then .pending else .scheduled
    | p => p, fun key x p h => .inr ?_⟩
  cases p with
  | pending =>
    obtain he | ⟨hp, -⟩ | ⟨_, he, hb, hold⟩ := System.pending_of_step h
    · cases he
    · exact ⟨.pending, hp, rfl⟩
    · cases he
      exact ⟨.scheduled, hold, if_pos hb⟩
  | scheduled =>
    obtain he | ⟨hold, hb⟩ := System.scheduled_of_step hd h
    · cases he
    · exact ⟨.scheduled, hold, if_neg (hb place rfl)⟩
  | inHand => exact ⟨.inHand, h, rfl⟩

/-- What an action does to the places of changes. -/
theorem leads_step (f : Shift) (hd : s.system.Dated) (a : Action.{u}) : s.Leads (f.step s a) := by
  cases a with
  | add key c => exact leads_add hd c
  | take => exact leads_take hd
  | process world t => exact .of_holds fun _ _ _ => holds_of_process
  | report => exact leads_report hd
  | finish =>
    simp only [step]
    split
    · next k hs =>
      refine .of_holds fun key x p h =>
        holds_of_quiet (f := f) hd (.inr (.inl ⟨k, rfl⟩)) h rfl ?_
      exact nofun
    · exact .of_holds fun _ _ _ h => h
  | fire place => exact leads_fire hd place
  | close =>
    exact .of_holds fun key x p h => holds_of_quiet (f := f) hd (.inr (.inr rfl)) h rfl id

/-! ### What is done with a change -/

/-- The change was added under the key, and all attempts at it have failed so far. -/
structure State.Awaits (s : State) (key : String) (x : Numbered Change) : Prop where
  added : s.added[x.number]? = some (key, x.payload)
  failed : ∀ a ∈ s.attempts, a.change.number = x.number → a.outcome.isFailed = true

theorem State.Awaits.lt (h : s.Awaits key x) : x.number < s.added.length :=
  (List.getElem?_eq_some_iff.1 h.added).1

/-- Every change is in one place at most, and where it is it awaits an attempt.  Attempts are made
at changes that were added, they give the sinks everything or nothing, and only a failed one is
followed by another. -/
structure Tidy (f : Shift) (s : State) : Prop where
  dated : s.system.Dated
  awaits : ∀ {key x p}, s.Holds key x p → s.Awaits key x
  unique : ∀ {key x p p'}, s.Holds key x p → s.Holds key x p' → p = p'
  added : ∀ a ∈ s.attempts, s.added[a.change.number]? = some (a.key, a.change.payload)
  posts : ∀ a ∈ s.attempts, a.outcome.Posts f.worker.sinks a.posted
  once : s.attempts.Pairwise fun a b =>
    a.change.number = b.change.number → a.outcome.isFailed = true

namespace Tidy

theorem of_leads (h : f.Tidy s) (hl : s.Leads s') (hd : s'.system.Dated)
    (ha : s'.attempts = s.attempts) (hadd : s.added <+: s'.added) : f.Tidy s' := by
  obtain ⟨move, hmove⟩ := hl
  have hkept {n : Nat} {item : String × Change} (hn : s.added[n]? = some item) :
      s'.added[n]? = some item := by
    obtain ⟨more, hmore⟩ := hadd
    rw [← hmore, List.getElem?_append_left (List.getElem?_eq_some_iff.1 hn).1, hn]
  refine ⟨hd, fun {key x p} hp => ?_, fun {key x p p'} hp hp' => ?_, ?_, ha ▸ h.posts, ha ▸ h.once⟩
  · obtain ⟨hnew, hn, -⟩ | ⟨_, hold, -⟩ := hmove key x p hp
    · refine ⟨by simp [hnew, hn], fun a hmem hnum => ?_⟩
      -- a new number is none of those that were tried
      have hlt := (List.getElem?_eq_some_iff.1 (h.added a (ha ▸ hmem))).1
      omega
    · exact ⟨hkept (h.awaits hold).added, fun a hmem => (h.awaits hold).failed a (ha ▸ hmem)⟩
  · obtain ⟨-, hn, rfl⟩ | ⟨_, hold, rfl⟩ := hmove key x p hp <;>
      obtain ⟨-, hn', rfl⟩ | ⟨_, hold', rfl⟩ := hmove key x p' hp'
    · rfl
    · exact absurd (h.awaits hold').lt (by omega)
    · exact absurd (h.awaits hold).lt (by omega)
    · rw [h.unique hold hold']
  · exact fun a hmem => hkept (h.added a (ha ▸ hmem))

/-- A number is found once, under one key. -/
theorem eq_of_number (h : f.Tidy s) {k : String} {y : Numbered Change} {p q : Place}
    (hp : s.Holds key x p) (hq : s.Holds k y q) (hn : x.number = y.number) :
    key = k ∧ x = y ∧ p = q := by
  have hadded := (h.awaits hp).added
  rw [hn, (h.awaits hq).added] at hadded
  obtain ⟨n, c⟩ := x
  obtain ⟨m, d⟩ := y
  cases hadded
  obtain rfl : n = m := hn
  exact ⟨rfl, rfl, h.unique hp hq⟩

/-- The change in hand is processed.  If that does not fail, the change is in no place any more. -/
theorem process (h : f.Tidy s) {σ : Type u} (world : World σ) (t : σ) :
    f.Tidy (f.step s (.process world t)) := by
  have hold {key x p} (hp : (f.step s (.process world t)).Holds key x p) := holds_of_process hp
  cases hs : s.stage with
  | taken key x =>
    have hin : s.Holds key x .inHand := by simp [State.Holds, hs, Stage.open?]
    obtain ⟨posted, hposts, hstep⟩ := exists_step_process f hs world t
    rw [hstep] at hold ⊢
    refine ⟨h.dated, fun {k y p} hp => ⟨(h.awaits (hold hp)).added, fun a ha hn => ?_⟩,
      fun hp hp' => h.unique (hold hp) (hold hp'), fun a ha => ?_, fun a ha => ?_, ?_⟩
    · rcases List.mem_append.1 ha with ha | ha
      · exact (h.awaits (hold hp)).failed a ha hn
      · obtain rfl := List.mem_singleton.1 ha
        obtain ⟨rfl, rfl, rfl⟩ := h.eq_of_number hin (hold hp) hn
        refine eq_true_of_ne_false fun hfalse => ?_
        simp [State.Holds, Stage.open?, hfalse] at hp
    · rcases List.mem_append.1 ha with ha | ha
      · exact h.added a ha
      · rw [List.mem_singleton.1 ha]
        exact (h.awaits hin).added
    · rcases List.mem_append.1 ha with ha | ha
      · exact h.posts a ha
      · rw [List.mem_singleton.1 ha]
        exact hposts
    · refine List.pairwise_append.2 ⟨h.once, List.pairwise_singleton .., fun a ha b hb hn => ?_⟩
      rw [List.mem_singleton.1 hb] at hn
      exact (h.awaits hin).failed a ha hn
  | _ => simpa only [step, hs] using h

theorem step (h : f.Tidy s) (a : Action.{u}) : f.Tidy (f.step s a) := by
  have hl := leads_step f h.dated a
  have hd := dated_step (f := f) h.dated a
  cases a with
  | process world t => exact h.process world t
  | add key c => exact h.of_leads hl hd rfl (List.prefix_append ..)
  | fire place | close => exact h.of_leads hl hd rfl (List.prefix_refl _)
  | take | report | finish =>
    refine h.of_leads hl hd ?_ ?_
    · simp only [Shift.step]
      split <;> rfl
    · simp only [Shift.step]
      split <;> exact List.prefix_refl _

theorem run (h : f.Tidy s) (actions : List Action.{u}) : f.Tidy (f.run s actions) := by
  induction actions generalizing s with
  | nil => exact h
  | cons a actions ih => exact ih (h.step a)

end Tidy

theorem not_holds_start (p : Place) : ¬ start.Holds key x p := by
  intro h
  cases p with
  | pending => simp [State.Holds, start, System.start, empty] at h
  | scheduled =>
    obtain ⟨r, hr, -⟩ := h
    cases hr
  | inHand => simp [State.Holds, start, Stage.open?] at h

theorem tidy_start (f : Shift) : f.Tidy start where
  dated := System.dated_start
  awaits hp := absurd hp (not_holds_start _)
  unique hp _ := absurd hp (not_holds_start _)
  added _ ha := absurd ha List.not_mem_nil
  posts _ ha := absurd ha List.not_mem_nil
  once := .nil

/-! ### What the sinks answer -/

/-- Two actions are alike if they are the same, or two attempts whose look-ups have the same
answers. -/
inductive Action.Alike : Action.{u} → Action.{u} → Prop
  | same (a : Action) : Alike a a
  | process {σ τ : Type u} {world : World σ} {world' : World τ} {t : σ} {t' : τ}
      (h : ∀ key, (world.lookup key t).1 = (world'.lookup key t').1) :
      Alike (.process world t) (.process world' t')

/-- The attempt without what came of it at the sinks. -/
def Attempt.unanswered (a : Attempt) : Attempt :=
  { a with outcome := a.outcome.unanswered, posted := [] }

/-- The state without what came of the attempts at the sinks. -/
def State.unanswered (s : State) : State :=
  { s with attempts := s.attempts.map Attempt.unanswered }

/-- The same worker with other sinks. -/
def withSinks (f : Shift) (sinks : List Sink) : Shift :=
  { f with worker := { f.worker with sinks } }

theorem unanswered_process_step (sinks : List Sink) {σ τ : Type u} {world : World σ}
    {world' : World τ} {t : σ} {t' : τ}
    (h : ∀ key, (world.lookup key t).1 = (world'.lookup key t').1)
    (hs : s'.unanswered = s.unanswered) :
    ((f.withSinks sinks).step s' (.process world' t')).unanswered =
      (f.step s (.process world t)).unanswered := by
  obtain ⟨system, stage, added, attempts⟩ := s
  obtain ⟨system', stage', added', attempts'⟩ := s'
  simp only [State.unanswered, State.mk.injEq] at hs
  obtain ⟨rfl, rfl, rfl, hattempts⟩ := hs
  cases stage' with
  | taken key x =>
    obtain ⟨_, -, hstep⟩ :=
      exists_step_process f (s := ⟨system', .taken key x, added', attempts⟩) rfl world t
    obtain ⟨_, -, hstep'⟩ := exists_step_process (f.withSinks sinks)
      (s := ⟨system', .taken key x, added', attempts'⟩) rfl world' t'
    have houtcome := f.worker.unanswered_process sinks (h x.payload.key)
    have hfailed := congrArg Outcome.isFailed houtcome
    simp only [Outcome.isFailed_unanswered] at hfailed
    rw [hstep, hstep']
    simp [State.unanswered, Attempt.unanswered, hattempts, withSinks, houtcome, hfailed]
  | _ => simp [step, State.unanswered, hattempts]

/-- What the sinks are and what they answer does not show but in the deliveries. -/
theorem unanswered_step (f : Shift) (sinks : List Sink) {a a' : Action.{u}} (ha : a.Alike a')
    (hs : s'.unanswered = s.unanswered) :
    ((f.withSinks sinks).step s' a').unanswered = (f.step s a).unanswered := by
  cases ha with
  | process h => exact unanswered_process_step sinks h hs
  | same a =>
    cases a with
    | process world t => exact unanswered_process_step sinks (fun _ => rfl) hs
    | _ =>
      obtain ⟨system, stage, added, attempts⟩ := s
      obtain ⟨system', stage', added', attempts'⟩ := s'
      simp only [State.unanswered, State.mk.injEq] at hs
      obtain ⟨rfl, rfl, rfl, hattempts⟩ := hs
      cases stage' <;> simp [step, State.unanswered, hattempts, withSinks, ending]

theorem unanswered_run (f : Shift) (sinks : List Sink) {actions actions' : List Action.{u}}
    (ha : List.Forall₂ Action.Alike actions actions') (hs : s'.unanswered = s.unanswered) :
    ((f.withSinks sinks).run s' actions').unanswered = (f.run s actions).unanswered := by
  induction ha generalizing s s' with
  | nil => exact hs
  | cons ha _ ih => exact ih (unanswered_step f sinks ha hs)

/-! ### Deliveries -/

/-- The attempts at the change with a number. -/
def State.tries (s : State) (number : Nat) : List Attempt :=
  s.attempts.filter (·.change.number = number)

/-- What the sinks were given of the change with a number. -/
def State.given (s : State) (number : Nat) : List (Sink × Notice) :=
  (s.tries number).flatMap (·.outcome.given)

/-- What was posted of the change with a number. -/
def State.posted (s : State) (number : Nat) : List Request :=
  (s.tries number).flatMap (·.posted)

/-- If each attempt but the last one failed, the sinks are given at most what the last one gives. -/
theorem allOrNothing_flatMap {sinks : List Sink} {tries : List Attempt}
    (hposts : ∀ a ∈ tries, a.outcome.Posts sinks a.posted)
    (hfailed : tries.Pairwise fun a _ => a.outcome.isFailed = true) :
    AllOrNothing sinks (tries.flatMap (·.outcome.given)) (tries.flatMap (·.posted)) := by
  induction tries with
  | nil => exact .inl ⟨rfl, rfl⟩
  | cons a tries ih =>
    have ha := hposts a List.mem_cons_self
    obtain ⟨hnext, hrest⟩ := List.pairwise_cons.1 hfailed
    have ih := ih (fun b hb => hposts b (List.mem_cons_of_mem a hb)) hrest
    rw [List.flatMap_cons, List.flatMap_cons]
    cases tries with
    | nil => simpa using ha.allOrNothing
    | cons b tries =>
      obtain ⟨hgiven, hposted⟩ := ha.failed (hnext b List.mem_cons_self)
      rwa [hgiven, hposted]

theorem Tidy.allOrNothing (h : f.Tidy s) (number : Nat) :
    AllOrNothing f.worker.sinks (s.given number) (s.posted number) := by
  refine allOrNothing_flatMap (fun a ha => h.posts a (List.mem_filter.1 ha).1) ?_
  refine (h.once.filter _).imp_of_mem fun ha hb hfailed => hfailed ?_
  have hnumber := fun {a : Attempt} (ha : a ∈ s.tries number) =>
    of_decide_eq_true (List.mem_filter.1 ha).2
  exact (hnumber ha).trans (hnumber hb).symm

/-- **Every change is delivered at most once.**  Whatever happens to a worker and its queue, and
whatever look-ups and receivers answer:

* over all attempts at a change either nothing was given to a sink and nothing was posted, or every
  sink was given one notice, once and in order, and the requests are theirs;
* attempts are made at changes that were added, and a failed one has given nothing to a sink and
  posted nothing;
* an attempt that is followed by another at the same change has failed;
* with any other sinks, and any other replies, the queue, its failures and retries and all attempts
  are the same but for the deliveries. -/
theorem delivered_at_most_once (f : Shift) (actions : List Action.{u}) :
    let s := f.run start actions
    (∀ number, AllOrNothing f.worker.sinks (s.given number) (s.posted number)) ∧
    (∀ a ∈ s.attempts, s.added[a.change.number]? = some (a.key, a.change.payload) ∧
      (a.outcome.isFailed = true → a.outcome.given = [] ∧ a.posted = [])) ∧
    s.attempts.Pairwise
      (fun a b => a.change.number = b.change.number → a.outcome.isFailed = true) ∧
    ∀ sinks (actions' : List Action.{u}), List.Forall₂ Action.Alike actions actions' →
      ((f.withSinks sinks).run start actions').unanswered = s.unanswered := by
  have h : f.Tidy (f.run start actions) := (tidy_start f).run actions
  exact ⟨h.allOrNothing, fun a ha => ⟨h.added a ha, (h.posts a ha).failed⟩, h.once,
    fun sinks _ ha => unanswered_run f sinks ha rfl⟩

/-- A change whose first attempt fails comes back and is given to two sinks, of which the first does
not reach its receiver. -/
theorem retried_change_delivered_once :
    let kind : WatchedKind := ⟨"Pod", "", "v1", "pods", true, none, .empty⟩
    let sinks : List Sink := [.discord "http://receiver" "", .scripted none]
    let f : Shift := ⟨⟨kind, default, sinks⟩, .standard⟩
    let c : Change := ⟨"a/x", .update, "Pod", "v1", none, none, none⟩
    let world (found : Except LookupError (Option Object)) : World Unit :=
      ⟨fun _ s => (found, s), fun s => (⟨"", ""⟩, s), fun _ s => (none, s)⟩
    let s := f.run start [.add "a/x" c, .take,
      .process (world (.error (.unavailable "a/x"))) (), .report, .finish, .fire 0, .take,
      .process (world (.ok none)) (), .report, .finish, .take]
    s.attempts.map (·.outcome.isFailed) = [true, false] ∧ (s.given 0).map Prod.fst = sinks ∧
      (s.posted 0).length = 1 ∧ AllOrNothing sinks (s.given 0) (s.posted 0) := by
  intro kind sinks f c world s
  exact ⟨by decide +kernel, by decide +kernel, by decide +kernel,
    (delivered_at_most_once f _).1 0⟩

end Shift

end ClusterHerald
