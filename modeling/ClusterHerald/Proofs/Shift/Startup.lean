import ClusterHerald.Proofs.Shift.Closing

/-!
# From the start of a worker to its end

A worker waits for its cache before it begins its shift.  While it waits, three parties come in any
order: the wait may end well or badly, the worker may be told to stop, and others go on using the
queue.  A guard closes the queue once the worker is told to stop, and the worker ends when it finds
the queue closed.  A `Duty` is a worker with all of this, and every list of `Duty.Action`s is a run.

If the wait is over and the worker is told to stop, it may take either first: `proceed` takes what
the wait came to, `heed` takes that it is told to stop.

* `Duty.Sound.run` : what holds of the phases of a worker: it has not touched its queue before it
  began, it begins only if its cache was filled, and it ends well only if its queue is closed;
* `Duty.ended_run` : once a worker has ended it does nothing any more;
* `Duty.left_run` : a worker whose queue is closed ends after as many steps as it has left;
* `Pipeline.run_ends_as_wait`, `Pipeline.waitIn_eq_ok_iff` : how the worker of a pipeline ends.  Its
  life is a run of a duty (`Pipeline.exists_duty`);
* `Duty.barrier_before_shift` : what follows for a worker from its start to its end.
-/

namespace ClusterHerald

open Queue Shift

universe u

/-- How far a worker is with its duty. -/
inductive Duty.Phase where
  /-- It waits for its cache. -/
  | awaiting
  /-- It takes changes from its queue. -/
  | working
  | ended (result : Except SyncError Unit)

/-- A worker on duty. -/
structure Duty where
  shift : Shift.State
  phase : Duty.Phase
  /-- The worker is told to stop. -/
  cancelled : Bool
  /-- What waiting for the cache came to, once it is over. -/
  synced : Option (Except SyncError Unit)

namespace Duty

/-- What others do with the queue. -/
inductive Errand where
  | add (key : String) (change : Change)
  /-- The retry at a place among those that are still to come back falls due. -/
  | fire (place : Nat)
  | close

/-- The errand as an action of a shift. -/
def Errand.action : Errand → Shift.Action.{u}
  | .add key c => .add key c
  | .fire place => .fire place
  | .close => .close

/-- What may happen next. -/
inductive Action : Type (u + 1) where
  | errand (e : Errand)
  /-- The worker is told to stop. -/
  | cancel
  /-- The guard closes the queue, once the worker is told to stop. -/
  | guard
  /-- Waiting for the cache is over; only the first time counts. -/
  | sync (result : Except SyncError Unit)
  /-- The worker takes what waiting for its cache came to. -/
  | proceed
  /-- The worker takes that it is told to stop, while it waits for its cache. -/
  | heed
  /-- The worker takes its next step at the queue. -/
  | work {σ : Type u} (world : World σ) (t : σ)

/-- Before the first action. -/
def start : Duty := ⟨Shift.start, .awaiting, false, none⟩

/-- What the worker does next at the queue. -/
def turn {σ : Type u} (world : World σ) (t : σ) : Shift.Stage → Shift.Action.{u}
  | .idle => .take
  | .taken _ _ => .process world t
  | .processed _ _ _ => .report
  | .told _ => .finish

/-- The next step of the worker at the queue.  A worker without a key in hand ends if the queue is
closed. -/
def serve (f : Shift) (d : Duty) {σ : Type u} (world : World σ) (t : σ) : Duty :=
  match d.shift.stage, d.shift.system.queue.closed with
  | .idle, true => { d with phase := .ended (.ok ()) }
  | stage, _ => { d with shift := f.step d.shift (turn world t stage) }

/-- The duty after an action. -/
def step (f : Shift) (d : Duty) : Action.{u} → Duty
  | .errand e => { d with shift := f.step d.shift e.action.{u} }
  | .cancel => { d with cancelled := true }
  | .guard => if d.cancelled then { d with shift := f.step d.shift .close.{u} } else d
  | .sync result => { d with synced := d.synced.or (some result) }
  | .proceed =>
    match d.phase, d.synced with
    | .awaiting, some (.ok ()) => { d with phase := .working }
    | .awaiting, some (.error e) => { d with phase := .ended (.error e), cancelled := true }
    | _, _ => d
  | .heed =>
    match d.phase, d.cancelled with
    | .awaiting, true => { d with phase := .ended (.error .shutDown) }
    | _, _ => d
  | .work world t =>
    match d.phase with
    | .working => d.serve f world t
    | _ => d

/-- The duty after a run. -/
def run (f : Shift) (d : Duty) (actions : List Action.{u}) : Duty :=
  actions.foldl (step f) d

/-- The worker takes a step at the queue. -/
def Action.isWork : Action.{u} → Bool
  | .work _ _ => true
  | _ => false

/-- The worker has begun its shift. -/
def Phase.hasBegun : Phase → Bool
  | .working | .ended (.ok ()) => true
  | .awaiting | .ended (.error _) => false

/-- The queue is closed. -/
def Closed (d : Duty) : Prop := d.shift.system.queue.closed = true

/-- Nobody but others has used the queue. -/
def Untouched (f : Shift) (d : Duty) : Prop :=
  ∃ errands : List Errand, d.shift = f.run Shift.start (errands.map Errand.action.{0})

/-- How many steps a worker whose queue is closed still has to take. -/
def left (d : Duty) : Nat :=
  match d.phase with
  | .working => d.shift.stage.left + 1
  | .awaiting | .ended _ => 0

variable {f : Shift} {d : Duty} {r : Except SyncError Unit}

theorem run_append (f : Shift) (d : Duty) (before after : List Action.{u}) :
    d.run f (before ++ after) = (d.run f before).run f after :=
  List.foldl_append

/-- What every action keeps, a run keeps. -/
theorem run_keeps {p : Duty → Prop} (hstep : ∀ d, p d → ∀ a : Action.{u}, p (d.step f a))
    (h : p d) (later : List Action.{u}) : p (d.run f later) := by
  induction later generalizing d with
  | nil => exact h
  | cons a later ih => exact ih (hstep d h a)

/-! ### Errands -/

theorem step_errand (f : Shift) (s : Shift.State) (e : Errand) :
    f.step s e.action.{u} = f.step s e.action.{0} := by
  cases e <;> rfl

theorem Untouched.errand (h : d.Untouched f) (e : Errand) {d' : Duty}
    (hd : d'.shift = f.step d.shift e.action.{u}) : d'.Untouched f := by
  obtain ⟨errands, hs⟩ := h
  refine ⟨errands ++ [e], ?_⟩
  rw [hd, step_errand, hs, List.map_append, Shift.run_append]
  rfl

/-- A worker that has not touched its queue has no change in hand and has made no attempt. -/
theorem Untouched.nothing (h : d.Untouched f) :
    d.shift.stage = .idle ∧ d.shift.attempts = [] := by
  obtain ⟨errands, hs⟩ := h
  have hrun (s : Shift.State) : (f.run s (errands.map Errand.action.{0})).stage = s.stage ∧
      (f.run s (errands.map Errand.action.{0})).attempts = s.attempts := by
    clear hs
    induction errands generalizing s with
    | nil => exact ⟨rfl, rfl⟩
    | cons e errands ih =>
      obtain ⟨hstage, hattempts⟩ := ih (f.step s e.action)
      cases e <;> exact ⟨hstage, hattempts⟩
  rw [hs]
  exact hrun Shift.start

/-! ### What an action does -/

/-- What happens to a duty happens to its shift, if at all. -/
theorem shift_step_cases (f : Shift) (d : Duty) (a : Action.{u}) :
    (d.step f a).shift = d.shift ∨ ∃ b : Shift.Action.{u}, (d.step f a).shift = f.step d.shift b := by
  cases a with
  | errand e => exact .inr ⟨e.action, rfl⟩
  | cancel | sync result => exact .inl rfl
  | guard =>
    simp only [step]
    split
    · exact .inr ⟨.close, rfl⟩
    · exact .inl rfl
  | proceed | heed => simp only [step]; split <;> exact .inl rfl
  | work world t =>
    simp only [step, serve]
    split
    · split
      · exact .inl rfl
      · exact .inr ⟨turn world t d.shift.stage, rfl⟩
    · exact .inl rfl

theorem Closed.step (h : d.Closed) (a : Action.{u}) : (d.step f a).Closed := by
  obtain hs | ⟨b, hs⟩ := shift_step_cases f d a <;> rw [Closed, hs]
  · exact h
  · exact Shift.closed_step f h b

theorem cancelled_step (h : d.cancelled = true) (a : Action.{u}) :
    (d.step f a).cancelled = true := by
  cases a with
  | errand e | sync result => exact h
  | cancel => rfl
  | guard => simp only [step]; split <;> exact h
  | proceed =>
    simp only [step]
    split
    · exact h
    · rfl
    · exact h
  | heed => simp only [step]; split <;> exact h
  | work world t =>
    simp only [step, serve]
    split
    · split <;> exact h
    · exact h

theorem cancelled_run (h : d.cancelled = true) (later : List Action.{u}) :
    (d.run f later).cancelled = true :=
  run_keeps (p := fun d => d.cancelled = true) (fun _ => cancelled_step) h later

theorem Closed.run (h : d.Closed) (later : List Action.{u}) : (d.run f later).Closed :=
  run_keeps (fun _ => Closed.step) h later

/-- A worker that is told to stop has its queue closed once the guard has come. -/
theorem closed_of_guard_mem (h : d.cancelled = true) {later : List Action.{u}}
    (hguard : .guard ∈ later) : (d.run f later).Closed := by
  obtain ⟨first, rest, rfl⟩ := List.append_of_mem hguard
  rw [run_append]
  refine Closed.run (d := (d.run f first).step f .guard) ?_ rest
  rw [step, if_pos (cancelled_run h first)]
  rfl

/-- Once a worker has ended it does nothing any more. -/
theorem ended_step (h : d.phase = .ended r) (a : Action.{u}) : (d.step f a).phase = .ended r := by
  cases a with
  | errand e | cancel | sync result => exact h
  | guard => simp only [step]; split <;> exact h
  | proceed | heed | work world t => simp only [step, h]

theorem ended_run (h : d.phase = .ended r) (later : List Action.{u}) :
    (d.run f later).phase = .ended r :=
  run_keeps (p := fun d => d.phase = .ended r) (fun _ => ended_step) h later

/-- A worker that has begun its shift goes on with it until it ends well. -/
theorem begun_step (h : d.phase.hasBegun = true) (a : Action.{u}) :
    (d.step f a).phase.hasBegun = true := by
  cases a with
  | errand e | cancel | sync result => exact h
  | guard => simp only [step]; split <;> exact h
  | proceed | heed =>
    cases hp : d.phase with
    | awaiting => rw [hp] at h; cases h
    | working | ended r => simpa only [step, hp] using h
  | work world t =>
    simp only [step, serve]
    split
    · split
      · rfl
      · exact h
    · exact h

theorem begun_run (h : d.phase.hasBegun = true) (later : List Action.{u}) :
    (d.run f later).phase.hasBegun = true :=
  run_keeps (p := fun d => d.phase.hasBegun = true) (fun _ => begun_step) h later

theorem Phase.hasBegun_iff {p : Phase} : p.hasBegun = true ↔ p = .working ∨ p = .ended (.ok ()) := by
  cases p with
  | awaiting | working => simp [hasBegun]
  | ended r => cases r <;> simp [hasBegun]

/-! ### The phases of a worker -/

/-- What holds of a worker in each of its phases. -/
structure Sound (f : Shift) (d : Duty) : Prop where
  /-- It begins only if its cache was filled. -/
  filled : d.phase.hasBegun = true → d.synced = some (.ok ())
  /-- It does not touch its queue before it begins. -/
  untouched : d.phase.hasBegun = false → d.Untouched f
  /-- It ends badly if its cache was not filled, or because it is told to stop; and then all that
  belongs to its kind is told to stop. -/
  failed : ∀ e, d.phase = .ended (.error e) →
    d.cancelled = true ∧ (d.synced = some (.error e) ∨ e = .shutDown)
  /-- It ends well only if its queue is closed. -/
  closed : d.phase = .ended (.ok ()) → d.Closed

theorem sound_start (f : Shift) : start.Sound f where
  filled := nofun
  untouched _ := ⟨[], rfl⟩
  failed := nofun
  closed := nofun

/-- Nothing is asked of a worker in its shift but that its cache was filled. -/
theorem Sound.of_working (hp : d.phase = .working) (hs : d.synced = some (.ok ())) : d.Sound f where
  filled _ := hs
  untouched h := by rw [hp] at h; cases h
  failed e he := by rw [hp] at he; cases he
  closed he := by rw [hp] at he; cases he

theorem Sound.serve (h : d.Sound f) (hp : d.phase = .working) {σ : Type u} (world : World σ)
    (t : σ) : (d.serve f world t).Sound f := by
  have hfilled : d.synced = some (.ok ()) := h.filled (by rw [hp]; rfl)
  simp only [Duty.serve]
  split
  · next hclosed => exact ⟨fun _ => hfilled, nofun, nofun, fun _ => hclosed⟩
  · exact .of_working hp hfilled

theorem Sound.step (h : d.Sound f) (a : Action.{u}) : (d.step f a).Sound f := by
  cases a with
  | errand e =>
    exact ⟨h.filled, fun hp => (h.untouched hp).errand e rfl, h.failed,
      fun hp => (h.closed hp).step (.errand e)⟩
  | cancel => exact ⟨h.filled, h.untouched, fun e he => ⟨rfl, (h.failed e he).2⟩, h.closed⟩
  | guard =>
    simp only [Duty.step]
    split
    · exact ⟨h.filled, fun hp => Untouched.errand.{u} (h.untouched hp) .close rfl, h.failed,
        fun hp => (h.closed hp).step (.errand .close)⟩
    · exact h
  | sync result =>
    -- the first result stays
    have hkept {r : Except SyncError Unit} (hs : d.synced = some r) :
        d.synced.or (some result) = some r := by rw [hs]; rfl
    exact ⟨fun hp => hkept (h.filled hp), h.untouched,
      fun e he => ⟨(h.failed e he).1, (h.failed e he).2.imp_left hkept⟩, h.closed⟩
  | proceed =>
    simp only [Duty.step]
    split
    · next hphase hsynced => exact .of_working rfl hsynced
    · next e hphase hsynced =>
      have huntouched : d.Untouched f := h.untouched (by rw [hphase]; rfl)
      exact ⟨nofun, fun _ => huntouched, fun e' he => by cases he; exact ⟨rfl, .inl hsynced⟩, nofun⟩
    · exact h
  | heed =>
    simp only [Duty.step]
    split
    · next hphase hcancelled =>
      have huntouched : d.Untouched f := h.untouched (by rw [hphase]; rfl)
      exact ⟨nofun, fun _ => huntouched, fun e he => by cases he; exact ⟨hcancelled, .inr rfl⟩, nofun⟩
    · exact h
  | work world t =>
    simp only [Duty.step]
    split
    · next hphase => exact h.serve hphase world t
    · exact h

theorem Sound.run (h : d.Sound f) (actions : List Action.{u}) : (d.run f actions).Sound f :=
  run_keeps (fun _ => Sound.step) h actions

/-- Without a filled cache, and as long as it waits for it, a worker has not begun. -/
theorem Sound.hasBegun_eq_false (h : d.Sound f)
    (hbefore : d.synced ≠ some (.ok ()) ∨ d.phase = .awaiting) : d.phase.hasBegun = false := by
  cases hb : d.phase.hasBegun with
  | false => rfl
  | true =>
    obtain hsynced | hp := hbefore
    · exact absurd (h.filled hb) hsynced
    · rw [hp] at hb
      cases hb

/-- A worker that has ended badly leaves its queue alone for good. -/
theorem Sound.untouched_of_failed (h : d.Sound f) {e : SyncError} (he : d.phase = .ended (.error e))
    (later : List Action.{u}) : (d.run f later).Untouched f :=
  (h.run later).untouched (by rw [ended_run he later]; rfl)

/-! ### The end of a worker whose queue is closed -/

theorem left_serve (hp : d.phase = .working) (hc : d.Closed) {σ : Type u} (world : World σ) (t : σ) :
    (d.serve f world t).left ≤ d.left - 1 := by
  have hleft : d.left = d.shift.stage.left + 1 := by simp only [left, hp]
  rw [hleft, Nat.add_sub_cancel]
  rw [Closed] at hc
  cases hs : d.shift.stage with
  | idle => simp [serve, hs, hc, left]
  | taken key x =>
    obtain ⟨posted, -, hstep⟩ := exists_step_process f hs world t
    simp [serve, hs, turn, left, hp, hstep, Stage.left]
  | processed key x failed => simp [serve, hs, turn, left, hp, Shift.step, Stage.left]
  | told key => simp [serve, hs, turn, left, hp, Shift.step, Stage.left]

/-- A worker whose queue is closed comes nearer to its end with every step. -/
theorem left_step (hb : d.phase.hasBegun = true) (hc : d.Closed) (a : Action.{u}) :
    (d.step f a).left ≤ d.left - if a.isWork then 1 else 0 := by
  have hshift (b : Shift.Action.{u}) : left { d with shift := f.step d.shift b } ≤ d.left := by
    simp only [left]
    split
    · exact Nat.succ_le_succ (left_step_of_closed f hc b)
    · exact Nat.le_refl _
    · exact Nat.le_refl _
  cases a with
  | errand e => exact hshift e.action
  | cancel | sync result => exact Nat.le_refl _
  | guard =>
    simp only [step]
    split
    · exact hshift .close
    · exact Nat.le_refl _
  | proceed | heed =>
    cases hp : d.phase with
    | awaiting => rw [hp] at hb; cases hb
    | working | ended r => simp [step, hp, Action.isWork]
  | work world t =>
    cases hp : d.phase with
    | awaiting => rw [hp] at hb; cases hb
    | working => simpa only [step, hp, Action.isWork, if_true] using left_serve hp hc world t
    | ended r => simp [step, hp, left]

theorem left_run (hb : d.phase.hasBegun = true) (hc : d.Closed) (later : List Action.{u}) :
    (d.run f later).left ≤ d.left - later.countP Action.isWork := by
  induction later generalizing d with
  | nil => exact Nat.le_refl _
  | cons a later ih =>
    have hnext := left_step (f := f) hb hc a
    have hrest := ih (d := d.step f a) (begun_step hb a) (hc.step a)
    rw [List.countP_cons]
    refine Nat.le_trans hrest ?_
    omega

/-- A worker in its shift whose queue is closed has ended well after the steps that it has left. -/
theorem ends_of_closed (hp : d.phase = .working) (hc : d.Closed) {later : List Action.{u}}
    (hl : d.shift.stage.left + 1 ≤ later.countP Action.isWork) :
    (d.run f later).phase = .ended (.ok ()) := by
  have hb : d.phase.hasBegun = true := by rw [hp]; rfl
  have hleft := left_run (f := f) hb hc later
  obtain hworking | hended := Phase.hasBegun_iff.1 (begun_run (f := f) hb later)
  · simp only [left, hp, hworking] at hleft
    omega
  · exact hended

end Duty

/-! ### Workers of a pipeline -/

namespace SharedQueue

variable {α : Type u} {s s' : SharedQueue α} {g : Nat}

/-- No getter changes a closed queue. -/
theorem queue_step_of_closed (hc : s.queue.closed = true) (h : s.step g = some s') :
    s'.queue = s.queue := by
  unfold step at h
  split at h
  · cases h
    exact queue_register s g
  · cases h
    rw [queue_ask, Queue.get_of_closed hc]
  · cases h
  · cases h
    rfl
  · cases h
  · cases h

theorem queue_steps_of_closed (hc : s.queue.closed = true) (n : Nat) :
    (s.steps g n).queue = s.queue := by
  induction n generalizing s with
  | zero => rfl
  | succ n ih =>
    rw [steps]
    cases hs : s.step g with
    | none => rfl
    | some s' =>
      have hq := queue_step_of_closed hc hs
      exact (ih (hq ▸ hc)).trans hq

theorem queue_settle_of_closed (hc : s.queue.closed = true) : s.settle.queue = s.queue := by
  have hfold (es : List (Nat × Stage α)) (t : SharedQueue α) (ht : t.queue.closed = true) :
      (es.foldl (fun s e => s.run e.1) t).queue = t.queue := by
    induction es generalizing t with
    | nil => rfl
    | cons e es ih =>
      have hq : (t.run e.1).queue = t.queue := queue_steps_of_closed ht stepsAlone
      exact (ih _ (hq ▸ ht)).trans hq
  exact hfold s.getters s hc

end SharedQueue

namespace SyncWait

/-- Whenever a wait is cut off, it ends well only if the cache is filled. -/
theorem endedBy_eq_ok_iff {wait : SyncWait} {stop : Option Nat} :
    wait.endedBy stop = .ok () ↔ wait = .filled := by
  cases stop with
  | none => cases wait <;> simp [endedBy]
  | some stop =>
    cases wait with
    | givesUp seconds =>
      simp only [endedBy]
      split <;> simp
    | filled | fails e | endless => simp [endedBy]

theorem abandon_eq_filled_iff {wait : SyncWait} : wait.abandon = .filled ↔ wait = .filled := by
  fun_cases abandon wait <;> simp

end SyncWait

namespace Pipeline

/-- The wait for the cache ends well exactly if the cache is filled. -/
theorem waitIn_eq_ok_iff {p : Pipeline} {around : Surroundings} :
    p.waitIn around = .ok () ↔ p.wait = .filled := by
  simp only [waitIn, SyncWait.endedBy_eq_ok_iff]
  split
  · exact SyncWait.abandon_eq_filled_iff
  · exact Iff.rfl

/-- Closing a pipeline only closes its queue. -/
theorem queue_close (p : Pipeline) : p.close.queue.queue = p.queue.queue.close := by
  have hq : p.queue.shared.close.queue = p.queue.queue.close := SharedQueue.queue_close _
  have hc : p.queue.shared.close.queue.closed = true := by rw [hq]; rfl
  exact (SharedQueue.queue_settle_of_closed hc).trans hq

/-- A worker ends as its wait for the cache does, with a closed queue.  If it ends badly, it has done
nothing else with the queue. -/
theorem run_ends_as_wait (p : Pipeline) (around : Surroundings) :
    (p.run around).result = p.waitIn around ∧ (p.run around).next.queue.queue.closed = true ∧
      ∀ e, (p.run around).result = .error e →
        (p.run around).notices = [] ∧ (p.run around).next.queue.queue = p.queue.queue.close := by
  cases hw : p.waitIn around with
  | error e =>
    simp only [run, hw, queue_close]
    exact ⟨trivial, rfl, fun _ _ => ⟨trivial, trivial⟩⟩
  | ok u =>
    simp only [run, hw, queue_close]
    exact ⟨trivial, rfl, nofun⟩

end Pipeline

namespace Duty

variable {f : Shift}

/-- **A worker does not touch its queue before its cache is filled.**  Take any run of a worker's
duty, in which the queue is used by others, waiting for the cache ends in any way or does not end,
and the worker is told to stop or not, at any time:

* as long as the cache was not filled, and as long as the worker waits, only others have used the
  queue: no change was taken from it, and no attempt was made at one;
* a worker that waits ends badly if it takes that its cache was not filled, or that it is told to
  stop;
* a worker that has ended badly has ended so for good, whatever comes later.  It is told to stop,
  with all that belongs to its kind, and so its queue is closed when the guard has come.  No attempt
  is ever made at any change;
* a worker that has begun its shift ends well, if it ends.  It does so after the steps that it has
  left once its queue is closed, as it is when the worker is told to stop and the guard has come;
* a worker that has ended well had its cache filled, and its queue is closed.

The worker of a pipeline ends as its wait for the cache does, with a closed queue.  If it ends
badly, it has done nothing else with the queue. -/
theorem barrier_before_shift (f : Shift) (actions : List Action.{u}) :
    let d := start.run f actions
    (d.synced ≠ some (.ok ()) ∨ d.phase = .awaiting →
      d.Untouched f ∧ d.shift.stage = .idle ∧ d.shift.attempts = []) ∧
    (d.phase = .awaiting →
      (∀ e, d.synced = some (.error e) → (d.step f .proceed.{u}).phase = .ended (.error e)) ∧
      (d.cancelled = true → (d.step f .heed.{u}).phase = .ended (.error .shutDown))) ∧
    (∀ e, d.phase = .ended (.error e) → (d.synced = some (.error e) ∨ e = .shutDown) ∧
      ∀ later : List Action.{u}, let d' := d.run f later
        d'.phase = .ended (.error e) ∧ d'.cancelled = true ∧ (.guard ∈ later → d'.Closed) ∧
          d'.Untouched f ∧ d'.shift.attempts = []) ∧
    (d.phase = .working → ∀ later : List Action.{u}, let d' := d.run f later
      (d'.phase = .working ∨ d'.phase = .ended (.ok ())) ∧
      (d.cancelled = true → .guard ∈ later → d'.Closed) ∧
      (d.Closed → d.shift.stage.left + 1 ≤ later.countP Action.isWork →
        d'.phase = .ended (.ok ()))) ∧
    (d.phase = .ended (.ok ()) → d.synced = some (.ok ()) ∧ d.Closed) ∧
    ∀ (p : Pipeline) (around : Pipeline.Surroundings), let r := p.run around
      r.result = p.waitIn around ∧ r.next.queue.queue.closed = true ∧
        ∀ e, r.result = .error e → r.notices = [] ∧ r.next.queue.queue = p.queue.queue.close := by
  intro d
  have hd : d.Sound f := (sound_start f).run actions
  refine ⟨fun hbefore => ?_, fun hp => ⟨fun e he => ?_, fun hc => ?_⟩, fun e he => ?_,
    fun hp later => ?_, fun hp => ?_, fun p around => ?_⟩
  · have hbegun : d.phase.hasBegun = false := hd.hasBegun_eq_false hbefore
    exact ⟨hd.untouched hbegun, (hd.untouched hbegun).nothing⟩
  · simp only [step, hp, he]
  · simp only [step, hp, hc]
  · obtain ⟨hcancelled, hwhy⟩ := hd.failed e he
    refine ⟨hwhy, fun later => ?_⟩
    have huntouched : (d.run f later).Untouched f := hd.untouched_of_failed he later
    exact ⟨ended_run he later, cancelled_run hcancelled later, closed_of_guard_mem hcancelled,
      huntouched, huntouched.nothing.2⟩
  · have hb : d.phase.hasBegun = true := by rw [hp]; rfl
    exact ⟨Phase.hasBegun_iff.1 (begun_run hb later),
      fun hcancelled hguard => closed_of_guard_mem hcancelled hguard,
      fun hc hl => ends_of_closed hp hc hl⟩
  · exact ⟨hd.filled (by rw [hp]; rfl), hd.closed hp⟩
  · exact p.run_ends_as_wait around

/-- Of two workers one waits in vain for its cache, and does nothing with the change that came in
meanwhile or with a later one.  The other one attempts such a change when its cache is filled, is
told to stop after that, and goes through with its step. -/
theorem failed_and_finished_duty :
    let f : Shift := ⟨⟨⟨"Pod", "", "v1", "pods", true, none, .empty⟩, default,
      [.discord "http://receiver" ""]⟩, .standard⟩
    let c : Change := ⟨"a/x", .update, "Pod", "v1", none, none, none⟩
    let world : World Unit :=
      ⟨fun _ s => (.ok none, s), fun s => (⟨"", ""⟩, s), fun _ s => (none, s)⟩
    let failed := start.run f [.errand (.add "a/x" c), .sync (.error (.timedOut 5)), .proceed]
    let later : List Action.{0} := [.errand (.add "a/y" c), .work world (), .guard, .work world ()]
    let stopped := start.run f [.errand (.add "a/x" c), .sync (.ok ()), .proceed, .work world (),
      .work world (), .cancel, .guard]
    let rest : List Action.{0} := [.errand (.add "a/y" c), .work world (), .work world (),
      .work world ()]
    ((failed.run f later).phase = .ended (.error (.timedOut 5)) ∧ (failed.run f later).Closed ∧
      (failed.run f later).shift.attempts = []) ∧
    stopped.shift.attempts.length = 1 ∧ stopped.phase = .working ∧
      (stopped.run f rest).phase = .ended (.ok ()) := by
  intro f c world failed later stopped rest
  obtain ⟨-, -, hended, -⟩ := barrier_before_shift f
    [.errand (.add "a/x" c), .sync (.error (.timedOut 5)), .proceed.{0}]
  obtain ⟨-, -, -, hworking, -⟩ := barrier_before_shift f [.errand (.add "a/x" c), .sync (.ok ()),
    .proceed, .work world (), .work world (), .cancel, .guard]
  obtain ⟨hphase, -, hclosed, -, hattempts⟩ := (hended (.timedOut 5) rfl).2 later
  obtain ⟨-, -, hends⟩ := hworking rfl rest
  exact ⟨⟨hphase, hclosed (by simp [later]), hattempts⟩, rfl, rfl, hends rfl (by decide)⟩

end Duty

end ClusterHerald
