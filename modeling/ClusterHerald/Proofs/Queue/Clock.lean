import ClusterHerald.Proofs.Queue.Getters
import ClusterHerald.Queue.Timed
import Mathlib.Data.List.Perm.Basic
import Mathlib.Logic.Relation

/-!
# A queue with a clock

The clock of a queue says when its retries come back, and wake-ups say when a getter asks.  Runs of
a queue leave both open, so what a queue with a clock does is such a run: while a getter waits,
retries come back and the getter asks, until it gets something (`Queue.System.Serves`).  Here no
other getter waits at the same time.

* `TimedQueue.Shows` : a queue with a clock, and the queue with its retries that it is;
* `TimedQueue.Shows.getWithin` : what a getter gets within a time is what a run hands out;
* `TimedQueue.Shows.schedule` : a retry that is scheduled is one that is still to come back.
-/

namespace ClusterHerald

open Relation

universe u

variable {α : Type u} {backoff : Backoff}

/-! ### While a getter waits -/

namespace Queue

/-- What a getter has got, if it is finished: a key, or nothing because the queue is closed. -/
abbrev Got (α : Type u) := Option (Option (String × α))

/-- What a getter has got. -/
def Taken.got : Taken α → Got α
  | .closed => some none
  | .nothing => none
  | .item key payload => some (some (key, payload))

namespace System

variable {s : System α}

/-- What may happen next while a getter waits. -/
inductive Serves (backoff : Backoff) : System α × Got α → System α × Got α → Prop
  | fire (s : System α) (got : Got α) (place : Nat) :
    Serves backoff (s, got) (s.step backoff (.fire place), got)
  | vain {s : System α} (hc : s.queue.closed = false) (hh : s.hands .get = none) :
    Serves backoff (s, none) (s.step backoff .get, none)
  | item {s : System α} {item : String × α} (hh : s.hands .get = some item) :
    Serves backoff (s, none) (s.step backoff .get, some (some item))
  | closed {s : System α} (hc : s.queue.closed = true) : Serves backoff (s, none) (s, some none)

/-- Every retry that is still to come back may come back next. -/
theorem exists_fire (backoff : Backoff) {r : Retry α} {rest : List (Retry α)}
    (h : s.retries.Perm (r :: rest)) :
    ∃ place, (s.step backoff (.fire place)).queue = s.queue.fire r.key r.payload r.generation ∧
      (s.step backoff (.fire place)).retries.Perm rest := by
  obtain ⟨place, hplace, rfl⟩ := List.getElem_of_mem (h.mem_iff.2 List.mem_cons_self)
  refine ⟨place, ?_, ?_⟩
  · simp only [step, List.getElem?_eq_getElem hplace]
  · simp only [step, List.getElem?_eq_getElem hplace]
    exact ((List.getElem_cons_eraseIdx_perm hplace).trans h).cons_inv

/-- What a getter gets that asks now. -/
theorem serves_get (backoff : Backoff) (s : System α) :
    ReflTransGen (Serves backoff) (s, none) (s.step backoff .get, s.queue.get.1.got) := by
  cases hc : s.queue.closed with
  | true =>
    have hstep : s.step backoff .get = s := by simp only [step, get_of_closed hc]
    rw [hstep, get_of_closed hc]
    exact .single (.closed hc)
  | false =>
    cases hg : s.queue.get.1 with
    | closed =>
      unfold get at hg
      rw [hc] at hg
      simp only [Bool.false_eq_true, if_false] at hg
      split at hg <;> cases hg
    | nothing => exact .single (.vain hc (by rw [hands, hg]; rfl))
    | item key payload => exact .single (.item (by rw [hands, hg]; rfl))

end System

end Queue

open Queue

namespace SharedQueue

open Queue.System

variable {s s' : SharedQueue α} {g : Nat} {retries : List (Retry α)}

theorem Nudges.outcome? {h : Nat} (hn : s.Nudges s' h) : s'.outcome? h = s.outcome? h := by
  obtain he | ⟨signal, -, he⟩ := hn
  · simp only [SharedQueue.outcome?, he]
  · simp only [SharedQueue.outcome?, he]
    cases s.stage? h with
    | none => rfl
    | some stage => cases stage <;> rfl

theorem Nudges.eq_none {h : Nat} (hn : s.Nudges s' h) (hs : s.stage? h = none) :
    s'.stage? h = none := by
  obtain he | ⟨signal, -, he⟩ := hn <;> rw [he, hs]
  rfl

/-- No getter is there but the one of this number. -/
def Alone (s : SharedQueue α) (g : Nat) : Prop := ∀ h, g ≠ h → s.stage? h = none

/-- The queue, the retries that are still to come back, and what the getter has got. -/
structure Meets (s : SharedQueue α) (g : Nat) (retries : List (Retry α))
    (served : System α × Got α) : Prop where
  alone : s.Alone g
  queue : served.1.queue = s.queue
  retries : served.1.retries.Perm retries
  got : served.2 = s.outcome? g

/-- What happens to the queue may happen while the getter waits. -/
def Proceeds (backoff : Backoff) (g : Nat) (s : SharedQueue α) (retries : List (Retry α))
    (s' : SharedQueue α) (retries' : List (Retry α)) : Prop :=
  ∀ served, s.Meets g retries served →
    ∃ served', ReflTransGen (Serves backoff) served served' ∧ s'.Meets g retries' served'

theorem Proceeds.refl (s : SharedQueue α) (retries : List (Retry α)) :
    Proceeds backoff g s retries s retries :=
  fun served h => ⟨served, .refl, h⟩

theorem Proceeds.trans {s'' : SharedQueue α} {retries' retries'' : List (Retry α)}
    (h : Proceeds backoff g s retries s' retries')
    (h' : Proceeds backoff g s' retries' s'' retries'') :
    Proceeds backoff g s retries s'' retries'' := by
  intro served hmeets
  obtain ⟨served', hserves, hmeets'⟩ := h served hmeets
  obtain ⟨served'', hserves', hmeets''⟩ := h' served' hmeets'
  exact ⟨served'', hserves.trans hserves', hmeets''⟩

/-- The queue and what the getter has got stay as they are. -/
theorem proceeds_of_quiet (hqueue : s'.queue = s.queue)
    (hothers : ∀ h, g ≠ h → s.stage? h = none → s'.stage? h = none)
    (hgot : s'.outcome? g = s.outcome? g) (retries : List (Retry α)) :
    Proceeds backoff g s retries s' retries :=
  fun served h => ⟨served, .refl, fun k hk => hothers k hk (h.alone k hk),
    h.queue.trans hqueue.symm, h.retries, h.got.trans hgot.symm⟩

/-- The getter goes on, but gets nothing yet. -/
theorem proceeds_setStage {stage : Stage α} (hg : s.stage? g = some stage)
    (hstage : ∀ item, stage ≠ .finished item) (stage' : Stage α)
    (hstage' : ∀ item, stage' ≠ .finished item) (hqueue : s'.queue = s.queue)
    (hgetters : s'.getters = (s.setStage g stage').getters) (retries : List (Retry α)) :
    Proceeds backoff g s retries s' retries := by
  have hlookup (h : Nat) : s'.stage? h = (s.setStage g stage').stage? h := by
    rw [stage?, hgetters]
    rfl
  refine proceeds_of_quiet hqueue (fun h hne hs => ?_) ?_ retries
  · rwa [hlookup, stage?_setStage_ne s hne]
  · rw [outcome?, outcome?, hlookup, stage?_setStage_self s hg, hg]
    cases stage with
    | finished item => exact absurd rfl (hstage item)
    | _ =>
      cases stage' with
      | finished item => exact absurd rfl (hstage' item)
      | _ => rfl

/-- The getter asks. -/
theorem proceeds_ask {signal : Signal} (hg : s.stage? g = some (.registered signal))
    (retries : List (Retry α)) : Proceeds backoff g s retries (s.ask g signal) retries := by
  -- what is set, whatever becomes of the wake-up
  have hset (q : Queue α) (stage : Stage α) (h : Nat) :
      (SharedQueue.setStage { s with queue := q } g stage).stage? h =
        if g = h then some stage else s.stage? h := by
    rw [stage?_setStage]
    change (if g = h then (s.stage? g).map _ else s.stage? h) = _
    rw [hg]
    rfl
  have hleft (item : Option (String × α)) (q : Queue α) :
      let s' := (SharedQueue.setStage { s with queue := q } g (.finished item)).unregister g signal
      (∀ h, g ≠ h → s.stage? h = none → s'.stage? h = none) ∧ s'.outcome? g = some item := by
    refine ⟨fun h hne hs => (nudges_unregister _ g h signal).eq_none ?_, ?_⟩
    · rw [hset, if_neg hne, hs]
    · rw [(nudges_unregister _ g g signal).outcome?, outcome?, hset, if_pos rfl]
  have hasked : (∀ h, g ≠ h → s.stage? h = none → (s.ask g signal).stage? h = none) ∧
      (s.ask g signal).outcome? g = s.queue.get.1.got := by
    unfold ask
    split <;> rename_i hget <;> rw [hget]
    · exact hleft none _
    · exact hleft (some _) _
    · refine ⟨fun h hne hs => ?_, ?_⟩
      · rw [hset, if_neg hne, hs]
      · rw [outcome?, hset, if_pos rfl]
        rfl
  rintro ⟨t, got⟩ ⟨halone, hqueue, hretries, hgot⟩
  obtain rfl : got = none := by
    rw [outcome?, hg] at hgot
    exact hgot
  simp only at hqueue
  refine ⟨(t.step backoff .get, t.queue.get.1.got), serves_get backoff t,
    fun h hne => hasked.1 h hne (halone h hne), ?_, hretries, ?_⟩
  · rw [queue_ask, ← hqueue]
    rfl
  · rw [hasked.2, hqueue]

theorem proceeds_step (hs : s.step g = some s') (retries : List (Retry α)) :
    Proceeds backoff g s retries s' retries := by
  unfold step at hs
  split at hs
  · next hg =>
    cases hs
    unfold register
    split
    · refine proceeds_setStage hg (by simp) (.registered .permit) (by simp) ?_ ?_ retries <;> rfl
    · refine proceeds_setStage hg (by simp) (.registered .none) (by simp) ?_ ?_ retries <;> rfl
  · next hg =>
    cases hs
    exact proceeds_ask hg retries
  · cases hs
  · next hg =>
    cases hs
    refine proceeds_setStage hg (by simp) .entering (by simp) ?_ ?_ retries <;> rfl
  · cases hs
  · cases hs

theorem proceeds_run (s : SharedQueue α) (retries : List (Retry α)) :
    Proceeds backoff g s retries (s.run g) retries := by
  have hsteps (n : Nat) (s : SharedQueue α) :
      Proceeds backoff g s retries (s.steps g n) retries := by
    induction n generalizing s with
    | zero => exact .refl s retries
    | succ n ih =>
      rw [steps]
      cases hs : s.step g with
      | none => exact .refl s retries
      | some s' => exact (proceeds_step hs retries).trans (ih s')
  exact hsteps stepsAlone s

/-- A getter that is not there takes no steps. -/
theorem run_of_absent {h : Nat} (hs : s.stage? h = none) : s.run h = s := by
  have hstep : s.step h = none := by simp only [step, hs]
  simp only [run, stepsAlone, steps, hstep]

/-- Nobody takes a step but the getter. -/
theorem proceeds_run_any (h : Nat) (s : SharedQueue α) (retries : List (Retry α)) :
    Proceeds backoff g s retries (s.run h) retries := by
  by_cases hne : g = h
  · subst hne
    exact proceeds_run s retries
  · intro served hmeets
    rw [run_of_absent (hmeets.alone h hne)]
    exact ⟨served, .refl, hmeets⟩

/-- A getter comes. -/
theorem proceeds_enter (hg : s.stage? g = none) (retries : List (Retry α)) :
    Proceeds backoff g s retries (s.enter g) retries := by
  refine proceeds_of_quiet ?_ (fun h hne hs => ?_) ?_ retries
  · rfl
  · rw [stage?_enter, hs, if_neg hne]
    rfl
  · rw [outcome?, outcome?, stage?_enter, hg, if_pos rfl]
    rfl

theorem proceeds_settle (s : SharedQueue α) (retries : List (Retry α)) :
    Proceeds backoff g s retries s.settle retries := by
  have hfold (es : List (Nat × Stage α)) (s : SharedQueue α) :
      Proceeds backoff g s retries (es.foldl (fun s e => s.run e.1) s) retries := by
    induction es generalizing s with
    | nil => exact .refl s retries
    | cons e es ih => exact (proceeds_run_any e.1 s retries).trans (ih _)
  exact hfold s.getters s

theorem settle_of_free (hfree : ∀ h, s.stage? h = none) : s.settle = s := by
  have hfold (es : List (Nat × Stage α)) : es.foldl (fun s e => s.run e.1) s = s := by
    induction es with
    | nil => rfl
    | cons e es ih => rw [List.foldl_cons, run_of_absent (hfree e.1), ih]
  exact hfold s.getters

/-- It makes no difference in which order retries are to come back. -/
theorem proceeds_of_perm {retries' : List (Retry α)} (h : retries.Perm retries')
    (s : SharedQueue α) : Proceeds backoff g s retries s retries' :=
  fun served hmeets => ⟨served, .refl, hmeets.alone, hmeets.queue, hmeets.retries.trans h,
    hmeets.got⟩

/-- A retry comes back. -/
theorem proceeds_fire (r : Retry α) (s : SharedQueue α) (retries : List (Retry α)) :
    Proceeds backoff g s (r :: retries) (s.update (·.fire r.key r.payload r.generation))
      retries := by
  rintro ⟨t, got⟩ ⟨halone, hqueue, hretries, hgot⟩
  obtain ⟨place, hfired, hrest⟩ := exists_fire backoff hretries
  simp only at hqueue
  refine ⟨(t.step backoff (.fire place), got), .single (.fire t got place),
    fun h hne => (nudges_update s _ h).eq_none (halone h hne), ?_, hrest, ?_⟩
  · rw [queue_update, hfired, hqueue]
  · rw [(nudges_update s _ g).outcome?]
    exact hgot

end SharedQueue

/-! ### The clock -/

/-- The retry of a timer. -/
def Timer.retry (timer : Timer α) : Retry α := ⟨timer.key, timer.payload, timer.generation⟩

namespace TimedQueue

open Queue.System SharedQueue

variable {t t' : TimedQueue α} {g : Nat}

/-- What happens to the queue may happen while the getter waits.  The timers are retries that are
still to come back, and it makes no difference that there are others. -/
structure Proceeds (backoff : Backoff) (g : Nat) (t t' : TimedQueue α) : Prop where
  backoff_eq : t'.backoff = t.backoff
  shared (others : List (Retry α)) : SharedQueue.Proceeds backoff g
    t.shared (t.timers.map Timer.retry ++ others) t'.shared (t'.timers.map Timer.retry ++ others)

theorem Proceeds.refl (t : TimedQueue α) : Proceeds backoff g t t :=
  ⟨rfl, fun _ => .refl _ _⟩

theorem Proceeds.trans {t'' : TimedQueue α} (h : Proceeds backoff g t t')
    (h' : Proceeds backoff g t' t'') : Proceeds backoff g t t'' :=
  ⟨h'.backoff_eq.trans h.backoff_eq, fun others => (h.shared others).trans (h'.shared others)⟩

/-- The timers that are due at an instant, and the others. -/
theorem perm_timers (timers : List (Timer α)) (instant : Nat) (others : List (Retry α)) :
    (timers.map Timer.retry ++ others).Perm ((timers.filter (·.due ≤ instant)).map Timer.retry ++
      ((timers.filter (instant < ·.due)).map Timer.retry ++ others)) := by
  have hfilter : (timers.filter fun x => !decide (x.due ≤ instant)) =
      timers.filter fun x => decide (instant < x.due) :=
    List.filter_congr fun x _ => Bool.eq_iff_iff.2 (by simp)
  have hperm := List.filter_append_perm (fun x : Timer α => decide (x.due ≤ instant)) timers
  rw [hfilter] at hperm
  rw [← List.append_assoc, ← List.map_append]
  exact ((hperm.map Timer.retry).symm).append_right others

theorem takeTurns_cons (s : SharedQueue α) (n : Nat) (turn : SharedQueue α → SharedQueue α)
    (turns : List (SharedQueue α → SharedQueue α)) :
    takeTurns s g n (turn :: turns) =
      takeTurns (if (n + 1) % roundLength = 0 then (turn s).run g else turn s) g (n + 1) turns := by
  simp [takeTurns, List.zipIdx_cons]

/-- After a turn the getter may go on. -/
theorem proceeds_turn {s s' : SharedQueue α} {retries retries' : List (Retry α)}
    (h : SharedQueue.Proceeds backoff g s retries s' retries') (n : Nat) :
    SharedQueue.Proceeds backoff g s retries (if n % roundLength = 0 then s'.run g else s')
      retries' := by
  split
  · exact h.trans (proceeds_run s' retries')
  · exact h

theorem proceeds_fires (timers : List (Timer α)) (s : SharedQueue α) (n : Nat)
    (retries : List (Retry α)) :
    SharedQueue.Proceeds backoff g s (timers.map Timer.retry ++ retries)
      (takeTurns s g n (timers.map fun timer s =>
        s.update (·.fire timer.key timer.payload timer.generation))) retries := by
  induction timers generalizing s n with
  | nil => exact .refl s retries
  | cons timer timers ih =>
    rw [List.map_cons, List.map_cons, takeTurns_cons]
    exact (proceeds_turn (proceeds_fire timer.retry s _) _).trans (ih _ _)

theorem proceeds_runs (getters : List Nat) (s : SharedQueue α) (n : Nat)
    (retries : List (Retry α)) :
    SharedQueue.Proceeds backoff g s retries
      (takeTurns s g n (getters.map fun h s => s.run h)) retries := by
  induction getters generalizing s n with
  | nil => exact .refl s retries
  | cons h getters ih =>
    rw [List.map_cons, takeTurns_cons]
    exact (proceeds_turn (proceeds_run_any h s retries) _).trans (ih _ _)

theorem proceeds_fireBefore (t : TimedQueue α) (instant : Nat) :
    Proceeds backoff g t (t.fireBefore g instant) where
  backoff_eq := rfl
  shared others :=
    (proceeds_of_perm (perm_timers t.timers instant others) t.shared).trans
      ((proceeds_fires _ _ _ _).trans ((proceeds_runs _ _ _ _).trans (proceeds_settle _ _)))

theorem proceeds_awaitGetter (t : TimedQueue α) (deadline n : Nat) :
    Proceeds backoff g t (t.awaitGetter g deadline n) := by
  induction n generalizing t with
  | zero => exact .refl t
  | succ n ih =>
    rw [awaitGetter]
    split
    · exact .refl t
    · split
      · split
        · exact (proceeds_fireBefore t _).trans (ih _)
        · exact .refl t
      · exact .refl t

theorem proceeds_foldl_fire (backoff : Backoff) (g : Nat) (timers : List (Timer α))
    (t : TimedQueue α) :
    (timers.foldl fire t).backoff = t.backoff ∧ (timers.foldl fire t).timers = t.timers ∧
      ∀ retries, SharedQueue.Proceeds backoff g t.shared (timers.map Timer.retry ++ retries)
        (timers.foldl fire t).shared retries := by
  induction timers generalizing t with
  | nil => exact ⟨rfl, rfl, fun retries => .refl _ _⟩
  | cons timer timers ih =>
    obtain ⟨hbackoff, htimers, hshared⟩ := ih (t.fire timer)
    refine ⟨hbackoff, htimers, fun retries => ?_⟩
    exact (proceeds_fire timer.retry t.shared _).trans
      ((proceeds_settle _ _).trans (hshared retries))

theorem proceeds_fireUntil (t : TimedQueue α) (instant : Nat) :
    Proceeds backoff g t (t.fireUntil instant) := by
  let due := t.timers.filter (·.due ≤ instant)
  obtain ⟨hbackoff, htimers, hshared⟩ := proceeds_foldl_fire backoff g
    (due.mergeSort fun a b => a.due ≤ b.due)
    { t with now := max t.now instant, timers := t.timers.filter (instant < ·.due) }
  refine ⟨hbackoff, fun others => ?_⟩
  have hsorted : (due.map Timer.retry).Perm
      ((due.mergeSort fun a b => a.due ≤ b.due).map Timer.retry) :=
    (List.mergeSort_perm due _).symm.map _
  rw [fireUntil, htimers]
  exact (proceeds_of_perm ((perm_timers t.timers instant others).trans
    (hsorted.append_right _)) t.shared).trans (hshared _)

/-! ### A queue without other getters -/

/-- The queue, its clock and its timers, as a queue with retries that are still to come back.  No
getter waits, and it makes no difference that there are retries without a timer: closing the queue
drops its timers. -/
structure Shows (t : TimedQueue α) (backoff : Backoff) (s : System α) : Prop where
  backoff_eq : t.backoff = backoff
  free : ∀ h, t.shared.stage? h = none
  queue : s.queue = t.queue
  retries : ∃ others, s.retries.Perm (t.timers.map Timer.retry ++ others)

theorem shows_start (backoff : Backoff) : (start backoff : TimedQueue α).Shows backoff .start :=
  ⟨rfl, fun _ => rfl, rfl, [], .refl _⟩

variable {s s' : System α}

/-- An operation of the queue brings no getter. -/
theorem change_update_of_free (hfree : ∀ k, t.shared.stage? k = none) (f : Queue α → Queue α) :
    (t.change (·.update f)).shared = t.shared.update f ∧
      ∀ k, (t.change (·.update f)).shared.stage? k = none := by
  have hfree' (k : Nat) : (t.shared.update f).stage? k = none :=
    (nudges_update t.shared f k).eq_none (hfree k)
  have hshared : (t.change (·.update f)).shared = t.shared.update f := settle_of_free hfree'
  exact ⟨hshared, fun k => hshared ▸ hfree' k⟩

/-- An operation of the queue that schedules nothing. -/
theorem Shows.change (h : t.Shows backoff s) {f : Queue α → Queue α}
    (hqueue : s'.queue = f s.queue) (hretries : s'.retries = s.retries) :
    (t.change (·.update f)).Shows backoff s' := by
  obtain ⟨hshared, hfree⟩ := change_update_of_free h.free f
  refine ⟨h.backoff_eq, hfree, ?_, hretries ▸ h.retries⟩
  rw [hqueue, h.queue]
  exact ((congrArg SharedQueue.queue hshared).trans (queue_update _ _)).symm

theorem Shows.add (h : t.Shows backoff s) (key : String) (payload : α) :
    (t.add key payload).Shows backoff (s.step backoff (.add key payload)) :=
  h.change rfl rfl

/-- What happens while a getter waits is a run. -/
theorem Shows.exists_served (h : t.Shows backoff s) (hp : Proceeds backoff g t t') :
    ∃ s' others, ReflTransGen (Serves backoff) (s, none) (s', t'.shared.outcome? g) ∧
      t'.shared.Meets g (t'.timers.map Timer.retry ++ others) (s', t'.shared.outcome? g) := by
  obtain ⟨others, hretries⟩ := h.retries
  have hgot : none = t.shared.outcome? g := by rw [outcome?, h.free]
  obtain ⟨⟨s', got⟩, hserves, hmeets⟩ := hp.shared others (s, none)
    ⟨fun k _ => h.free k, h.queue, hretries, hgot⟩
  obtain rfl : got = t'.shared.outcome? g := hmeets.got
  exact ⟨s', others, hserves, hmeets⟩

/-- When time passes, retries come back. -/
theorem Shows.fireUntil (h : t.Shows backoff s) (instant : Nat) :
    ∃ s', ReflTransGen (Serves backoff) (s, none) (s', none) ∧
      (t.fireUntil instant).Shows backoff s' := by
  have hfold (timers : List (Timer α)) (t : TimedQueue α)
      (hfree : ∀ k, t.shared.stage? k = none) :
      ∀ k, (timers.foldl fire t).shared.stage? k = none := by
    induction timers generalizing t with
    | nil => exact hfree
    | cons timer timers ih => exact ih (t.fire timer) (change_update_of_free hfree _).2
  have hfree : ∀ k, (t.fireUntil instant).shared.stage? k = none := hfold _ _ h.free
  have hp : Proceeds backoff 0 t (t.fireUntil instant) := proceeds_fireUntil t instant
  obtain ⟨s', others, hserves, hmeets⟩ := h.exists_served hp
  rw [outcome?, hfree] at hserves
  exact ⟨s', hserves, hp.backoff_eq.trans h.backoff_eq, hfree, hmeets.queue, others,
    hmeets.retries⟩

/-- What a getter gets within a time is what a run hands out in which it waits. -/
theorem Shows.getWithin (h : t.Shows backoff s) (ms : Nat) :
    ∃ s', ReflTransGen (Serves backoff) (s, none) (s', (t.getWithin ms).1.got) ∧
      (t.getWithin ms).2.Shows backoff s' := by
  let asked := t.change fun s => (s.enter t.sent).run t.sent
  let waited := asked.awaitGetter t.sent (endOfWait t.now ms) (asked.timers.length + 1)
  have hasked : Proceeds backoff t.sent t asked := ⟨rfl, fun others =>
    (proceeds_enter (h.free t.sent) _).trans ((proceeds_run _ _).trans (proceeds_settle _ _))⟩
  have hp : Proceeds backoff t.sent t waited := hasked.trans (proceeds_awaitGetter asked _ _)
  obtain ⟨s', others, hserves, hmeets⟩ := h.exists_served hp
  let left : TimedQueue α := { waited with shared := waited.shared.cancel t.sent }
  have hleft : left.Shows backoff s' := by
    refine ⟨hp.backoff_eq.trans h.backoff_eq, fun k => ?_, ?_, others, hmeets.retries⟩
    · by_cases hk : t.sent = k
      · rw [← hk]
        exact stage?_cancel_self _ _
      · exact (nudges_cancel _ hk).eq_none (hmeets.alone k hk)
    · exact hmeets.queue.trans (queue_cancel _ _).symm
  simp only [TimedQueue.getWithin]
  split
  · next hgot =>
    rw [show waited.shared.outcome? t.sent = _ from hgot] at hserves
    exact ⟨s', hserves, hleft⟩
  · next hgot =>
    rw [show waited.shared.outcome? t.sent = _ from hgot] at hserves
    exact ⟨s', hserves, hleft⟩
  · next hgot =>
    -- the wait ended first
    rw [show waited.shared.outcome? t.sent = _ from hgot] at hserves
    obtain ⟨s'', hserves', hshows⟩ := hleft.fireUntil (endOfWait t.now ms)
    exact ⟨s'', hserves.trans hserves', hshows⟩

/-- An operation of the queue that may schedule a retry, which may be due at once. -/
theorem Shows.schedule (h : t.Shows backoff s) (key : String) (payload : α)
    (f : Queue α → Option (Span × Nat) × Queue α) (hqueue : s'.queue = (f s.queue).2)
    (hretries : s'.retries =
      s.retries ++ (f s.queue).1.toList.map fun scheduled => ⟨key, payload, scheduled.2⟩) :
    ∃ s'', ReflTransGen (Serves backoff) (s', none) (s'', none) ∧
      (t.schedule key payload f).Shows backoff s'' := by
  have hq : s.queue = t.queue := h.queue
  have hchanged : (t.change (·.update fun _ => (f t.queue).2)).Shows backoff
      ⟨s'.queue, s.retries⟩ := h.change (hq ▸ hqueue) rfl
  cases hscheduled : (f t.queue).1 with
  | none =>
    rw [hq, hscheduled, Option.toList_none, List.map_nil, List.append_nil] at hretries
    have hresult : t.schedule key payload f = t.change (·.update fun _ => (f t.queue).2) := by
      simp only [TimedQueue.schedule, hscheduled]
    rw [hresult]
    exact ⟨s', .refl, h.change (hq ▸ hqueue) hretries⟩
  | some scheduled =>
    obtain ⟨delay, generation⟩ := scheduled
    rw [hq, hscheduled] at hretries
    let t' := t.change (·.update fun _ => (f t.queue).2)
    let timer : Timer α := ⟨endOfWait t'.now delay.millis, key, payload, generation⟩
    have hresult : t.schedule key payload f =
        { t' with timers := t'.timers ++ [timer] }.fireUntil t'.now := by
      simp only [TimedQueue.schedule, hscheduled]
      rfl
    obtain ⟨others, hperm⟩ := hchanged.retries
    have htimed : ({ t' with timers := t'.timers ++ [timer] } : TimedQueue α).Shows backoff s' := by
      refine ⟨hchanged.backoff_eq, hchanged.free, hchanged.queue, others, ?_⟩
      rw [hretries, List.map_append, List.append_assoc]
      refine (List.Perm.append_right _ hperm).trans ?_
      rw [List.append_assoc]
      exact List.Perm.append_left _ List.perm_append_comm
    rw [hresult]
    exact htimed.fireUntil t'.now

end TimedQueue

end ClusterHerald
