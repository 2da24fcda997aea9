import ClusterHerald.Proofs.Bureau.Basic
import ClusterHerald.Proofs.Watch.Nameless
import Mathlib.Algebra.BigOperators.Group.Finset.Piecewise
import Mathlib.Data.Fintype.Basic

/-!
# Bureaus that share their counters

An agency has a bureau for each of its kinds, and all of them count in the same place.  A step is
one of a bureau (`Agency.step`); the changes that it shows are counted as they are put in line,
whatever becomes of them afterwards.  But for the counters the bureaus do not meet, each goes its own
way (`Agency.bureaus_run`), and a watch on its own counts in the same way (`Watch.counters_learn`).

So a counter is the sum, over all bureaus, of what their watches have shown
(`Agency.count_run`), and this depends on the events of each watch alone.  Kinds with the same
display name share their counters, but not their sums.  How the bureaus take turns makes no
difference, not even to the text of the counters (`Agency.counters_match_observations`).
-/

namespace ClusterHerald

universe u

/-! ### Counters -/

/-- The change is counted under this kind and type. -/
def Change.countsAs (kind : String) (type : ChangeType) (c : Change) : Bool :=
  c.kind = kind ∧ c.type = type

namespace Counters

variable {c c' : Counters}

@[simp] theorem count_zero (kind : String) (type : ChangeType) : zero.count kind type = 0 := by
  cases type <;> rfl

theorem count_observeAll (c : Counters) (changes : List Change) (kind : String)
    (type : ChangeType) :
    (c.observeAll changes).count kind type =
      c.count kind type + changes.countP (Change.countsAs kind type) := by
  induction changes generalizing c with
  | nil => rfl
  | cons change changes ih =>
    rw [observeAll, List.foldl_cons, ← observeAll, ih, count_observe, List.countP_cons, Nat.add_assoc,
      Nat.add_comm (List.countP _ _)]
    simp [Change.countsAs]

theorem observeAll_append (c : Counters) (changes more : List Change) :
    c.observeAll (changes ++ more) = (c.observeAll changes).observeAll more :=
  List.foldl_append

/-- What was never observed has no counter. -/
def Tight (c : Counters) : Prop := ∀ kind type, (c.ofType type).get? kind ≠ some 0

theorem tight_zero : zero.Tight := by
  intro kind type
  cases type <;> nofun

theorem ofType_observe (c : Counters) (kind : String) (type type' : ChangeType) :
    (c.observe kind type).ofType type' =
      if type = type' then (c.ofType type).insert kind (c.count kind type + 1)
      else c.ofType type' := by
  cases type <;> cases type' <;> rfl

theorem Tight.observe (h : c.Tight) (kind : String) (type : ChangeType) :
    (c.observe kind type).Tight := by
  intro kind' type'
  rw [ofType_observe]
  split
  · rw [Table.get?_insert]
    split
    · nofun
    · exact h kind' type
  · exact h kind' type'

theorem Tight.observeAll (h : c.Tight) (changes : List Change) : (c.observeAll changes).Tight := by
  induction changes generalizing c with
  | nil => exact h
  | cons change changes ih => exact ih (h.observe change.kind change.type)

theorem Tight.get?_eq (h : c.Tight) (kind : String) (type : ChangeType) :
    (c.ofType type).get? kind = if c.count kind type = 0 then none else c.count kind type := by
  cases hget : (c.ofType type).get? kind with
  | none => simp [count, hget]
  | some n =>
    have hn : n ≠ 0 := fun hzero => h kind type (hzero ▸ hget)
    simp [count, hget, hn]

/-- Counters are told by their counts. -/
theorem Tight.ext (h : c.Tight) (h' : c'.Tight)
    (hcount : ∀ kind type, c.count kind type = c'.count kind type) : c = c' := by
  have htable (type : ChangeType) : c.ofType type = c'.ofType type := Table.ext_get? fun kind => by
    rw [h.get?_eq, h'.get?_eq, hcount]
  obtain ⟨created, updated, deleted⟩ := c
  obtain ⟨created', updated', deleted'⟩ := c'
  obtain rfl : created = created' := htable .create
  obtain rfl : updated = updated' := htable .update
  obtain rfl : deleted = deleted' := htable .delete
  rfl

end Counters

/-! ### Single watches -/

namespace Watch

/-- The scene of a watch, until it has ended. -/
def scene? (w : Watch) : Option Scene :=
  if w.broken then none else some ⟨w.pipeline.observer, w.pipeline.store⟩

/-- A watch counts the changes of an event that its scene shows. -/
theorem step_learned (w : Watch) (e : WatchEvent) :
    (w.step (.learned e)).counters = w.counters.observeAll (Scene.emit w.scene? e).1 ∧
      (w.step (.learned e)).scene? = (Scene.emit w.scene? e).2 := by
  cases hb : w.broken with
  | true => simp [step, scene?, hb, Scene.emit, Counters.observeAll]
  | false =>
    cases ht : Scene.take ⟨w.pipeline.observer, w.pipeline.store⟩ e with
    | ok taken =>
      obtain ⟨log, hwatch⟩ := Pipeline.exists_watch ht
      simp [step, scene?, hb, Scene.emit, ht, hwatch, Pipeline.enqueue]
    | error fault =>
      have hwatch := w.pipeline.watch_eq_take e
      rw [ht] at hwatch
      cases hp : w.pipeline.watch e with
      | ok seen => rw [hp] at hwatch; cases hwatch
      | error fault => simp [step, scene?, hb, Scene.emit, ht, hp, Counters.observeAll]

/-- A watch on its own counts just what its scene shows. -/
theorem counters_learn (w : Watch) (events : List WatchEvent) :
    (w.learn events).counters = w.counters.observeAll (Scene.reports w.scene? events) := by
  induction events generalizing w with
  | nil => rfl
  | cons e events ih =>
    obtain ⟨hcounters, hscene⟩ := w.step_learned e
    rw [Scene.reports, Counters.observeAll_append, ← hcounters, ← hscene]
    exact ih _

end Watch

/-! ### Agencies -/

/-- The state of the kinds, with the counters that they share. -/
structure Agency (ι : Type) where
  counters : Counters
  bureaus : ι → Bureau

namespace Agency

variable {ι : Type} [DecidableEq ι]

/-- Before the first event. -/
def start (f : ι → Shift) : Agency ι := ⟨.zero, fun i => .start (f i)⟩

/-- The state after an action of one of the bureaus. -/
def step (f : ι → Shift) (s : Agency ι) (a : ι × Bureau.Action.{u}) : Agency ι where
  counters := s.counters.observeAll ((s.bureaus a.1).shows a.2)
  bureaus := Function.update s.bureaus a.1 ((s.bureaus a.1).step (f a.1) a.2)

/-- The state after a run. -/
def run (f : ι → Shift) (s : Agency ι) (actions : List (ι × Bureau.Action.{u})) : Agency ι :=
  actions.foldl (step f) s

/-- What one of the bureaus does in a run. -/
def own (i : ι) (actions : List (ι × Bureau.Action.{u})) : List Bureau.Action.{u} :=
  actions.filterMap fun a => if a.1 = i then some a.2 else none

variable {f : ι → Shift} {s : Agency ι} {i : ι} {actions : List (ι × Bureau.Action.{u})}

theorem own_cons_self (i : ι) (a : Bureau.Action.{u}) (actions : List (ι × Bureau.Action.{u})) :
    own i ((i, a) :: actions) = a :: own i actions :=
  List.filterMap_cons_some (if_pos rfl)

theorem own_cons_of_ne {j : ι} (h : j ≠ i) (a : Bureau.Action.{u})
    (actions : List (ι × Bureau.Action.{u})) : own i ((j, a) :: actions) = own i actions :=
  List.filterMap_cons_none (if_neg h)

theorem bureaus_step_self (f : ι → Shift) (s : Agency ι) (i : ι) (a : Bureau.Action.{u}) :
    (step f s (i, a)).bureaus i = (s.bureaus i).step (f i) a :=
  Function.update_self ..

theorem bureaus_step_of_ne {j : ι} (h : j ≠ i) (f : ι → Shift) (s : Agency ι)
    (a : Bureau.Action.{u}) : (step f s (j, a)).bureaus i = s.bureaus i :=
  Function.update_of_ne (Ne.symm h) ..

/-- A bureau goes its own way. -/
theorem bureaus_run (f : ι → Shift) (s : Agency ι) (actions : List (ι × Bureau.Action.{u}))
    (i : ι) : (run f s actions).bureaus i = Bureau.run (f i) (s.bureaus i) (own i actions) := by
  induction actions generalizing s with
  | nil => rfl
  | cons a actions ih =>
    obtain ⟨j, a⟩ := a
    refine (ih (step f s (j, a))).trans ?_
    by_cases h : j = i
    · obtain rfl := h
      rw [own_cons_self, bureaus_step_self]
      rfl
    · rw [own_cons_of_ne h, bureaus_step_of_ne h]

theorem tight_run (h : s.counters.Tight) (actions : List (ι × Bureau.Action.{u})) :
    (run f s actions).counters.Tight := by
  induction actions generalizing s with
  | nil => exact h
  | cons a actions ih => exact ih (h.observeAll _)

variable [Fintype ι]

/-- A counter is what it was, and what the bureaus have shown. -/
theorem count_run (f : ι → Shift) (s : Agency ι) (actions : List (ι × Bureau.Action.{u}))
    (kind : String) (type : ChangeType) :
    (run f s actions).counters.count kind type = s.counters.count kind type +
      ∑ i, (Bureau.shown (f i) (s.bureaus i) (own i actions)).countP
        (Change.countsAs kind type) := by
  induction actions generalizing s with
  | nil => simp [run, own, Bureau.shown]
  | cons a actions ih =>
    obtain ⟨j, a⟩ := a
    -- of all bureaus just the one that acts shows more
    have hsplit (i : ι) : (Bureau.shown (f i) (s.bureaus i) (own i ((j, a) :: actions))).countP
        (Change.countsAs kind type) =
        (if i = j then ((s.bureaus j).shows a).countP (Change.countsAs kind type) else 0) +
          (Bureau.shown (f i) ((step f s (j, a)).bureaus i) (own i actions)).countP
            (Change.countsAs kind type) := by
      by_cases h : j = i
      · obtain rfl := h
        rw [own_cons_self, Bureau.shown, List.countP_append, bureaus_step_self, if_pos rfl]
      · rw [own_cons_of_ne h, bureaus_step_of_ne h, if_neg (Ne.symm h), Nat.zero_add]
    refine (ih (step f s (j, a))).trans ?_
    simp only [hsplit, Finset.sum_add_distrib, Finset.sum_ite_eq', Finset.mem_univ, if_true]
    rw [← Nat.add_assoc, ← Counters.count_observeAll]
    rfl

/-- **Counters match observations.**  Whatever the bureaus do, and however they take turns, a counter
is the number of changes of its kind and type that the watches of all bureaus have shown over their
events.  No step changes a counter but that of a watch.  If the watches get the same events in two
runs, the counters are the same. -/
theorem counters_match_observations (f : ι → Shift) :
    (∀ (actions : List (ι × Bureau.Action.{u})) (kind : String) (type : ChangeType),
      (run f (start f) actions).counters.count kind type =
        ∑ i, (Scene.reports (some (.start (f i).worker.kind)) (Bureau.events (own i actions))).countP
          (Change.countsAs kind type)) ∧
    (∀ (s : Agency ι) (i : ι) (a : Shift.Action.{u}),
      (step f s (i, .work a)).counters = s.counters) ∧
    ∀ actions actions' : List (ι × Bureau.Action.{u}),
      (∀ i, Bureau.events (own i actions) = Bureau.events (own i actions')) →
        (run f (start f) actions).counters = (run f (start f) actions').counters := by
  have hcount (actions : List (ι × Bureau.Action.{u})) (kind : String) (type : ChangeType) :
      (run f (start f) actions).counters.count kind type =
        ∑ i, (Scene.reports (some (.start (f i).worker.kind))
          (Bureau.events (own i actions))).countP (Change.countsAs kind type) := by
    rw [count_run, start, Counters.count_zero, Nat.zero_add]
    simp only [Bureau.shown_eq_reports]
    rfl
  refine ⟨hcount, fun s i a => rfl, fun actions actions' h => ?_⟩
  have htight (actions : List (ι × Bureau.Action.{u})) :
      (run f (start f) actions).counters.Tight := tight_run Counters.tight_zero actions
  exact (htight actions).ext (htight actions') fun kind type => by
    simp only [hcount, h]

/-- Two kinds with the same display name.  In the first run a look-up fails, the retry comes back
after the next change, and the queue is closed before the last one; in the second run the watches take
turns, and no worker does anything. -/
theorem widgets_counted_together :
    let kind (group : String) : WatchedKind :=
      ⟨"Widget", group, "v1", "widgets", true, none, .empty⟩
    let f (i : Bool) : Shift := ⟨⟨kind (if i then "a.io" else "b.io"), default, []⟩, .standard⟩
    let widget (name version : String) : Object :=
      ⟨none, { name, namespaceName := "a", resourceVersion := version }, []⟩
    let silent : World Unit :=
      ⟨fun key s => (.error (.unavailable key), s), fun s => (⟨"", ""⟩, s), fun _ s => (none, s)⟩
    let shows (name version : String) : Bureau.Action.{0} :=
      .observe (.applied (widget name version))
    let lost : Bureau.Action.{0} := .observe (.deleted (widget "x" "2"))
    let actions : List (Bool × Bureau.Action.{0}) :=
      [(true, shows "x" "1"), (true, .work .take), (true, .work (.process silent ())),
        (true, .work .report), (true, .work .finish), (true, shows "x" "2"),
        (true, .work (.fire 0)), (true, .work .close), (true, lost),
        (false, shows "y" "1"), (false, shows "y" "2")]
    let actions' : List (Bool × Bureau.Action.{0}) :=
      [(false, shows "y" "1"), (true, shows "x" "1"), (true, shows "x" "2"),
        (false, shows "y" "2"), (true, lost)]
    let counters := (run f (start f) actions).counters
    counters.count "Widget" .create = 2 ∧ counters.count "Widget" .update = 2 ∧
      counters.count "Widget" .delete = 1 ∧ counters = (run f (start f) actions').counters := by
  intro kind f widget silent shows lost actions actions' counters
  have hevents : ∀ i, Bureau.events (own i actions) = Bureau.events (own i actions') := by
    rintro (_ | _) <;> rfl
  exact ⟨by decide +kernel, by decide +kernel, by decide +kernel,
    (counters_match_observations f).2.2 actions actions' hevents⟩

end Agency

end ClusterHerald
