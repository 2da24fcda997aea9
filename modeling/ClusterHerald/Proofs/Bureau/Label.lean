import ClusterHerald.Proofs.Bureau.Basic
import ClusterHerald.Proofs.Processing
import ClusterHerald.Proofs.Watch.Naming

/-!
# What decides how serious a notice is

An object of the kind `Event` may state a reason, and some reasons stand for a finer kind
(`Object.Finer`).  The label of an object is that finer kind, or else the display name of its kind
(`Object.Labelled`), and label and type of a change say how serious it is (`Graded`).

On its way to the sinks a change may be replaced in the queue, fail, come back and be resolved to
another object.  All the same its notice is labelled by the object that the watch has observed
(`Bureau.labelled_by_observed_object`): what the cache has, how often the change has failed and which
fields are ignored makes no difference.
-/

namespace ClusterHerald

universe u

/-! ### Labels -/

namespace Object

/-- The object states a reason at its top. -/
def States (o : Object) (reason : String) : Prop :=
  Entries.get? o.data "reason" = some (.string reason)

/-- The reasons that stand for a finer kind, with that kind. -/
def finerKinds : List (String × String) :=
  [("NodeReady", "NodeReady"), ("NodeNotReady", "NodeNotReady"), ("NodeRebooted", "NodeRebooted"),
    ("BackOff", "Backoff"), ("Backoff", "Backoff")]

/-- The object has a finer kind than that of its name. -/
def Finer (o : Object) (name label : String) : Prop :=
  name = "Event" ∧ ∃ reason, o.States reason ∧ (reason, label) ∈ finerKinds

/-- The label of an object, by the display name of its kind. -/
inductive Labelled (o : Object) (name : String) : String → Prop
  | finer {label : String} (h : o.Finer name label) : Labelled o name label
  | plain (h : ∀ label, ¬ o.Finer name label) : Labelled o name name

end Object

/-- How serious a change of an object with the label is, and how its notice calls it. -/
inductive Graded (label : String) : ChangeType → Severity → Reason → Prop
  | deleted : Graded label .delete .danger .deleted
  | crashed (h : label = "Backoff") : Graded label .update .danger .updated
  | updated (h : label ≠ "Backoff") : Graded label .update .warning .updated
  | failed (h : label = "NodeNotReady" ∨ label = "NodeRebooted" ∨ label = "Backoff") :
    Graded label .create .danger .created
  | created (h : ¬ (label = "NodeNotReady" ∨ label = "NodeRebooted" ∨ label = "Backoff")) :
    Graded label .create .normal .created

theorem graded_classify (type : ChangeType) (label : String) :
    Graded label type (classify type label).1 (classify type label).2 := by
  have hfailure : label ∈ failureKinds ↔
      label = "NodeNotReady" ∨ label = "NodeRebooted" ∨ label = "Backoff" := by
    simp [failureKinds]
  cases type with
  | delete => exact .deleted
  | update =>
    by_cases h : label = "Backoff"
    · simpa only [classify, if_pos h] using .crashed h
    · simpa only [classify, if_neg h] using .updated h
  | create =>
    by_cases h : label ∈ failureKinds
    · simpa only [classify, if_pos h] using .failed (hfailure.1 h)
    · simpa only [classify, if_neg h] using .created (mt hfailure.2 h)

theorem eventSubtype?_eq_some_iff {reason label : String} :
    eventSubtype? reason = some label ↔ (reason, label) ∈ Object.finerKinds := by
  simp only [Object.finerKinds, List.mem_cons, Prod.mk.injEq, List.not_mem_nil, or_false]
  constructor
  · intro h
    unfold eventSubtype? at h
    split at h <;> cases h <;> simp
  · rintro (⟨rfl, rfl⟩ | ⟨rfl, rfl⟩ | ⟨rfl, rfl⟩ | ⟨rfl, rfl⟩ | ⟨rfl, rfl⟩) <;> rfl

namespace Observer

variable {w : Observer} {o : Object} {label : String}

theorem subtype?_eq_some_iff : w.subtype? o = some label ↔ o.Finer w.kind.name label := by
  have hstates (reason : String) : (Entries.get? o.data "reason").bind Json.string? = some reason ↔
      o.States reason := by
    rw [Object.States, Option.bind_eq_some_iff]
    constructor
    · rintro ⟨v, hv, hs⟩
      cases v <;> cases hs
      exact hv
    · exact fun h => ⟨_, h, rfl⟩
  by_cases hname : w.kind.name = eventKindName
  · rw [subtype?, if_pos hname, Option.bind_eq_some_iff]
    simp only [hstates, eventSubtype?_eq_some_iff]
    exact (and_iff_right hname).symm
  · rw [subtype?, if_neg hname]
    exact iff_of_false nofun fun h => hname h.1

/-- The label of a change is that of its object. -/
theorem labelled (w : Observer) (o : Object) :
    o.Labelled w.kind.name ((w.subtype? o).getD w.kind.name) := by
  cases h : w.subtype? o with
  | some label => exact .finer (subtype?_eq_some_iff.1 h)
  | none =>
    refine .plain fun label hfiner => ?_
    rw [subtype?_eq_some_iff.2 hfiner] at h
    cases h

@[simp] theorem kind_next (w : Observer) (e : WatchEvent) : (w.next e).kind = w.kind := by
  cases e with
  | listing | complete | applied | deleted => rfl
  | listed o =>
    simp only [next]
    split <;> rfl

end Observer

/-- A notice tells what its change says, whatever the cache has answered. -/
theorem Worker.exists_reports {σ : Type u} {w : Worker} {world : World σ} {c : Change} {s : σ}
    {n : Notice} (h : (w.process world c s).1.notice? = some n) :
    ∃ ns name current, c.Reports ns name current n := by
  have hdone : ¬ (w.process world c s).1.isFailed = true := fun hf => by
    cases ho : (w.process world c s).1 with
    | failed => rw [ho] at h; cases h
    | replayed | irrelevant | announced => rw [ho] at hf; cases hf
  rw [isFailed_process_iff, not_or] at hdone
  rcases hk : Key.parse c.key with e | ⟨ns, name⟩
  · exact absurd ⟨e, hk⟩ hdone.1
  · obtain ⟨current, hcur⟩ := Change.exists_stands hdone.2
    obtain ⟨hp, -⟩ | ⟨-, ⟨hp, -⟩ | ⟨hp, -⟩⟩ := process_cases (w := w) hk hcur.current
    · rw [hp] at h; cases h
    · rw [hp] at h; cases h
    · cases hp.symm.trans h
      exact ⟨ns, name, current, c.reports_notice ns name current⟩

/-! ### Notices of a shift -/

namespace Shift

variable {f : Shift} {s : State}

/-- Every notice tells what its change says. -/
def State.Reporting (s : State) : Prop :=
  ∀ a ∈ s.attempts, ∀ n, a.outcome.notice? = some n →
    ∃ ns name current, a.change.payload.Reports ns name current n

theorem State.Reporting.step (h : s.Reporting) (a : Action.{u}) : (f.step s a).Reporting := by
  cases a with
  | add key c | fire place | close => exact h
  | take | report | finish =>
    simp only [Shift.step]
    split <;> exact h
  | process world t =>
    cases hs : s.stage with
    | taken key x =>
      obtain ⟨posted, -, hstep⟩ := exists_step_process f hs world t
      rw [hstep]
      intro a ha n hn
      rcases List.mem_append.1 ha with ha | ha
      · exact h a ha n hn
      · obtain rfl := List.mem_singleton.1 ha
        exact Worker.exists_reports hn
    | _ => simpa only [Shift.step, hs] using h

theorem State.Reporting.run (h : s.Reporting) (actions : List Action.{u}) :
    (f.run s actions).Reporting := by
  induction actions generalizing s with
  | nil => exact h
  | cons a actions ih => exact ih (h.step a)

end Shift

/-! ### Notices of a bureau -/

namespace Bureau

variable {f : Shift} {s : Bureau} {c : Change} {actions : List Action.{u}}

/-- The watch keeps its kind. -/
theorem kind_run {kind : WatchedKind} (h : ∀ scene ∈ s.scene?, scene.observer.kind = kind)
    (actions : List Action.{u}) :
    ∀ scene ∈ (run f s actions).scene?, scene.observer.kind = kind := by
  induction actions generalizing s with
  | nil => exact h
  | cons a actions ih =>
    refine ih ?_
    cases a with
    | work a => exact h
    | observe e =>
      cases hs : s.scene? with
      | none => simp [step, hs, Scene.emit]
      | some scene =>
        cases ht : scene.take e with
        | error => simp [step, hs, Scene.emit, ht]
        | ok taken =>
          have hkind : taken.2.observer.kind = kind := by
            rw [(Scene.take_eq_ok ht).2.1, Observer.kind_next, h scene hs]
          simpa [step, hs, Scene.emit, ht] using hkind

/-- In the run an event has shown the change of the object.  It is the object of the event, or a
stored one that a listing lacked. -/
structure Observed (f : Shift) (actions : List Action.{u}) (c : Change) (o : Object) : Prop where
  exists_event : ∃ before e after scene changes scene',
    actions = before ++ .observe e :: after ∧ (run f (start f) before).scene? = some scene ∧
    scene.take e = .ok (changes, scene') ∧ c ∈ changes ∧
    (e.object? = some o ∨ e = .complete ∧ o ∈ scene.store.objects.toList ∧
      scene.observer.relisted.contains c.key = false)
  key : o.key? = some c.key

/-- A change that was shown is labelled by the object that was observed. -/
theorem exists_observed (h : c ∈ shown f (start f) actions) :
    ∃ o, Observed f actions c o ∧ o.Labelled f.worker.kind.name (c.subtype.getD c.kind) := by
  obtain ⟨before, e, after, hactions, hc⟩ := mem_shown h
  obtain ⟨scene, changes, scene', hscene, htake, hmem⟩ := Scene.mem_emit_iff.1 hc
  have hkind : scene.observer.kind = f.worker.kind :=
    kind_run (by rintro _ ⟨⟩; rfl) before scene hscene
  obtain ⟨⟨found, hfound, hchanges⟩, -⟩ := Scene.take_eq_ok htake
  obtain ⟨g, hg, hchange⟩ := List.mem_filterMap.1 (hchanges ▸ hmem)
  obtain ⟨key, hkey, rfl⟩ := Option.map_eq_some_iff.1 hchange
  refine ⟨g.object, ⟨⟨before, e, after, scene, changes, scene', hactions, hscene, htake, hmem,
    Observer.shown_or_stored hfound hg hkey⟩, hkey⟩, ?_⟩
  rw [← hkind]
  exact scene.observer.labelled g.object

/-- **Notices are labelled by the observed object.**  Whatever happens to a watch, its worker and
the queue, and whatever look-ups and receivers answer, the notice of an attempt is that of a change
that the watch has shown of an object.  The label of the object is the kind of the notice, and label
and type of the change say how serious it is. -/
theorem labelled_by_observed_object (f : Shift) (actions : List Action.{u}) :
    ∀ a ∈ (run f (start f) actions).shift.attempts, ∀ n, a.outcome.notice? = some n →
      ∃ o, Observed f actions a.change.payload o ∧ o.key? = some a.key ∧
        o.Labelled f.worker.kind.name n.kind ∧
        Graded n.kind a.change.payload.type n.severity n.reason := by
  intro a ha n hn
  obtain ⟨moves, hmoves⟩ := exists_run_shift f (start f) actions
  have htidy : f.Tidy (run f (start f) actions).shift := by
    rw [hmoves]
    exact (Shift.tidy_start f).run moves
  have hreporting : (run f (start f) actions).shift.Reporting := by
    rw [hmoves]
    exact Shift.State.Reporting.run (fun _ h => absurd h List.not_mem_nil) moves
  obtain ⟨ns, name, current, hreports⟩ := hreporting a ha n hn
  -- what was added has been shown
  have hadded := List.mem_of_getElem? (htidy.added a ha)
  rw [added_run, start, Shift.start, List.nil_append] at hadded
  obtain ⟨c, hshown, hc⟩ := List.mem_map.1 hadded
  obtain ⟨hkey, rfl⟩ := Prod.mk.inj hc
  obtain ⟨o, hobserved, hlabel⟩ := exists_observed hshown
  have hkind : n.kind = a.change.payload.subtype.getD a.change.payload.kind := hreports.kind
  have hgraded := graded_classify a.change.payload.type n.kind
  rw [hkind, ← hreports.label, ← hkind] at hgraded
  exact ⟨o, hobserved, hkey ▸ hobserved.key, hkind ▸ hlabel, hgraded⟩

/-- A crash is listed.  The first look-up fails, and by the second the cached event states another
reason; then a listing lacks the event.  Both notices are about the crash that was observed. -/
theorem crash_announced_twice :
    let kind : WatchedKind := ⟨"Event", "", "v1", "events", true, none, .empty⟩
    let f : Shift := ⟨⟨kind, ⟨0, 0⟩, [.scripted none]⟩, .standard⟩
    let event (reason : String) : Object :=
      ⟨none, { name := "x", namespaceName := "a", creationTimestamp := some ⟨1, 0⟩ },
        [("reason", .string reason)]⟩
    let world (found : Except LookupError (Option Object)) : World Unit :=
      ⟨fun _ s => (found, s), fun s => (⟨"", ""⟩, s), fun _ s => (none, s)⟩
    let turn (found : Except LookupError (Option Object)) : List Action.{0} :=
      [.work .take, .work (.process (world found) ()), .work .report, .work .finish]
    let actions : List Action.{0} :=
      [.observe .listing, .observe (.listed (event "BackOff")), .observe .complete] ++
      turn (.error (.unavailable "a/x")) ++ [.work (.fire 0)] ++
      turn (.ok (some (event "Started"))) ++ [.observe .listing, .observe .complete] ++
      turn (.ok none)
    let attempts := (run f (start f) actions).shift.attempts
    (attempts.filterMap (·.outcome.notice?)).map (fun n => (n.kind, n.severity, n.reason)) =
        [("Backoff", .danger, .created), ("Backoff", .danger, .deleted)] ∧
      ∃ a ∈ attempts, ∃ n, a.outcome.notice? = some n ∧ n.kind = "Backoff" ∧
        ∃ o, Observed f actions a.change.payload o ∧ o.key? = some a.key ∧
          o.Labelled "Event" n.kind ∧ Graded n.kind a.change.payload.type n.severity n.reason := by
  intro kind f event world turn actions attempts
  have hnotices : (attempts.filterMap (·.outcome.notice?)).map
      (fun n => (n.kind, n.severity, n.reason)) =
        [("Backoff", .danger, .created), ("Backoff", .danger, .deleted)] := by
    decide +kernel
  obtain ⟨n, hn, hlabel⟩ := List.mem_map.1 (hnotices ▸ List.mem_cons_self)
  obtain ⟨a, ha, hnotice⟩ := List.mem_filterMap.1 hn
  exact ⟨hnotices, a, ha, n, hnotice, congrArg Prod.fst hlabel,
    labelled_by_observed_object f actions a ha n hnotice⟩

end Bureau

end ClusterHerald
