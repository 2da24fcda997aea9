import ClusterHerald.Proofs.Dispatch
import ClusterHerald.Proofs.Worker

/-!
# One change from end to end

What becomes of a change is said by its key, what the cache answers, the three snapshots, the anchor
and the ignored fields:

* `Worker.isFailed_process_iff` : processing fails iff the key is malformed, or the cache is asked
  and does not answer;
* `Change.passedOver_iff` : when a change with a known current object is passed over;
* `Change.reports_notice` : what the notice of a change tells;
* `Worker.dispatches` : the sinks are given the one notice that processing came to, or nothing.
-/

namespace ClusterHerald

universe u

/-- An instant lies strictly before another one. -/
def Instant.Before (a b : Instant) : Prop :=
  a.seconds < b.seconds ∨ a.seconds = b.seconds ∧ a.nanos < b.nanos

theorem Instant.notAfter_eq_false_iff {a b : Instant} : a.notAfter b = false ↔ b.Before a := by
  simp only [notAfter, Before, Bool.or_eq_false_iff, decide_eq_false_iff_not,
    Bool.and_eq_false_iff]
  omega

namespace Change

variable {c : Change}

/-- The current object of a change, by the answer of the cache: none of a delete, else the cached
one, else the one that was observed. -/
inductive Stands (c : Change) (answer : Except LookupError (Option Object)) :
    Option Object → Prop
  | deleted (ht : c.type = .delete) : Stands c answer none
  | cached {o : Object} (ht : c.type ≠ .delete) (h : answer = .ok (some o)) :
    Stands c answer (some o)
  | observed (ht : c.type ≠ .delete) (h : answer = .ok none) : Stands c answer c.object

/-- A change that no sink is told: a create without a current object, or of one that does not tell
when it was created or was created before the anchor; and an update of which the two snapshots are
known and are the same but for ignored fields. -/
inductive PassedOver (c : Change) (anchor : Instant) (ignored : IgnoredFields) :
    Option Object → Prop
  | absent (ht : c.type = .create) : PassedOver c anchor ignored none
  | undated {o : Object} (ht : c.type = .create) (hd : o.metadata.creationTimestamp = none) :
    PassedOver c anchor ignored (some o)
  | older {o : Object} {created : Instant} (ht : c.type = .create)
    (hd : o.metadata.creationTimestamp = some created) (hb : created.Before anchor) :
    PassedOver c anchor ignored (some o)
  | irrelevant {old o : Object} (ht : c.type = .update) (hi : ignored.entries ≠ [])
    (hold : c.previous = some old) (halike : old.AlikeBut ignored o) :
    PassedOver c anchor ignored (some o)

/-- The namespace of a notice: that of the key, else that of the current object, else, if there is
none, that of the previous one. -/
def namespaceIn (c : Change) : Option String → Option Object → String
  | some ns, _ => ns
  | none, some o => o.metadata.namespaceName.getD ""
  | none, none => (c.previous.bind (·.metadata.namespaceName)).getD ""

/-- What a notice tells of a change, by the parts of its key and its current object. -/
structure Reports (c : Change) (ns : Option String) (name : String) (current : Option Object)
    (notice : Notice) : Prop where
  name : notice.name = name
  namespaceName : notice.namespaceName = c.namespaceIn ns current
  kind : notice.kind = c.subtype.getD c.kind
  apiVersion : notice.apiVersion = c.apiVersion
  label : (notice.severity, notice.reason) = classify c.type (c.subtype.getD c.kind)
  object : notice.object = current.map Object.toJson
  previous : notice.previous = if c.type = .update then c.previous.map Object.toJson else none

/-! ### The current object -/

theorem Stands.current {σ : Type u} {world : World σ} {s : σ} {current : Option Object}
    (h : c.Stands (world.lookup c.key s).1 current) :
    (c.current world.lookup s).1 = .ok current := by
  cases h with
  | deleted ht => simp [Change.current, ht]
  | cached ht h => exact Worker.current_of_lookup ht h
  | observed ht h => exact Worker.current_of_lookup ht h

/-- There is a current object, or none, unless the cache is asked and does not answer. -/
theorem exists_stands {answer : Except LookupError (Option Object)}
    (h : ¬ (c.type ≠ .delete ∧ ∃ e, answer = .error e)) : ∃ current, c.Stands answer current := by
  by_cases ht : c.type = .delete
  · exact ⟨none, .deleted ht⟩
  · rcases answer with e | _ | o
    · exact absurd ⟨ht, e, rfl⟩ h
    · exact ⟨c.object, .observed ht rfl⟩
    · exact ⟨some o, .cached ht rfl⟩

/-! ### What is passed over -/

variable {anchor : Instant} {ignored : IgnoredFields} {current : Option Object}

/-- A create is a replay unless its current object is dated and not older than the anchor. -/
theorem passedOver_of_replay (h : c.isReplay anchor current = true) :
    c.PassedOver anchor ignored current := by
  obtain ⟨ht, hs⟩ : c.type = .create ∧ createdSince anchor current = false := by
    simpa [isReplay] using h
  cases current with
  | none => exact .absent ht
  | some o =>
    cases hd : o.metadata.creationTimestamp with
    | none => exact .undated ht hd
    | some created =>
      refine .older ht hd (Instant.notAfter_eq_false_iff.1 ?_)
      simpa [createdSince, hd] using hs

theorem isIrrelevant_resolved_iff {w : Worker} {ns : Option String} {name : String} {o : Object}
    (ho : o.toJson.Ordered) (hold : ∀ old ∈ c.previous, old.toJson.Ordered) :
    w.isIrrelevant (c.resolved ns name (some o)) = true ↔
      c.type = .update ∧ w.kind.ignored.entries ≠ [] ∧
        ∃ old, c.previous = some old ∧ old.AlikeBut w.kind.ignored o := by
  by_cases ht : c.type = .update
  · cases hp : c.previous with
    | none => simp [Worker.isIrrelevant, resolved, ht, hp, isNoise]
    | some old =>
      have hempty : w.kind.ignored.isEmpty = false ↔ w.kind.ignored.entries ≠ [] := by
        rw [IgnoredFields.isEmpty, List.isEmpty_eq_false_iff]
      simp [Worker.isIrrelevant, resolved, ht, hp, isNoise_iff (hold old hp) ho, hempty,
        Object.AlikeBut]
  · simp [Worker.isIrrelevant, resolved, ht]

/-- A change is passed over if it is a replay, or shows nothing but ignored changes. -/
theorem passedOver_iff {w : Worker} (ns : Option String) (name : String)
    (hcur : ∀ o ∈ current, o.toJson.Ordered) (hold : ∀ old ∈ c.previous, old.toJson.Ordered) :
    c.PassedOver w.anchor w.kind.ignored current ↔
      c.isReplay w.anchor current = true ∨
        w.isIrrelevant (c.resolved ns name current) = true := by
  constructor
  · rintro (ht | ⟨ht, hd⟩ | ⟨ht, hd, hb⟩ | ⟨ht, hi, hp, halike⟩)
    · exact .inl (by simp [isReplay, ht, createdSince])
    · exact .inl (by simp [isReplay, ht, createdSince, hd])
    · exact .inl (by simp [isReplay, ht, createdSince, hd, Instant.notAfter_eq_false_iff.2 hb])
    · exact .inr ((isIrrelevant_resolved_iff (hcur _ rfl) hold).2 ⟨ht, hi, _, hp, halike⟩)
  · rintro (h | h)
    · exact passedOver_of_replay h
    · cases current with
      | none =>
        -- nothing is noise without a current object
        simp [Worker.isIrrelevant, isNoise, resolved] at h
      | some o =>
        obtain ⟨ht, hi, old, hp, halike⟩ :=
          (isIrrelevant_resolved_iff (hcur o rfl) hold).1 h
        exact .irrelevant ht hi hp halike

/-! ### What is told -/

theorem namespaceOf_eq (c : Change) (ns : Option String) (current : Option Object) :
    c.namespaceOf ns current = c.namespaceIn ns current := by
  cases ns with
  | some ns => rfl
  | none => cases current <;> rfl

theorem reports_notice (c : Change) (ns : Option String) (name : String)
    (current : Option Object) :
    c.Reports ns name current (c.resolved ns name current).notice where
  name := rfl
  namespaceName := c.namespaceOf_eq ns current
  kind := rfl
  apiVersion := rfl
  label := rfl
  object := rfl
  previous := rfl

end Change

namespace Worker

variable {σ : Type u}

/-- What is posted while a change is processed, in order. -/
def posted (w : Worker) (world : World σ) (c : Change) (s : σ) : List Request :=
  (w.process world.recording c (s, [])).2.2

/-- What was dispatched, by the notice that there was: nothing without a notice; else every sink was
given this notice, once and in order, and posted its request for it. -/
inductive Dispatches (w : Worker) (outcome : Outcome) (posted : List Request) :
    Option Notice → Prop
  | nothing (hn : outcome.notice? = none) (hg : outcome.given = []) (hp : posted = []) :
    Dispatches w outcome posted none
  | one {notice : Notice} {stamps : List Stamp} (hn : outcome.notice? = some notice)
    (hg : outcome.given = w.sinks.map (·, notice)) (hl : stamps.length = w.sinks.length)
    (hp : posted = requests notice w.sinks stamps) : Dispatches w outcome posted (some notice)

variable (w : Worker) (world : World σ) (c : Change) (s : σ)

/-- The sinks are given the one notice that processing came to, or nothing. -/
theorem dispatches : w.Dispatches (w.process world c s).1 (w.posted world c s)
    (w.process world c s).1.notice? := by
  rcases hr : c.resolve w.anchor world.lookup s with ⟨e | _ | r, t⟩
  · simp only [posted, process, c.resolve_recording, hr]
    exact .nothing rfl rfl rfl
  · simp only [posted, process, c.resolve_recording, hr]
    exact .nothing rfl rfl rfl
  · cases hi : w.isIrrelevant r with
    | true =>
      simp only [posted, process, c.resolve_recording, hr, hi, if_true]
      exact .nothing rfl rfl rfl
    | false =>
      obtain ⟨deliveries, stamps, hout, hgiven, hlength, hrun⟩ := w.exists_announced hr hi []
      rw [posted, hrun, hout]
      exact .one rfl hgiven hlength rfl

/-- Processing fails if the key is malformed. -/
theorem isFailed_of_parse {e : LookupError} (hk : Key.parse c.key = .error e) :
    (w.process world c s).1.isFailed = true := by
  simp [process, Change.resolve, hk, Outcome.isFailed]

/-- Processing fails if the cache is asked and does not answer. -/
theorem isFailed_of_lookup {ns : Option String} {name : String} {e : LookupError}
    (hk : Key.parse c.key = .ok (ns, name)) (ht : c.type ≠ .delete)
    (he : (world.lookup c.key s).1 = .error e) : (w.process world c s).1.isFailed = true := by
  have hc : (c.current world.lookup s).1 = .error e := by
    cases hct : c.type with
    | delete => exact absurd hct ht
    | create | update => simp [Change.current, hct, he, Except.map]
  cases hp : c.current world.lookup s with
  | mk found t =>
    obtain rfl : found = .error e := by rw [← hc, hp]
    simp [process, Change.resolve, hk, hp, Except.map, Outcome.isFailed]

/-- Processing fails iff the key is malformed, or the cache is asked and does not answer. -/
theorem isFailed_process_iff :
    (w.process world c s).1.isFailed = true ↔
      (∃ e, Key.parse c.key = .error e) ∨
        c.type ≠ .delete ∧ ∃ e, (world.lookup c.key s).1 = .error e := by
  rcases hk : Key.parse c.key with e | ⟨ns, name⟩
  · exact iff_of_true (w.isFailed_of_parse world c s hk) (.inl ⟨e, rfl⟩)
  · by_cases hl : c.type ≠ .delete ∧ ∃ e, (world.lookup c.key s).1 = .error e
    · obtain ⟨ht, e, he⟩ := hl
      exact iff_of_true (w.isFailed_of_lookup world c s hk ht he) (.inr ⟨ht, e, he⟩)
    · obtain ⟨current, hcur⟩ := Change.exists_stands hl
      rw [isFailed_of_current hk hcur.current]
      simp [hl]

/-- **One change from end to end.**  Processing a change fails iff its key is malformed or the
cache, asked about a create or an update, does not answer; then nothing is dispatched.  Otherwise
the change has a current object, or none: nothing is dispatched if it is passed over, and else
exactly one notice, which tells what the change, its key and its current object say. -/
theorem processed_end_to_end :
    ((w.process world c s).1.isFailed = true ↔
      (∃ e, Key.parse c.key = .error e) ∨
        c.type ≠ .delete ∧ ∃ e, (world.lookup c.key s).1 = .error e) ∧
    ((w.process world c s).1.isFailed = true →
      w.Dispatches (w.process world c s).1 (w.posted world c s) none) ∧
    ∀ ns name current, Key.parse c.key = .ok (ns, name) →
      c.Stands (world.lookup c.key s).1 current →
      (∀ o ∈ current, o.toJson.Ordered) → (∀ old ∈ c.previous, old.toJson.Ordered) →
      (c.PassedOver w.anchor w.kind.ignored current →
        w.Dispatches (w.process world c s).1 (w.posted world c s) none) ∧
      (¬ c.PassedOver w.anchor w.kind.ignored current →
        ∃ notice, c.Reports ns name current notice ∧
          w.Dispatches (w.process world c s).1 (w.posted world c s) (some notice)) := by
  have hdisp := w.dispatches world c s
  refine ⟨w.isFailed_process_iff world c s, fun hf => ?_,
    fun ns name current hk hcur ho hold => ?_⟩
  · cases hout : (w.process world c s).1 with
    | failed e =>
      rw [hout] at hdisp
      exact hdisp
    | replayed | irrelevant | announced =>
      rw [hout] at hf
      cases hf
  · rw [Change.passedOver_iff ns name ho hold]
    obtain ⟨hp, hr⟩ | ⟨hr, ⟨hp, hi⟩ | ⟨hp, hi⟩⟩ := process_cases (w := w) hk hcur.current
    · rw [hp] at hdisp ⊢
      exact ⟨fun _ => hdisp, fun hno => absurd (.inl hr) hno⟩
    · rw [hp] at hdisp ⊢
      exact ⟨fun _ => hdisp, fun hno => absurd (.inr hi) hno⟩
    · rw [hp] at hdisp
      refine ⟨fun hover => ?_, fun _ => ⟨_, c.reports_notice ns name current, hdisp⟩⟩
      rcases hover with h | h
      · rw [hr] at h
        cases h
      · rw [hi] at h
        cases h

/-- An update under a key without a namespace: the cached object is newer than the one that was
observed, tells the namespace, and differs from the predecessor in more than its time.  One of two
receivers does not answer. -/
theorem cached_settings_announced :
    let settings (mode time : String) : Object :=
      ⟨none, { name := "settings", namespaceName := "bar" },
        [("data", .object [("mode", .string mode), ("time", .string time)])]⟩
    let w : Worker := {
      kind := ⟨"ConfigMap", "", "v1", "configmaps", true, none, .ofPaths ["data.time"]⟩
      anchor := ⟨0, 0⟩
      sinks := [.scripted none, .webhook "http://receiver" "herald"] }
    let world : World Unit := {
      lookup := fun _ s => (.ok (some (settings "slow" "3")), s)
      stamp := fun s => (⟨"now", "id"⟩, s)
      post := fun _ s => (none, s) }
    let c : Change := ⟨"settings", .update, "ConfigMap", "v1", some (settings "slow" "2"),
      some (settings "fast" "1"), none⟩
    Key.parse c.key = .ok (none, "settings") ∧
      c.Stands (world.lookup c.key ()).1 (some (settings "slow" "3")) ∧
      (∀ o ∈ some (settings "slow" "3"), o.toJson.Ordered) ∧
      (∀ old ∈ c.previous, old.toJson.Ordered) ∧
      ¬ c.PassedOver w.anchor w.kind.ignored (some (settings "slow" "3")) ∧
      ∃ notice, c.Reports none "settings" (some (settings "slow" "3")) notice ∧
        notice.namespaceName = "bar" ∧
        w.Dispatches (w.process world c ()).1 (w.posted world c ()) (some notice) := by
  intro settings w world c
  have hk : Key.parse c.key = .ok (none, "settings") :=
    Key.parse_key (r := ⟨none, "settings"⟩) (by decide)
  have hs : c.Stands (world.lookup c.key ()).1 (some (settings "slow" "3")) :=
    .cached (by decide) rfl
  have ho : ∀ o ∈ some (settings "slow" "3"), o.toJson.Ordered := by decide +kernel
  have hold : ∀ old ∈ c.previous, old.toJson.Ordered := by decide +kernel
  have hnews : ¬ c.PassedOver w.anchor w.kind.ignored (some (settings "slow" "3")) := by
    rintro (_ | ⟨ht, -⟩ | ⟨ht, -, -⟩ | ⟨-, -, hp, halike⟩)
    · cases ht
    · cases ht
    · cases hp
      revert halike
      decide +kernel
  obtain ⟨-, -, hall⟩ := w.processed_end_to_end world c ()
  obtain ⟨notice, hreports, hdispatches⟩ := (hall none "settings" _ hk hs ho hold).2 hnews
  exact ⟨hk, hs, ho, hold, hnews, notice, hreports, hreports.namespaceName, hdispatches⟩

end Worker

end ClusterHerald
