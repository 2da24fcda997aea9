import ClusterHerald.Proofs.Newsroom.Update

/-!
# Updates that replace each other

The queue keeps the newest change of a key only.  When an object is updated several times before
the worker comes to it, the worker gets the last update, with the version before it as its
predecessor (`Due`), and judges these two (`Newsroom.series_judged_by_last_two`).  What the updates
before it have changed is not looked at any more: `Newsroom.change_replaced_by_noise`.
-/

namespace ClusterHerald

namespace Newsroom

universe u

variable {σ : Type u} {n : Newsroom σ} {s : State σ} {r : Ref} {old v : Object}

/-- Versions of an object that live events show, each applied before the next event. -/
def shows (versions : List Object) : List Action :=
  versions.flatMap fun v => [.observe (.applied v), .apply]

/-- The action shows nothing of the object at `r`, and no listing. -/
def Spares (r : Ref) : Action → Prop
  | .observe (.applied o) | .observe (.deleted o) =>
    ∃ r', o.ref = .ok r' ∧ r' ≠ r ∧ o.key? ≠ some r.key
  | .observe (.listing) | .observe (.listed _) | .observe .complete => False
  | .apply | .take | .judge | .report | .finish | .fire _ => True

instance (r : Ref) : DecidablePred (Spares r)
  | .observe (.applied o) | .observe (.deleted o) => decidableExistsOk o.ref
  | .observe (.listing) | .observe (.listed _) | .observe .complete => isFalse id
  | .apply | .take | .judge | .report | .finish | .fire _ => isTrue trivial

/-- An update of the object at `r` is next, and its new version is stored. -/
structure Due (r : Ref) (old v : Object) (s : State σ) : Prop where
  steady : Shift.Steady s.shift
  next : ∃ c, s.shift.Next r.key c ∧ c.key = r.key ∧ c.type = .update ∧ c.previous = some old ∧
    c.object = some v
  shown : s.shown.objects.get? r = some v
  stored : s.scene.store.objects.get? r = some v

/-! ### A series of updates -/

theorem shows_cons (v : Object) (versions : List Object) :
    shows (v :: versions) = [.observe (.applied v), .apply] ++ shows versions := rfl

/-- A live event makes the update from the stored version due, unless its key is in hand. -/
theorem due_of_applied (h : Shift.Steady s.shift) (hfree : s.shift.stage.key? ≠ some r.key)
    (hr : r.Plain) (hstored : s.scene.store.objects.get? r = some old) (hv : v.ref = .ok r) :
    Due r old v (n.run s [.observe (.applied v), .apply]) ∧
      (n.run s [.observe (.applied v), .apply]).shift.stage = s.shift.stage := by
  have hfind : s.scene.store.objects.find? r = some old := by
    simp only [Objects.find?, hstored]
  have ht := Scene.take_applied (s := s.scene) hv hr
  rw [hfind] at ht
  have hnew : (s.scene.store.objects.insert r v).get? r = some v := by
    rw [Objects.get?_insert, if_pos rfl]
  have hsteady := steady_run (n := n) h [.observe (.applied v), .apply]
  let f? : Option Finding := some ⟨.update, v, some old⟩
  obtain ⟨hpending, hstage, -⟩ := Shift.run_adds.{u} n.toShift h.isOpen
    (f?.toList.map (s.scene.observer.changeAt · r.key)) r.key
  rw [reported_finding?] at hpending
  rw [run_cons, step_observe ht] at hsteady ⊢
  have hfree' : (n.toShift.run s.shift (Shift.adds.{u}
      (f?.toList.map (s.scene.observer.changeAt · r.key)))).stage.key? ≠ some r.key := by
    rw [hstage]
    exact hfree
  exact ⟨⟨hsteady, ⟨s.scene.observer.changeAt ⟨.update, v, some old⟩ r.key,
    .inl ⟨hpending, hfree'⟩, rfl, rfl, rfl, rfl⟩, hnew, hnew⟩, hstage⟩

/-- After a series of updates the last one is due. -/
theorem due_of_shows (h : Shift.Steady s.shift) (hfree : s.shift.stage.key? ≠ some r.key)
    (hr : r.Plain) {earlier : List Object} {v₀ : Object}
    (hstored : s.scene.store.objects.get? r = some v₀)
    (href : ∀ w ∈ earlier ++ [v], w.ref = .ok r) :
    Due r (earlier.getLastD v₀) v (n.run s (shows (earlier ++ [v]))) := by
  -- a version that is shown is the stored one, and so the predecessor, when the next is shown
  induction earlier generalizing s v₀ with
  | nil => exact (due_of_applied h hfree hr hstored (href v List.mem_cons_self)).1
  | cons w earlier ih =>
    obtain ⟨hw, hstage⟩ := due_of_applied (n := n) h hfree hr hstored (href w List.mem_cons_self)
    rw [List.cons_append, shows_cons, run_append, List.getLastD_cons]
    exact ih hw.steady (hstage ▸ hfree) hw.stored fun x hx => href x (List.mem_cons_of_mem w hx)

/-! ### Until the worker comes to it -/

theorem Spares.object {e : WatchEvent} (h : Spares r (.observe e)) :
    ∃ o r', e.object? = some o ∧ o.ref = .ok r' ∧ r' ≠ r ∧ o.key? ≠ some r.key := by
  cases e with
  | listing | listed o | complete => exact h.elim
  | applied o | deleted o =>
    obtain ⟨r', ho⟩ := h
    exact ⟨o, r', rfl, ho⟩

/-- An event that is spared reports nothing of the key, and leaves what is stored at `r`. -/
theorem Spares.take {e : WatchEvent} (h : Spares r (.observe e)) {c : Scene}
    {changes : List Change} {scene : Scene} (ht : c.take e = .ok (changes, scene)) :
    (∀ d ∈ changes, d.key ≠ r.key) ∧ scene.store.objects.get? r = c.store.objects.get? r := by
  obtain ⟨o, r', he, ho, hne, hkey⟩ := h.object
  refine ⟨fun d hd hk => hkey (hk ▸ Scene.key_of_take ht he d hd), ?_⟩
  obtain ⟨hobjects, -⟩ | ⟨hobjects, -⟩ | ⟨hobjects, -⟩ := Scene.store_of_take ht he ho
  · rw [hobjects]
  · rw [hobjects, Objects.get?_insert, if_neg hne.symm]
  · rw [hobjects, Objects.get?_erase, if_neg hne.symm]

/-- A due update stays so until the worker judges it. -/
theorem Due.step (h : Due r old v s) {b : Action} (hb : Spares r b)
    (hmade : ∀ a ∈ n.made s b, a.key ≠ r.key) : Due r old v (n.step s b) := by
  obtain ⟨c, hnext, hc⟩ := h.next
  have hnext : (n.step s b).shift.Next r.key c := by
    rcases next_step (n := n) h.steady hnext b with
      hkept | ⟨a, ha, hk, -⟩ | ⟨e, _, _, d, rfl, ht, hd, hk, -⟩
    · exact hkept
    · exact absurd hk (hmade a ha)
    · exact absurd hk ((hb.take ht).1 d hd)
  suffices (n.step s b).shown.objects.get? r = some v ∧
      (n.step s b).scene.store.objects.get? r = some v from
    ⟨steady_step h.steady b, ⟨c, hnext, hc⟩, this.1, this.2⟩
  cases b with
  | observe e =>
    cases ht : s.scene.take e with
    | error =>
      rw [step_observe_of_error ht]
      exact ⟨h.shown, h.stored⟩
    | ok taken =>
      rw [step_observe ht]
      exact ⟨h.stored, (hb.take ht).2.trans h.stored⟩
  | apply => exact ⟨h.stored, h.stored⟩
  | take | judge | report | finish | fire place => exact ⟨h.shown, h.stored⟩

theorem Due.run (h : Due r old v s) {later : List Action} (hlater : ∀ b ∈ later, Spares r b)
    (hnext : ∀ a ∈ n.attempts s later, a.key ≠ r.key) : Due r old v (n.run s later) := by
  induction later generalizing s with
  | nil => exact h
  | cons b later ih =>
    have hb : Due r old v (n.step s b) := h.step (hlater b List.mem_cons_self)
      fun a ha => hnext a (mem_attempts_cons.2 (.inl ha))
    exact ih hb (fun x hx => hlater x (List.mem_cons_of_mem b hx))
      fun a ha => hnext a (mem_attempts_cons.2 (.inr ha))

/-- The worker judges a due update by its two versions. -/
theorem Due.verdict (h : Due r old v s) (hr : r.Plain) (hold : old.toJson.Ordered)
    (hv : v.toJson.Ordered) {a : Attempt} (ha : n.attempt? s = some a) (hk : a.key = r.key) :
    a.outcome = .irrelevant ∧ n.PassesOver old v ∨
      a.Announces old v ∧ ¬ n.PassesOver old v := by
  obtain ⟨c, hnext, hkey, hu, hprevious, -⟩ := h.next
  obtain rfl : a.change = c := attempt?_of_next hnext ha hk
  have hfind : s.shown.objects.find? r = some v := by
    simp only [Objects.find?, h.shown]
  exact verdict_of_update hr ha hkey hu hprevious (by rw [hfind, Option.some_or]) hold hv

/-- **Of a series of updates the last one alone is judged.**  Let a kind have ignored fields.  After
any run of a watch and a worker, while a key is not in hand, let live events show versions of its
stored object, one after the other.  The worker comes to the key, whatever else happens in between;
and when it judges a change of the key next, it announces the last version with the one before it if
these two differ but for what is ignored, and passes the update over if they do not. -/
theorem series_judged_by_last_two (n : Newsroom σ) (outside : σ) (hr : r.Plain)
    (hignored : n.worker.kind.ignored.isEmpty = false) {before later : List Action}
    {v₀ : Object} {earlier : List Object}
    (hfree : (n.run (n.start outside) before).shift.stage.key? ≠ some r.key)
    (hstored : (n.run (n.start outside) before).scene.store.objects.get? r = some v₀)
    (href : ∀ w ∈ earlier ++ [v], w.ref = .ok r)
    (hd : ∀ w ∈ v₀ :: (earlier ++ [v]), w.toJson.Ordered)
    (hlater : ∀ b ∈ later, Spares r b)
    (hnext : ∀ a ∈ n.attempts (n.run (n.start outside) (before ++ shows (earlier ++ [v]))) later,
      a.key ≠ r.key) :
    let s := n.run (n.start outside) (before ++ shows (earlier ++ [v]) ++ later)
    let old := earlier.getLastD v₀
    n.Reaches s r.key ∧
      ∀ a ∈ n.attempt? s, a.key = r.key →
        (a.Announces old v ↔ ¬ old.AlikeBut n.worker.kind.ignored v) ∧
          (a.outcome = .irrelevant ↔ old.AlikeBut n.worker.kind.ignored v) := by
  intro s old
  have hsteady : Shift.Steady (n.run (n.start outside) before).shift :=
    steady_run Shift.steady_start before
  have hdue : Due r old v s := by
    simp only [s, run_append] at hnext ⊢
    exact (due_of_shows hsteady hfree hr hstored href).run hlater hnext
  have hold : old.toJson.Ordered := by
    have hmem : old ∈ v₀ :: earlier := List.getLastD_mem_cons
    exact hd old (List.mem_append_left [v] hmem)
  have hv : v.toJson.Ordered := hd v (by simp)
  obtain ⟨c, hc, -⟩ := hdue.next
  refine ⟨reaches_of_next hdue.steady hc, fun a ha hk => ?_⟩
  rcases hdue.verdict hr hold hv ha hk with ⟨hirr, hover⟩ | ⟨hann, hover⟩
  · have hnot : ¬ a.Announces old v := fun h => h.ne_irrelevant hirr
    exact ⟨iff_of_false hnot fun h => h hover.2, iff_of_true hirr hover.2⟩
  · have hne : ¬ old.AlikeBut n.worker.kind.ignored v := fun h => hover ⟨hignored, h⟩
    exact ⟨iff_of_true hann hne, iff_of_false hann.ne_irrelevant hne⟩

/-- Other settings are created, which the worker has not come to. -/
def otherSettings : List Action :=
  [.observe (.applied ⟨none, { name := "other", namespaceName := "bar" }, []⟩), .apply]

/-- The timestamp changes and then the mode.  The worker first takes the other settings, and
announces the change of the mode. -/
theorem change_after_noise_announced :
    let n := settingsRoom
    let r := settingsRef
    let v₀ := settings "1" "fast" "1"
    let earlier := [settings "2" "fast" "2"]
    let v := settings "3" "slow" "2"
    let before := listedSettings ++ otherSettings
    let later : List Action := turn ++ [.take]
    let s := n.run (n.start none) (before ++ shows (earlier ++ [v]) ++ later)
    r.Plain ∧ n.worker.kind.ignored.isEmpty = false ∧
      (n.run (n.start none) before).shift.stage.key? ≠ some r.key ∧
      (n.run (n.start none) before).scene.store.objects.get? r = some v₀ ∧
      (∀ w ∈ earlier ++ [v], w.ref = .ok r) ∧
      (∀ w ∈ v₀ :: (earlier ++ [v]), w.toJson.Ordered) ∧ (∀ b ∈ later, Spares r b) ∧
      (∀ a ∈ n.attempts (n.run (n.start none) (before ++ shows (earlier ++ [v]))) later,
        a.key ≠ r.key) ∧
      (n.attempt? s).isSome = true ∧ n.Reaches s r.key ∧
      ∀ a ∈ n.attempt? s, a.key = r.key →
        (a.Announces (earlier.getLastD v₀) v ↔
            ¬ (earlier.getLastD v₀).AlikeBut n.worker.kind.ignored v) ∧
          (a.outcome = .irrelevant ↔
            (earlier.getLastD v₀).AlikeBut n.worker.kind.ignored v) := by
  intro n r v₀ earlier v before later s
  have hr : r.Plain := by decide
  have hignored : n.worker.kind.ignored.isEmpty = false := by decide +kernel
  have hfree : (n.run (n.start none) before).shift.stage.key? ≠ some r.key := by decide +kernel
  have hstored : (n.run (n.start none) before).scene.store.objects.get? r = some v₀ := rfl
  have href : ∀ w ∈ earlier ++ [v], w.ref = .ok r := by decide +kernel
  have hd : ∀ w ∈ v₀ :: (earlier ++ [v]), w.toJson.Ordered := by decide +kernel
  have hlater : ∀ b ∈ later, Spares r b := by decide
  have hnext : ∀ a ∈ n.attempts
      (n.run (n.start none) (before ++ shows (earlier ++ [v]))) later, a.key ≠ r.key := by
    decide +kernel
  have hsome : (n.attempt? s).isSome = true := by decide +kernel
  exact ⟨hr, hignored, hfree, hstored, href, hd, hlater, hnext, hsome,
    series_judged_by_last_two n none hr hignored hfree hstored href hd hlater hnext⟩

/-- The mode changes and then the timestamp, and nothing is announced: the first update is
replaced by the second one, which is noise. -/
theorem change_replaced_by_noise :
    ¬ ∀ (n : Newsroom (Option MemoryCache)) (outside : Option MemoryCache) (r : Ref)
      (before : List Action) (v₀ : Object) (earlier : List Object) (v : Object), r.Plain →
      n.worker.kind.ignored.isEmpty = false →
      (n.run (n.start outside) before).scene.store.objects.get? r = some v₀ →
      (n.run (n.start outside) before).shift.pending? r.key = none →
      (n.run (n.start outside) before).shift.stage.key? ≠ some r.key →
      (n.run (n.start outside) before).shift.system.queue.scheduled.get? r.key = none →
      (∀ w ∈ earlier ++ [v], w.ref = .ok r) → (∀ w ∈ v₀ :: (earlier ++ [v]), w.toJson.Ordered) →
      ¬ v₀.AlikeBut n.worker.kind.ignored v →
      ∀ a ∈ n.attempt? (n.run (n.start outside) (before ++ shows (earlier ++ [v]) ++ [.take])),
        a.key = r.key → a.outcome.notice?.isSome = true := by
  intro h
  let s := settingsRoom.run (settingsRoom.start none)
    (listedSettings ++ shows [settings "2" "slow" "1", settings "3" "slow" "2"] ++ [.take])
  have hsome : (settingsRoom.attempt? s).isSome = true := by decide +kernel
  have hall : ∀ a ∈ settingsRoom.attempt? s,
      a.key = settingsRef.key ∧ a.outcome = .irrelevant := by decide +kernel
  obtain ⟨a, ha⟩ := Option.isSome_iff_exists.1 hsome
  obtain ⟨hk, hirr⟩ := hall a ha
  have hnotice := h settingsRoom none settingsRef listedSettings (settings "1" "fast" "1")
    [settings "2" "slow" "1"] (settings "3" "slow" "2") (by decide) (by decide +kernel) rfl
    rfl (by decide +kernel) (by decide +kernel) (by decide +kernel)
    (by decide +kernel) (by decide +kernel) a ha hk
  rw [hirr] at hnotice
  cases hnotice

end Newsroom

end ClusterHerald
