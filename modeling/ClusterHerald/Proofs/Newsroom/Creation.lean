import ClusterHerald.Proofs.Newsroom.InStep
import ClusterHerald.Proofs.Newsroom.Update

/-!
# What becomes of a creation

The create of an object that is not older than the anchor is announced if the worker gets it.  The
worker comes to every key that is pending (`Newsroom.exists_attempt_of_drained`), but the create
may have been replaced by then, and what has replaced it is judged for itself: by
`Newsroom.judged_since_creation`, every attempt since announces its change exactly if that is news,
where an update counts as far as look-ups see its object.  An update that shows nothing but ignored
changes is no news, though nobody was told that the object exists
(`Newsroom.creation_replaced_by_noise`).
-/

namespace ClusterHerald

namespace Newsroom

universe u

variable {σ : Type u} {n : Newsroom σ} {s : State σ} {r : Ref} {a : Attempt}

/-- The sinks were given a notice. -/
def Attempt.Announced (a : Attempt) : Prop := a.outcome.notice?.isSome = true

/-- The change is news: a delete, the create of an object that is not older than the anchor, or an
update that changed something which is not ignored. -/
def Attempt.IsNews (n : Newsroom σ) (a : Attempt) : Prop :=
  match a.change.type with
  | .create => Change.createdSince n.worker.anchor a.change.object = true
  | .update => n.worker.kind.ignored.isEmpty = true ∨ ∀ old ∈ a.change.previous,
      ∀ o ∈ a.change.object, ¬ old.AlikeBut n.worker.kind.ignored o
  | .delete => True

/-- The object of an update is what look-ups see at `r`. -/
def Attempt.KeepsUp (r : Ref) (a : Attempt) : Prop :=
  a.change.type = .update → a.shown.objects.get? r = a.change.object

/-! ### Which attempts announce something -/

/-- What becomes of an update while the queue and the stores are in step: look-ups see its
predecessor, or its object. -/
theorem InStep.update (h : InStep r s) (hr : r.Plain) (ha : n.attempt? s = some a)
    (hk : a.key = r.key) (hu : a.change.type = .update) :
    ∃ old o current, a.change.previous = some old ∧ a.change.object = some o ∧
      a.shown.objects.get? r = some current ∧
      (a.outcome = .irrelevant ∧ n.PassesOver old current ∨
        a.Announces old current ∧ ¬ n.PassesOver old current) := by
  obtain ⟨hcurrent, -, -⟩ := h.attempt hr ha hk
  have hnd : a.change.type ≠ .delete := by rw [hu]; nofun
  obtain ⟨old, hold⟩ := Option.isSome_iff_exists.1 (hcurrent.proper.previous.1 hu)
  obtain ⟨o, ho, hdo⟩ := hcurrent.proper.object hnd
  have hdold : old.toJson.Ordered := hcurrent.proper.ordered old hold
  have hshown : a.shown = s.shown := (attempt?_eq_some.1 ha).2.1
  -- of either snapshot that look-ups see
  have verdict {current : Object} (hs : s.shown.objects.get? r = some current)
      (hd : current.toJson.Ordered) :
      a.outcome = .irrelevant ∧ n.PassesOver old current ∨
        a.Announces old current ∧ ¬ n.PassesOver old current :=
    verdict_of_update hr ha hcurrent.key hu hold
      (by rw [h.telling.shown.find?, hs, Option.some_or]) hdold hd
  rcases hcurrent.shown hnd with hs | hs
  · rw [hold] at hs
    exact ⟨old, o, old, hold, ho, hshown ▸ hs, verdict hs hdold⟩
  · rw [ho] at hs
    exact ⟨old, o, o, hold, ho, hshown ▸ hs, verdict hs hdo⟩

/-- A create is announced if its own object is not older than the anchor. -/
theorem InStep.announced_create (h : InStep r s) (hr : r.Plain) (ha : n.attempt? s = some a)
    (hk : a.key = r.key) (ht : a.change.type = .create) :
    a.Announced ↔ Change.createdSince n.worker.anchor a.change.object = true := by
  obtain ⟨hcurrent, hparse, hlookup⟩ := h.attempt hr ha hk
  have hnd : a.change.type ≠ .delete := by rw [ht]; nofun
  have hprevious : a.change.previous = none := by
    rw [← Option.not_isSome_iff_eq_none, ← hcurrent.proper.previous, ht]
    nofun
  -- look-ups see the object, or nothing
  have hfound : (s.shown.objects.get? r).or a.change.object = a.change.object := by
    rcases hcurrent.shown hnd with hs | hs
    · rw [hs, hprevious, Option.none_or]
    · rw [hs, Option.or_self]
  rw [Attempt.Announced, (attempt?_eq_some.1 ha).2.2]
  exact (Worker.process_create ht hparse hlookup).trans (by rw [hfound])

/-- An update whose object look-ups see is announced if its snapshots differ. -/
theorem InStep.announced_update (h : InStep r s) (hr : r.Plain) (ha : n.attempt? s = some a)
    (hk : a.key = r.key) (ht : a.change.type = .update)
    (hseen : a.shown.objects.get? r = a.change.object) :
    a.Announced ↔ n.worker.kind.ignored.isEmpty = true ∨ ∀ old ∈ a.change.previous,
      ∀ o ∈ a.change.object, ¬ old.AlikeBut n.worker.kind.ignored o := by
  obtain ⟨old, o, current, hold, ho, hshown, hverdict⟩ := h.update hr ha hk ht
  obtain rfl : current = o := Option.some.inj (hshown.symm.trans (hseen.trans ho))
  have hiff : a.Announced ↔ ¬ n.PassesOver old current := by
    rcases hverdict with ⟨hirr, hover⟩ | ⟨⟨notice, hn, -⟩, hover⟩
    · refine iff_of_false (fun hann => ?_) fun h => h hover
      rw [Attempt.Announced, hirr] at hann
      cases hann
    · refine iff_of_true ?_ hover
      rw [Attempt.Announced, hn]
      rfl
  have hnot : ¬ n.PassesOver old current ↔
      n.worker.kind.ignored.isEmpty = true ∨ ¬ old.AlikeBut n.worker.kind.ignored current := by
    rw [PassesOver, Decidable.not_and_iff_or_not, Bool.not_eq_false]
  rw [hiff, hnot, hold, ho]
  simp

theorem InStep.announced_iff (h : InStep r s) (hr : r.Plain) (ha : n.attempt? s = some a)
    (hk : a.key = r.key) (hseen : a.KeepsUp r) : a.Announced ↔ a.IsNews n := by
  unfold Attempt.IsNews
  cases ht : a.change.type with
  | create => exact h.announced_create hr ha hk ht
  | update => exact h.announced_update hr ha hk ht (hseen ht)
  | delete =>
    obtain ⟨-, hparse, -⟩ := h.attempt hr ha hk
    refine iff_of_true ?_ trivial
    rw [Attempt.Announced, (attempt?_eq_some.1 ha).2.2]
    exact Worker.process_delete ht hparse

/-- Throughout a run it is the news that is announced. -/
theorem InStep.announced_iff_of_mem (h : InStep r s) (hr : r.Plain) {later : List Action}
    (hpermitted : Obeys n.step (Permitted r) s later) (hprompt : Obeys n.step Prompt s later)
    (hsame : Obeys n.step (Unaltered r) s later) (ha : a ∈ n.attempts s later)
    (hk : a.key = r.key) (hseen : a.KeepsUp r) : a.Announced ↔ a.IsNews n := by
  induction later generalizing s with
  | nil => cases ha
  | cons b later ih =>
    rcases mem_attempts_cons.1 ha with hmade | ha
    · exact h.announced_iff hr (made_eq_some hmade).2 hk hseen
    · exact ih (inStep_step h hr hpermitted.1 hprompt.1 hsame.1) hpermitted.2 hprompt.2 hsame.2 ha

/-! ### That there is an attempt -/

/-- If a key has a next change at first and none in the end, the worker has judged a change of it. -/
theorem exists_attempt_of_drained (h : Shift.Steady s.shift) {key : String} {later : List Action}
    {c : Change} (hn : s.shift.Next key c)
    (hdrained : ∀ d, ¬ (n.run s later).shift.Next key d) : ∃ a ∈ n.attempts s later, a.key = key := by
  -- the first action after which the key has no next change is an attempt at it
  induction later generalizing s c with
  | nil => exact absurd hn (hdrained c)
  | cons b later ih =>
    have goes {d : Change} (hd : (n.step s b).shift.Next key d) :
        ∃ a ∈ n.attempts s (b :: later), a.key = key := by
      obtain ⟨a, ha, hk⟩ := ih (steady_step h b) hd hdrained
      exact ⟨a, mem_attempts_cons.2 (.inr ha), hk⟩
    rcases next_step (n := n) h hn b with
      hkept | ⟨a, hmade, hk, -⟩ | ⟨_, _, _, d, -, -, -, -, hnew⟩
    · exact goes hkept
    · exact ⟨a, mem_attempts_cons.2 (.inl hmade), hk⟩
    · exact goes hnew

/-- A change that was just enqueued gives its key a next change. -/
theorem exists_next_observe (h : Shift.Steady s.shift) (hfree : s.shift.stage.key? = none)
    {e : WatchEvent} {changes : List Change} {scene : Scene}
    (ht : s.scene.take e = .ok (changes, scene)) {c : Change} (hc : c ∈ changes) :
    ∃ d, (n.step s (.observe e)).shift.Next c.key d := by
  obtain ⟨hpending, hstage, -⟩ := Shift.run_adds.{u} n.toShift h.isOpen changes c.key
  rw [step_observe ht]
  cases hr : Shift.reported changes c.key with
  | none => exact absurd rfl (Shift.reported_eq_none_iff.1 hr c hc)
  | some d =>
    rw [hr, Option.some_or] at hpending
    refine ⟨d, .inl ⟨hpending, ?_⟩⟩
    rw [hstage, hfree]
    nofun

/-- A key that is neither pending nor in hand has no next change. -/
theorem not_next (h : Shift.Steady s.shift) {key : String}
    (hpending : s.shift.system.queue.pending.get? key = none)
    (hinHand : s.shift.system.queue.inHand.contains key = false) (c : Change) :
    ¬ s.shift.Next key c := by
  rintro (⟨hp, -⟩ | ⟨x, hx, -⟩)
  · rw [Shift.State.pending?, hpending] at hp
    cases hp
  · have hin := (h.inHand key).2 (by rw [hx]; rfl)
    rw [hinHand] at hin
    cases hin

/-! ### Creations -/

/-- **A creation is announced, or what has replaced it is judged.**  Let the turns of a worker be
whole, let the watch go on in any order between them, with events that tell the object at `r` from
all others and show a version that is stored already as it is stored, and let an event report the
create of this object, which is not older than the anchor.  Once nothing of its key is pending or in
hand, the worker has come to the key.  It announces the create if it gets it; and, updates that
look-ups do not see yet apart, it announces a change of the key that it gets exactly if the change
is news. -/
theorem judged_since_creation (n : Newsroom σ) (outside : σ) (hr : r.Plain)
    {before later : List Action} {e : WatchEvent} {changes : List Change} {scene : Scene}
    {c : Change}
    (hrun : Obeys n.step (Permitted r) (n.start outside) (before ++ .observe e :: later))
    (hprompt : Obeys n.step Prompt (n.start outside) (before ++ .observe e :: later))
    (hsame : Obeys n.step (Unaltered r) (n.start outside) (before ++ .observe e :: later))
    (ht : (n.run (n.start outside) before).scene.take e = .ok (changes, scene))
    (hc : c ∈ changes) (hkey : c.key = r.key) (htype : c.type = .create)
    (hsince : Change.createdSince n.worker.anchor c.object = true)
    (hpending : (n.run (n.start outside)
      (before ++ .observe e :: later)).shift.system.queue.pending.get? r.key = none)
    (hinHand : (n.run (n.start outside)
      (before ++ .observe e :: later)).shift.system.queue.inHand.contains r.key = false) :
    let since := n.attempts (n.run (n.start outside) (before ++ [.observe e])) later
    (∃ a ∈ since, a.key = r.key) ∧
      ∀ a ∈ since, a.key = r.key →
        (a.change = c → a.Announced) ∧ (a.KeepsUp r → (a.Announced ↔ a.IsNews n)) := by
  intro since
  obtain ⟨hbefore, hobserve, hlater⟩ := Obeys.append_iff.1 hrun
  obtain ⟨hbefore', hobserve', hlater'⟩ := Obeys.append_iff.1 hprompt
  obtain ⟨hbefore'', hobserve'', hlater''⟩ := Obeys.append_iff.1 hsame
  have hsteady : Shift.Steady (n.run (n.start outside) before).shift :=
    steady_run Shift.steady_start before
  have hend : Shift.Steady (n.run (n.start outside) (before ++ .observe e :: later)).shift :=
    steady_run Shift.steady_start _
  have hstep : InStep r (n.step (n.run (n.start outside) before) (.observe e)) :=
    inStep_step (inStep_run (inStep_start n outside r) hr hbefore hbefore' hbefore'') hr hobserve
      hobserve' hobserve''
  have hstart : n.run (n.start outside) (before ++ [.observe e]) =
      n.step (n.run (n.start outside) before) (.observe e) := run_append before [.observe e]
  have hjudged : ∀ a ∈ since, a.key = r.key → a.KeepsUp r → (a.Announced ↔ a.IsNews n) := by
    intro a ha hk hseen
    simp only [since, hstart] at ha
    exact hstep.announced_iff_of_mem hr hlater hlater' hlater'' ha hk hseen
  refine ⟨?_, fun a ha hk => ⟨fun hac => ?_, hjudged a ha hk⟩⟩
  · obtain ⟨d, hd⟩ := exists_next_observe (n := n) hsteady hobserve' ht hc
    have hdrained := not_next hend hpending hinHand
    rw [run_append, run_cons] at hdrained
    simp only [since, hstart]
    exact exists_attempt_of_drained (steady_step hsteady _) (hkey ▸ hd) hdrained
  · have hseen : a.KeepsUp r := by
      intro hu
      rw [hac, htype] at hu
      cases hu
    rw [hjudged a ha hk hseen, Attempt.IsNews, hac, htype]
    exact hsince

/-- Settings that were created at the anchor. -/
def newSettings (version mode timestamp : String) : Object :=
  let o := settings version mode timestamp
  { o with metadata := { o.metadata with creationTimestamp := some ⟨0, 0⟩ } }

/-- A first listing shows nothing. -/
def emptyListing : List Action :=
  [.observe .listing, .observe .complete, .apply]

instance (a : Attempt) : Decidable a.Announced :=
  inferInstanceAs (Decidable (_ = true))

/-- The create is replaced by a change of the mode, and that is announced. -/
theorem creation_replaced_by_change :
    let n := settingsRoom
    let r := settingsRef
    let v := newSettings "1" "fast" "1"
    let c : Change := ⟨"bar/settings", .create, "ConfigMap", "v1", some v, none, none⟩
    let later : List Action :=
      [.apply, .observe (.applied (newSettings "2" "slow" "1")), .apply] ++ turn
    let actions := emptyListing ++ .observe (.applied v) :: later
    let since := n.attempts (n.run (n.start none) (emptyListing ++ [.observe (.applied v)])) later
    r.Plain ∧ Obeys n.step (Permitted r) (n.start none) actions ∧
      Obeys n.step Prompt (n.start none) actions ∧
      Obeys n.step (Unaltered r) (n.start none) actions ∧
      c.key = r.key ∧ c.type = .create ∧
      Change.createdSince n.worker.anchor c.object = true ∧
      (n.run (n.start none) actions).shift.system.queue.pending.get? r.key = none ∧
      (n.run (n.start none) actions).shift.system.queue.inHand.contains r.key = false ∧
      (∃ changes scene,
        (n.run (n.start none) emptyListing).scene.take (.applied v) = .ok (changes, scene) ∧
          c ∈ changes) ∧
      (∃ a ∈ since, a.key = r.key) ∧
      ∀ a ∈ since, a.key = r.key →
        (a.change = c → a.Announced) ∧ (a.KeepsUp r → (a.Announced ↔ a.IsNews n)) := by
  intro n r v c later actions since
  have hr : r.Plain := by decide
  have hrun : Obeys n.step (Permitted r) (n.start none) actions := by decide +kernel
  have hprompt : Obeys n.step Prompt (n.start none) actions := by decide +kernel
  have hsame : Obeys n.step (Unaltered r) (n.start none) actions :=
    obeys_unaltered (by simp [actions, later, emptyListing, turn])
  have hsince : Change.createdSince n.worker.anchor c.object = true := by decide +kernel
  have hpending : (n.run (n.start none) actions).shift.system.queue.pending.get? r.key = none := by
    have hhas : (n.run (n.start none) actions).shift.system.queue.pending.has r.key = false := by
      decide +kernel
    exact Table.has_eq_false_iff.1 hhas
  have hinHand : (n.run (n.start none) actions).shift.system.queue.inHand.contains r.key = false := by
    decide +kernel
  have ht : (n.run (n.start none) emptyListing).scene.take (.applied v) =
      .ok ([c], ⟨(n.run (n.start none) emptyListing).scene.observer,
        { (n.run (n.start none) emptyListing).scene.store with
          objects := (n.run (n.start none) emptyListing).scene.store.objects.insert r v }⟩) := by
    exact (Scene.take_applied rfl hr).trans rfl
  exact ⟨hr, hrun, hprompt, hsame, rfl, rfl, hsince, hpending, hinHand,
    ⟨_, _, ht, List.mem_cons_self⟩,
    judged_since_creation n none hr hrun hprompt hsame ht List.mem_cons_self rfl rfl hsince hpending
      hinHand⟩

/-- Nothing is ready, pending, in hand or scheduled. -/
def Drained (q : Queue (Queue.Numbered Change)) : Prop :=
  q.ready = [] ∧ q.pending.isEmpty = true ∧ q.inHand.isEmpty = true ∧ q.scheduled.isEmpty = true

instance (q : Queue (Queue.Numbered Change)) : Decidable (Drained q) :=
  inferInstanceAs (Decidable (_ ∧ _ ∧ _ ∧ _))

/-- The create is replaced by a change of the timestamp, and nothing is announced, though the queue
is empty in the end. -/
theorem creation_replaced_by_noise :
    ¬ ∀ (n : Newsroom (Option MemoryCache)) (outside : Option MemoryCache) (r : Ref)
      (before later : List Action) (e : WatchEvent) (changes : List Change) (scene : Scene)
      (c : Change), r.Plain →
      Obeys n.step (Permitted r) (n.start outside) (before ++ .observe e :: later) →
      Obeys n.step Prompt (n.start outside) (before ++ .observe e :: later) →
      Obeys n.step (Unaltered r) (n.start outside) (before ++ .observe e :: later) →
      (n.run (n.start outside) before).scene.take e = .ok (changes, scene) → c ∈ changes →
      c.key = r.key → c.type = .create →
      Change.createdSince n.worker.anchor c.object = true →
      Drained (n.run (n.start outside) (before ++ .observe e :: later)).shift.system.queue →
      ∃ a ∈ n.attempts (n.run (n.start outside) (before ++ [.observe e])) later,
        a.key = r.key ∧ a.Announced := by
  intro h
  let v := newSettings "1" "fast" "1"
  let later : List Action :=
    [.apply, .observe (.applied (newSettings "2" "fast" "2")), .apply] ++ turn
  have hr : settingsRef.Plain := by decide
  have hquiet : ∀ a ∈ settingsRoom.attempts
      (settingsRoom.run (settingsRoom.start none) (emptyListing ++ [.observe (.applied v)])) later,
      ¬ a.Announced := by decide +kernel
  obtain ⟨a, ha, -, hann⟩ := h settingsRoom none settingsRef emptyListing later (.applied v) _ _
    ⟨"bar/settings", .create, "ConfigMap", "v1", some v, none, none⟩ hr (by decide +kernel)
    (by decide +kernel) (obeys_unaltered (by simp [later, emptyListing, turn]))
    (Scene.take_applied rfl hr) List.mem_cons_self rfl rfl (by decide +kernel) (by decide +kernel)
  exact hquiet a ha hann

end Newsroom

end ClusterHerald
