import ClusterHerald.Proofs.Newsroom.Telling

/-!
# The pending change and the stores

The store that look-ups see lags behind the queue: an event is applied only after its changes are
enqueued, and the objects of a listing are stored only when the listing is complete.  Yet as long as
nothing happens within a turn of the worker (`Prompt`), it never sees anything but a snapshot of the
change at hand: while a change of an object is pending, what is stored of the object is the
predecessor in the change, or the object in the change (`Current`).

This holds as long as the watch keeps to its phases and tells the object from all others
(`Permitted`), and shows a version with one content only (`Unaltered`).  `InStep` is the invariant
and `inStep_run` its run lemma.
-/

namespace ClusterHerald

/-- An event about another object changes nothing at `r`. -/
theorem Scene.tells_take {s s' : Scene} {e : WatchEvent} {changes : List Change} {o : Object}
    {r : Ref} (h : s.take e = .ok (changes, s')) (he : e.object? = some o) (ha : o.Apart r)
    (hobjects : s.store.objects.Tells r) (hlisted : s.store.listed.Tells r) :
    s'.store.objects.Tells r ∧ s'.store.listed.Tells r ∧
      s'.store.objects.get? r = s.store.objects.get? r ∧
      s'.store.listed.get? r = s.store.listed.get? r := by
  obtain ⟨r', ho, hne, -⟩ := id ha
  obtain ⟨hos, hls, -⟩ | ⟨hos, hls, -⟩ | ⟨hos, hls, -⟩ := store_of_take h he ho
  · rw [hos, hls]
    obtain ⟨ht, hget⟩ := hlisted.insert_apart ho ha
    exact ⟨hobjects, ht, rfl, hget⟩
  · rw [hos, hls]
    obtain ⟨ht, hget⟩ := hobjects.insert_apart ho ha
    exact ⟨ht, hlisted, hget, rfl⟩
  · rw [hos, hls, Objects.get?_erase, if_neg hne.symm]
    exact ⟨hobjects.erase r', hlisted, rfl, rfl⟩

/-- The keys that were listed again change only by the key of the object that is listed. -/
theorem Observer.next_of_object {w : Observer} {e : WatchEvent} {o : Object} {key : String}
    (he : e.object? = some o) (hk : o.key? ≠ some key) :
    (w.next e).listed = w.listed ∧
      (w.next e).relisted.contains key = w.relisted.contains key := by
  cases e with
  | listing | complete => cases he
  | listed p =>
    cases he
    refine ⟨w.listed_next_listed o, ?_⟩
    simp only [next]
    split
    · next k _ hkey =>
      have hne : k ≠ key := fun h => hk (h ▸ hkey)
      rw [NameSet.contains_add, decide_eq_false hne, Bool.false_or]
    · rfl
  | applied p | deleted p => exact ⟨rfl, rfl⟩

/-! ### Changes of an object -/

/-- The snapshots of a change are those that its type promises. -/
structure Change.Proper (c : Change) : Prop where
  previous : c.type = .update ↔ c.previous.isSome = true
  ordered : ∀ old ∈ c.previous, old.toJson.Ordered
  object : c.type ≠ .delete → ∃ o, c.object = some o ∧ o.toJson.Ordered

/-- What is stored at `r` is one of the snapshots of the change. -/
def Change.Shown (c : Change) (r : Ref) (os : Objects) : Prop :=
  os.get? r = c.previous ∨ os.get? r = c.object

/-- The change is of `r`, and what is stored at `r`, or listed, goes with its snapshots. -/
structure Change.Current (c : Change) (r : Ref) (shown store : Store) : Prop where
  key : c.key = r.key
  proper : c.Proper
  shown : c.type ≠ .delete → c.Shown r shown.objects
  stored : c.type ≠ .delete → c.Shown r store.objects
  listed : c.type ≠ .delete → ∀ o, store.listed.get? r = some o →
    c.object = some o ∨ store.objects.get? r = some o

/-- A delete goes with every store. -/
theorem Change.current_of_delete {c : Change} {r : Ref} {shown store : Store}
    (hk : c.key = r.key) (ht : c.type = .delete) (hp : c.previous = none) :
    c.Current r shown store where
  key := hk
  proper := ⟨by simp [ht, hp], by simp [hp], fun h => absurd ht h⟩
  shown := fun h => absurd ht h
  stored := fun h => absurd ht h
  listed := fun h => absurd ht h

/-- A change that goes with a store goes with it after every event that leaves `r` alone. -/
theorem Change.Current.congr {c : Change} {r : Ref} {shown store store' : Store}
    (h : c.Current r shown store) (hobjects : store'.objects.get? r = store.objects.get? r)
    (hlisted : store'.listed.get? r = store.listed.get? r) : c.Current r store store' where
  key := h.key
  proper := h.proper
  shown := h.stored
  stored := fun ht => by
    rw [Shown, hobjects]
    exact h.stored ht
  listed := fun ht o ho => by
    rw [hobjects]
    exact h.listed ht o (hlisted ▸ ho)

namespace Scene

/-- The change of a finding has the predecessor and the object. -/
theorem changeAt_finding? (w : Observer) {always : Bool} {old? : Option Object} {o : Object}
    {f : Finding} (hf : finding? always old? o = some f) (key : String)
    (ho : o.toJson.Ordered) (hold : ∀ old ∈ old?, old.toJson.Ordered) :
    (w.changeAt f key).Proper ∧ (w.changeAt f key).previous = old? ∧
      (w.changeAt f key).object = some o := by
  obtain ⟨rfl, rfl⟩ | ⟨old, rfl, rfl⟩ := finding?_cases hf
  · exact ⟨⟨by simp [Observer.changeAt], hold, fun _ => ⟨o, rfl, ho⟩⟩, rfl, rfl⟩
  · exact ⟨⟨by simp [Observer.changeAt], hold, fun _ => ⟨o, rfl, ho⟩⟩, rfl, rfl⟩

end Scene

namespace Newsroom

universe u

variable {σ : Type u} {n : Newsroom σ} {s : State σ} {r : Ref}

/-- The turns of the worker are whole: while it has a key in hand, nobody else does anything. -/
def Prompt (s : State σ) : Action → Prop
  | .judge | .report | .finish => True
  | .observe _ | .apply | .take | .fire _ => s.shift.stage.key? = none

instance (s : State σ) : DecidablePred (Prompt s)
  | .judge | .report | .finish => isTrue trivial
  | .observe _ | .apply | .take | .fire _ => inferInstanceAs (Decidable (_ = none))

/-- A version of the object at `r` that is stored already is listed as it is stored. -/
def Unaltered (r : Ref) (s : State σ) : Action → Prop
  | .observe (.listed o) => ∀ old, o.ref = .ok r → s.scene.store.objects.get? r = some old →
      old.metadata.resourceVersion = o.metadata.resourceVersion → o = old
  | _ => True

/-- Without listed objects there are no versions that are listed otherwise. -/
theorem obeys_unaltered {actions : List Action} (h : ∀ o, .observe (.listed o) ∉ actions) :
    Obeys n.step (Unaltered r) s actions := by
  refine .of_forall fun b hb s => ?_
  cases b with
  | observe e =>
    cases e with
    | listed o => exact absurd hb (h o)
    | _ => trivial
  | _ => trivial

/-- The queue and the stores are in step for the object at `r`. -/
structure InStep (r : Ref) (s : State σ) : Prop where
  telling : Telling r s
  fresh : s.listing = true → s.scene.Fresh
  relisted : s.listing = true → s.scene.observer.listed = true →
    (s.scene.observer.relisted.contains r.key = true ↔ ∃ o, s.scene.store.listed.get? r = some o)
  smooth : Shift.Smooth r.key (fun c => c.Current r s.shown s.scene.store) s.shift

theorem inStep_start (n : Newsroom σ) (outside : σ) (r : Ref) : InStep r (n.start outside) where
  telling := telling_start n outside r
  fresh := fun h => Bool.noConfusion h
  relisted := fun h => Bool.noConfusion h
  smooth := Shift.smooth_start r.key _

/-! ### The worker -/

/-- The object that an attempt looks at is one of the snapshots of its change. -/
theorem InStep.attempt (h : InStep r s) (hr : r.Plain) {a : Attempt}
    (ha : n.attempt? s = some a) (hk : a.key = r.key) :
    a.change.Current r s.shown s.scene.store ∧
      Key.parse a.change.key = .ok (r.namespaceName, r.name) ∧
      ((s.shown.serving n.outside).lookup a.change.key s.outside).1 =
        .ok (s.shown.objects.get? r) := by
  obtain ⟨⟨x, hx, hchange⟩, -⟩ := attempt?_eq_some.1 ha
  have hc : a.change.Current r s.shown s.scene.store := by
    rw [← hchange]
    exact h.smooth.taken x (hk ▸ hx)
  refine ⟨hc, ?_, ?_⟩
  · rw [hc.key]
    exact Key.parse_key hr
  · simp only [Store.serving, hc.key, Store.lookup_key s.shown hr, h.telling.shown.find?]

/-- An attempt at the key of `r` does not fail. -/
theorem InStep.isFailed_answer (h : InStep r s) (hr : r.Plain) {x : Queue.Numbered Change}
    (hx : s.shift.stage = .taken r.key x) : (n.answer s x.payload).1.isFailed = false := by
  obtain ⟨-, hparse, hlookup⟩ := h.attempt (n := n) hr (attempt?_of_taken hx) rfl
  exact Worker.isFailed_process hparse hlookup

/-- The worker's own steps leave the stores alone, and no attempt at the key of `r` fails. -/
theorem InStep.work (h : InStep r s) (hr : r.Plain) {b : Action}
    (hb : ∀ e, b ≠ .observe e) (happly : b ≠ .apply) : InStep r (n.step s b) := by
  have quiet {b : Action} {m : Shift.Action.{u}} (hm : n.moves s b = [m])
      (hadd : ∀ k c, m ≠ .add k c) (hclose : m ≠ .close) (hprocess : m.isProcess = false) :
      Shift.Smooth r.key (fun c => c.Current r s.shown s.scene.store) (n.step s b).shift := by
    rw [shift_step, hm]
    exact h.smooth.quiet hadd hclose hprocess
  cases b with
  | observe e => exact absurd rfl (hb e)
  | apply => exact absurd rfl happly
  | take | report | finish | fire place =>
    exact ⟨telling_step h.telling trivial, h.fresh, h.relisted,
      quiet rfl (by simp) (by simp) rfl⟩
  | judge =>
    refine ⟨telling_step h.telling trivial, h.fresh, h.relisted,
      h.smooth.step (a := .process (s.shown.serving n.outside) s.outside) (by simp) (by simp)
        fun x failed hx hstage => ?_⟩
    obtain ⟨_, -, hstep⟩ :=
      Shift.exists_step_process n.toShift hx (s.shown.serving n.outside) s.outside
    rw [hstep] at hstage
    cases hstage
    exact h.isFailed_answer hr hx

theorem InStep.apply (h : InStep r s) (hfree : s.shift.stage.key? = none) :
    InStep r (n.step s .apply) where
  telling := telling_step h.telling trivial
  fresh := h.fresh
  relisted := h.relisted
  smooth := Shift.smooth_of_free h.smooth.steady hfree h.smooth.unscheduled fun c hc =>
    have h := h.smooth.pending c hc
    ⟨h.key, h.proper, h.stored, h.stored, h.listed⟩

/-! ### The watch -/

/-- An event keeps the queue and the stores in step if the new pending change, or else the one that
stays, goes with the store before the event and the one after it. -/
theorem InStep.observe (h : InStep r s) {e : WatchEvent} {changes : List Change} {scene : Scene}
    (he : Permitted r s (.observe e)) (hfree : s.shift.stage.key? = none)
    (ht : s.scene.take e = .ok (changes, scene))
    (hfresh : goesOn s.listing e = true → scene.Fresh)
    (hrelisted : goesOn s.listing e = true → scene.observer.listed = true →
      (scene.observer.relisted.contains r.key = true ↔ ∃ o, scene.store.listed.get? r = some o))
    (hnew : ∀ c, Shift.reported changes r.key = some c → c.Current r s.scene.store scene.store)
    (hkept : Shift.reported changes r.key = none → ∀ c : Change,
      c.Current r s.shown s.scene.store → c.Current r s.scene.store scene.store) :
    InStep r (n.step s (.observe e)) := by
  have htelling := telling_step (n := n) h.telling he
  have hsteady := steady_step (n := n) h.smooth.steady (.observe e)
  obtain ⟨hpending, hstage, hscheduled⟩ :=
    Shift.run_adds.{u} n.toShift h.smooth.steady.isOpen changes r.key
  rw [step_observe ht] at htelling hsteady ⊢
  refine ⟨htelling, hfresh, hrelisted, Shift.smooth_of_free hsteady (hstage ▸ hfree)
    (hscheduled h.smooth.unscheduled) fun c hc => ?_⟩
  rw [hpending] at hc
  cases hr : Shift.reported changes r.key with
  | some d =>
    rw [hr, Option.some_or, Option.some.injEq] at hc
    exact hnew c (hc ▸ hr)
  | none =>
    rw [hr, Option.none_or] at hc
    exact hkept hr c (h.smooth.pending c hc)

/-- An event about another object changes nothing for `r`. -/
theorem InStep.observe_apart (h : InStep r s) {e : WatchEvent} (hp : Permitted r s (.observe e))
    (hfree : s.shift.stage.key? = none) {o : Object} (he : e.object? = some o) (ha : o.Apart r)
    (hphase : s.listing = true → e = .listed o) : InStep r (n.step s (.observe e)) := by
  cases ht : s.scene.take e with
  | error => exact (step_observe_of_error (n := n) ht).symm ▸ h
  | ok taken =>
    obtain ⟨changes, scene⟩ := taken
    obtain ⟨-, hobserver, -⟩ := Scene.take_eq_ok ht
    obtain ⟨r', ho, -, -, hkey⟩ := id ha
    obtain ⟨-, -, hobjects, hget⟩ := Scene.tells_take ht he ha h.telling.stored h.telling.listed
    obtain ⟨hnl, hnr⟩ := Observer.next_of_object (w := s.scene.observer) he hkey
    rw [← hobserver] at hnl hnr
    have hgoes : goesOn s.listing e = s.listing := by
      cases e with
      | listing | complete => cases he
      | _ => rfl
    have hnone : Shift.reported changes r.key = none :=
      Shift.reported_eq_none_iff.2 fun c hc hk => hkey (hk ▸ Scene.key_of_take ht he c hc)
    refine h.observe hp hfree ht ?_ ?_ ?_ fun _ c hc => hc.congr hobjects hget
    · intro hl hfirst
      rw [hgoes] at hl
      have hempty := h.fresh hl (hnl ▸ hfirst)
      obtain ⟨hsame, -⟩ | ⟨-, -, he'⟩ | ⟨-, -, he'⟩ := Scene.store_of_take ht he ho
      · exact hsame.trans hempty
      · cases he'.symm.trans (hphase hl)
      · cases he'.symm.trans (hphase hl)
    · intro hl hfirst
      rw [hnr, hget]
      exact h.relisted (hgoes ▸ hl) (hnl ▸ hfirst)
    · intro c hc
      rw [hnone] at hc
      cases hc

/-- A change that an event shows of the object at `r`, whose predecessor is what is stored, goes
with the stores. -/
theorem current_of_finding? (h : InStep r s) {always : Bool} {o : Object} {f : Finding}
    (hf : Scene.finding? always (s.scene.store.objects.get? r) o = some f)
    (ho : o.toJson.Ordered) {store : Store}
    (hstored : store.objects.get? r = s.scene.store.objects.get? r ∨
      store.objects.get? r = some o)
    (hlisted : ∀ p, store.listed.get? r = some p → p = o) :
    (s.scene.observer.changeAt f r.key).Current r s.scene.store store := by
  obtain ⟨hproper, hprevious, hobject⟩ := Scene.changeAt_finding? s.scene.observer hf r.key ho
    fun old hold => (h.telling.stored.own old hold).2
  refine ⟨rfl, hproper, fun _ => .inl hprevious.symm, fun _ => ?_, fun _ p hp => ?_⟩
  · rw [Change.Shown, hprevious, hobject]
    exact hstored
  · rw [hobject, hlisted p hp]
    exact .inl rfl

/-- A live event that shows the object at `r`. -/
theorem InStep.observe_applied (h : InStep r s) (hr : r.Plain) {o : Object}
    (hp : Permitted r s (.observe (.applied o))) (hfree : s.shift.stage.key? = none)
    (ho : o.ref = .ok r) (hd : o.toJson.Ordered) :
    InStep r (n.step s (.observe (.applied o))) := by
  have hl : s.listing = false := hp.1
  have ht := Scene.take_applied (s := s.scene) ho hr
  rw [h.telling.stored.find?] at ht
  have hgoes : goesOn s.listing (.applied o) ≠ true := by simp [goesOn, hl]
  have hnew : (s.scene.store.objects.insert r o).get? r = some o := by
    rw [Objects.get?_insert, if_pos rfl]
  refine h.observe hp hfree ht (fun h' => absurd h' hgoes) (fun h' => absurd h' hgoes) ?_ ?_
  · intro c hc
    rw [reported_finding?, Option.map_eq_some_iff] at hc
    obtain ⟨f, hf, rfl⟩ := hc
    refine current_of_finding? h hf hd (.inr hnew) fun p hp => ?_
    rw [h.telling.unlisted hl] at hp
    cases hp
  · -- something is always found of an object that is applied
    intro hn
    rw [reported_finding?, Option.map_eq_none_iff] at hn
    unfold Scene.finding? at hn
    split at hn <;> simp at hn

/-- The object at `r` in a listing. -/
theorem InStep.observe_listed (h : InStep r s) (hr : r.Plain) {o : Object}
    (hp : Permitted r s (.observe (.listed o))) (hfree : s.shift.stage.key? = none)
    (hsame : Unaltered r s (.observe (.listed o))) (ho : o.ref = .ok r) (hd : o.toJson.Ordered) :
    InStep r (n.step s (.observe (.listed o))) := by
  have hfresh := h.fresh hp.1
  have ht := Scene.take_listed hfresh ho hr
  rw [h.telling.stored.find?] at ht
  have hnew : (s.scene.store.listed.insert r o).get? r = some o := by
    rw [Objects.get?_insert, if_pos rfl]
  refine h.observe hp hfree ht (fun _ h' => ?_) (fun _ h' => ?_) ?_ ?_
  · exact hfresh ((s.scene.observer.listed_next_listed o).symm.trans h')
  · have h' := (s.scene.observer.listed_next_listed o).symm.trans h'
    simp [Observer.relisted_next_listed ho hr h', NameSet.contains_add, hnew]
  · intro c hc
    rw [reported_finding?, Option.map_eq_some_iff] at hc
    obtain ⟨f, hf, rfl⟩ := hc
    refine current_of_finding? h hf hd (.inl rfl) fun p hp => ?_
    exact (Option.some.inj (hnew.symm.trans hp)).symm
  · -- nothing is reported of a version that is stored already
    intro hn c hc
    rw [reported_finding?, Option.map_eq_none_iff] at hn
    have hstored : s.scene.store.objects.get? r = some o := by
      cases hold : s.scene.store.objects.get? r with
      | none => simp [Scene.finding?, hold] at hn
      | some old =>
        have hv : old.metadata.resourceVersion = o.metadata.resourceVersion := by
          simpa [Scene.finding?, hold] using hn
        rw [hsame old ho hold hv]
    refine ⟨hc.key, hc.proper, hc.stored, hc.stored, fun _ p hp => .inr ?_⟩
    rw [Option.some.inj (hp.symm.trans hnew)]
    exact hstored

/-- A delete of the object at `r`. -/
theorem InStep.observe_deleted (h : InStep r s) (hr : r.Plain) {o : Object}
    (hp : Permitted r s (.observe (.deleted o))) (hfree : s.shift.stage.key? = none)
    (ho : o.ref = .ok r) : InStep r (n.step s (.observe (.deleted o))) := by
  have hgoes : goesOn s.listing (.deleted o) ≠ true := by simp [goesOn, hp.1]
  have hreported : Shift.reported [s.scene.observer.changeAt ⟨.delete, o, none⟩ r.key] r.key =
      some (s.scene.observer.changeAt ⟨.delete, o, none⟩ r.key) :=
    reported_finding? s.scene.observer (some ⟨.delete, o, none⟩) r.key
  refine h.observe hp hfree (Scene.take_deleted ho hr) (fun h' => absurd h' hgoes)
    (fun h' => absurd h' hgoes) (fun c hc => ?_) fun hn => ?_
  · rw [hreported, Option.some.injEq] at hc
    subst hc
    exact Change.current_of_delete rfl rfl rfl
  · rw [hreported] at hn
    cases hn

/-- A listing begins. -/
theorem InStep.observe_listing (h : InStep r s) (hp : Permitted r s (.observe .listing))
    (hfree : s.shift.stage.key? = none) : InStep r (n.step s (.observe .listing)) := by
  refine h.observe hp hfree Scene.take_listing (fun _ => hp) (fun _ _ => ?_) (fun c hc => ?_)
    fun _ c hc => ?_
  · simp
  · cases hc
  · exact ⟨hc.key, hc.proper, hc.stored, hc.stored, fun _ p hp => nomatch hp⟩

/-- A listing is complete. -/
theorem InStep.observe_complete (h : InStep r s) (hr : r.Plain)
    (hp : Permitted r s (.observe .complete)) (hfree : s.shift.stage.key? = none) :
    InStep r (n.step s (.observe .complete)) := by
  have hl : s.listing = true := hp
  have hfresh := h.fresh hl
  refine h.observe hp hfree (Scene.take_complete hfresh) (fun h' => ?_) (fun h' => ?_)
    (fun c hc => ?_) fun hn c hc => ?_
  · cases h'
  · cases h'
  · obtain ⟨hmem, hk⟩ := Shift.reported_mem hc
    obtain ⟨htype, hprevious⟩ := Observer.delete_of_vanished hmem
    exact Change.current_of_delete hk htype hprevious
  · -- an object that the listing lacks would have been reported
    have hgone : s.scene.store.listed.get? r = none → s.scene.store.objects.get? r = none := by
      intro hnone
      refine Option.eq_none_iff_forall_ne_some.2 fun o ho => ?_
      cases hfirst : s.scene.observer.listed with
      | false =>
        rw [hfresh hfirst, Objects.get?_empty] at ho
        cases ho
      | true =>
        have hrelisted : s.scene.observer.relisted.contains r.key = false := by
          rw [← Bool.not_eq_true, h.relisted hl hfirst]
          rintro ⟨p, hp⟩
          rw [hnone] at hp
          cases hp
        obtain ⟨d, hd, hk⟩ := Observer.exists_vanished_key.2
          ⟨(h.telling.stored.has_versions hr).2 ⟨o, ho⟩, hrelisted⟩
        exact Shift.reported_eq_none_iff.1 hn d hd hk
    refine ⟨hc.key, hc.proper, hc.stored, fun ht => ?_, fun _ p hp => nomatch hp⟩
    rw [Change.Shown]
    cases hnew : s.scene.store.listed.get? r with
    | none =>
      rw [← hgone hnew]
      exact hc.stored ht
    | some p =>
      rcases hc.listed ht p hnew with hp | hp
      · exact .inr hp.symm
      · rw [← hp]
        exact hc.stored ht

/-! ### Runs -/

theorem inStep_step (h : InStep r s) (hr : r.Plain) {b : Action} (hb : Permitted r s b)
    (hprompt : Prompt s b) (hsame : Unaltered r s b) : InStep r (n.step s b) := by
  cases b with
  | apply => exact h.apply hprompt
  | take | judge | report | finish | fire place => exact h.work hr (by simp) (by simp)
  | observe e =>
    cases e with
    | listing => exact h.observe_listing hb hprompt
    | complete => exact h.observe_complete hr hb hprompt
    | listed o =>
      obtain ⟨ho, hd⟩ | ha := hb.2
      · exact h.observe_listed hr hb hprompt hsame ho hd
      · exact h.observe_apart hb hprompt rfl ha fun _ => rfl
    | applied o =>
      obtain ⟨ho, hd⟩ | ha := hb.2
      · exact h.observe_applied hr hb hprompt ho hd
      · refine h.observe_apart hb hprompt rfl ha fun hl => ?_
        rw [hb.1] at hl
        cases hl
    | deleted o =>
      obtain ⟨ho, -⟩ | ha := hb.2
      · exact h.observe_deleted hr hb hprompt ho
      · refine h.observe_apart hb hprompt rfl ha fun hl => ?_
        rw [hb.1] at hl
        cases hl

/-- The queue and the stores stay in step. -/
theorem inStep_run (h : InStep r s) (hr : r.Plain) {actions : List Action}
    (hpermitted : Obeys n.step (Permitted r) s actions) (hprompt : Obeys n.step Prompt s actions)
    (hsame : Obeys n.step (Unaltered r) s actions) : InStep r (n.run s actions) := by
  induction actions generalizing s with
  | nil => exact h
  | cons b actions ih =>
    exact ih (inStep_step h hr hpermitted.1 hprompt.1 hsame.1) hpermitted.2 hprompt.2 hsame.2

end Newsroom

end ClusterHerald
