import ClusterHerald.Proofs.Newsroom.Telling

/-!
# Where a change comes from

A change that the worker has taken was reported by an event, however often it was retried since
(`Newsroom.exists_report`).  When an update was reported, look-ups saw its predecessor, and the watch
stored or collected its object.  What look-ups see since is one of these two, or a version that a
later event has shown (`Newsroom.Telling.within_observe`, `Newsroom.Within.run`).
-/

namespace ClusterHerald

universe u

/-- An event that reports an update shows its object, and its predecessor was stored. -/
theorem Scene.update_of_take {s s' : Scene} {e : WatchEvent} {changes : List Change} {c : Change}
    {r : Ref} (h : s.take e = .ok (changes, s')) (hc : c ∈ changes) (hk : c.key = r.key)
    (hu : c.type = .update) (htells : ∀ o, e.object? = some o → o.Tells r)
    (hstored : s.store.objects.Tells r) :
    ∃ old o, e.version? = some o ∧ o.ref = .ok r ∧ o.toJson.Ordered ∧
      s.store.objects.get? r = some old ∧ c.previous = some old ∧ c.object = some o := by
  obtain ⟨⟨found, hf, rfl⟩, -⟩ := take_eq_ok h
  obtain ⟨f, hmem, hchange⟩ := List.mem_filterMap.1 hc
  obtain ⟨key, hkey, rfl⟩ := Option.map_eq_some_iff.1 hchange
  obtain ⟨o, rfl, -, rfl⟩ | ⟨o, always, old?, he, hp, hfound⟩ | ⟨o, rfl, rfl⟩ | ⟨rfl, hv⟩ :=
    findings_cases hf hmem
  · cases hu
  · obtain ⟨-, rfl⟩ | ⟨old, rfl, rfl⟩ := finding?_cases hfound
    · cases hu
    · have hversion : e.version? = some o := by rcases he with rfl | rfl <;> rfl
      obtain ⟨ho, hd⟩ | ⟨-, -, -, -, hne⟩ := htells o (WatchEvent.object?_of_version? hversion)
      · rw [predecessor?_of_ref _ ho, Except.ok.injEq, hstored.find?] at hp
        exact ⟨old, o, hversion, ho, hd, hp, rfl, rfl⟩
      · exact absurd (hkey.trans (congrArg some hk)) hne
  · cases hu
  · obtain ⟨o, _, -, -, -, rfl⟩ := Observer.mem_vanished.1 hv
    cases hu

namespace Newsroom

variable {σ : Type u} {n : Newsroom σ} {s : State σ} {r : Ref} {a : Attempt}
  {actions : List Action} {p : Object → Prop}

/-! ### Reports -/

/-- To the shift a run of the newsroom is a run of its own. -/
theorem exists_run_shift (n : Newsroom σ) (s : State σ) (actions : List Action) :
    ∃ moves : List Shift.Action.{u}, (n.run s actions).shift = n.toShift.run s.shift moves := by
  induction actions generalizing s with
  | nil => exact ⟨[], rfl⟩
  | cons b actions ih =>
    obtain ⟨rest, hrest⟩ := ih (n.step s b)
    refine ⟨n.moves s b ++ rest, hrest.trans ?_⟩
    rw [Shift.run_append, shift_step]

/-- An action adds the changes of an event. -/
theorem mem_added_step {b : Action} {item : String × Change}
    (h : item ∈ (n.step s b).shift.added) :
    item ∈ s.shift.added ∨ ∃ e changes scene, b = .observe e ∧
      s.scene.take e = .ok (changes, scene) ∧ item.2 ∈ changes ∧ item.2.key = item.1 := by
  rw [shift_step, Shift.added_run, List.mem_append] at h
  refine h.imp_right fun h => ?_
  cases b with
  | observe e =>
    simp only [moves] at h
    split at h
    · next changes scene ht =>
      obtain ⟨m, hm, hitem⟩ := List.mem_flatMap.1 h
      obtain ⟨c, hc, rfl⟩ := List.mem_map.1 hm
      obtain rfl := List.mem_singleton.1 hitem
      exact ⟨e, changes, scene, rfl, ht, hc, rfl⟩
    · cases h
  | _ => cases h

/-- What was added in a run was reported by one of its events. -/
theorem mem_added_run {item : String × Change} (h : item ∈ (n.run s actions).shift.added) :
    item ∈ s.shift.added ∨ ∃ before e after changes scene,
      actions = before ++ .observe e :: after ∧
      (n.run s before).scene.take e = .ok (changes, scene) ∧
      item.2 ∈ changes ∧ item.2.key = item.1 := by
  induction actions generalizing s with
  | nil => exact .inl h
  | cons b actions ih =>
    obtain hadded | ⟨before, e, after, changes, scene, rfl, hreport⟩ := ih h
    · obtain hold | ⟨e, changes, scene, rfl, hreport⟩ := mem_added_step hadded
      · exact .inl hold
      · exact .inr ⟨[], e, actions, changes, scene, rfl, hreport⟩
    · exact .inr ⟨b :: before, e, after, changes, scene, rfl, hreport⟩

/-- The change that the worker judges was reported by an event. -/
theorem exists_report {outside : σ}
    (ha : n.attempt? (n.run (n.start outside) actions) = some a) :
    ∃ before e after changes scene, actions = before ++ .observe e :: after ∧
      (n.run (n.start outside) before).scene.take e = .ok (changes, scene) ∧
      a.change ∈ changes ∧ a.change.key = a.key := by
  obtain ⟨⟨x, hx, hchange⟩, -⟩ := attempt?_eq_some.1 ha
  obtain ⟨moves, hmoves⟩ := exists_run_shift n (n.start outside) actions
  have htidy := (Shift.tidy_start n.toShift).run moves
  rw [show Shift.start = (n.start outside).shift from rfl, ← hmoves] at htidy
  have hin : (n.run (n.start outside) actions).shift.Holds a.key x .inHand := by
    simp [Shift.State.Holds, hx, Shift.Stage.open?]
  have hmem := List.mem_of_getElem? (htidy.awaits hin).added
  rw [hchange] at hmem
  obtain hstart | hreport := mem_added_run hmem
  · cases hstart
  · exact hreport

/-! ### What look-ups see since -/

/-- Whatever is stored or collected of the object at `r`, and whatever look-ups see of it, has a
property. -/
structure Within (r : Ref) (p : Object → Prop) (s : State σ) : Prop where
  shown : ∀ o, s.shown.objects.get? r = some o → p o
  stored : ∀ o, s.scene.store.objects.get? r = some o → p o
  listed : ∀ o, s.scene.store.listed.get? r = some o → p o

/-- An event among the actions shows this version of the object at `r`. -/
def ShownIn (r : Ref) (actions : List Action) (o : Object) : Prop :=
  ∃ e, .observe e ∈ actions ∧ e.version? = some o ∧ o.ref = .ok r

theorem Within.mono {q : Object → Prop} (h : Within r p s) (hpq : ∀ o, p o → q o) :
    Within r q s where
  shown := fun o ho => hpq o (h.shown o ho)
  stored := fun o ho => hpq o (h.stored o ho)
  listed := fun o ho => hpq o (h.listed o ho)

theorem Within.step (h : Within r p s) {b : Action}
    (hb : ∀ e o, b = .observe e → e.version? = some o → o.ref = .ok r → p o) :
    Within r p (n.step s b) := by
  cases b with
  | observe e =>
    cases ht : s.scene.take e with
    | error =>
      rw [step_observe_of_error ht]
      exact h
    | ok taken =>
      obtain ⟨changes, scene⟩ := taken
      obtain ⟨-, -, ha⟩ := Scene.take_eq_ok ht
      have hinsert (o : Object) (r' : Ref) (os : Objects) (ho : e.version? = some o)
          (hr' : o.ref = .ok r') (hos : ∀ x, os.get? r = some x → p x) :
          ∀ x, (os.insert r' o).get? r = some x → p x := by
        intro x hx
        rw [Objects.get?_insert] at hx
        split at hx
        · next hrr =>
          cases hx
          exact hb e o rfl ho (hrr ▸ hr')
        · exact hos x hx
      have herase (r' : Ref) (os : Objects) (hos : ∀ x, os.get? r = some x → p x) :
          ∀ x, (os.erase r').get? r = some x → p x := by
        intro x hx
        rw [Objects.get?_erase] at hx
        split at hx
        · cases hx
        · exact hos x hx
      have hempty (x : Object) (hx : Objects.empty.get? r = some x) : p x := by
        rw [Objects.get?_empty] at hx
        cases hx
      obtain ⟨hstored, hlisted⟩ := Store.keeps_of_apply
        (p := fun os => ∀ x, os.get? r = some x → p x) hempty hinsert herase ha
        ⟨h.stored, h.listed⟩
      rw [step_observe ht]
      exact ⟨h.stored, hstored, hlisted⟩
  | apply => exact ⟨h.stored, h.stored, h.listed⟩
  | take | judge | report | finish | fire place => exact ⟨h.shown, h.stored, h.listed⟩

theorem Within.run (h : Within r p s) (ha : ∀ o, ShownIn r actions o → p o) :
    Within r p (n.run s actions) := by
  induction actions generalizing s with
  | nil => exact h
  | cons b actions ih =>
    refine ih (h.step fun e o hb ho hr => ?_) fun o ⟨e, he, hshown⟩ => ?_
    · exact ha o ⟨e, hb ▸ List.mem_cons_self, ho, hr⟩
    · exact ha o ⟨e, List.mem_cons_of_mem b he, hshown⟩

/-- When an event shows a new version, look-ups see the one that was stored before, and the watch
stores or collects the new one. -/
theorem Telling.within_observe (h : Telling r s) {e : WatchEvent} (he : Permitted r s (.observe e))
    {changes : List Change} {scene : Scene} (ht : s.scene.take e = .ok (changes, scene))
    {old o : Object} (hv : e.version? = some o) (ho : o.ref = .ok r)
    (hold : s.scene.store.objects.get? r = some old) :
    Within r (fun x => x = old ∨ x = o) (n.step s (.observe e)) := by
  have hstored (x : Object) (hx : s.scene.store.objects.get? r = some x) : x = old ∨ x = o :=
    .inl (Option.some.inj (hx.symm.trans hold))
  have hinsert (os : Objects) (x : Object) (hx : (os.insert r o).get? r = some x) :
      x = old ∨ x = o := by
    rw [Objects.get?_insert, if_pos rfl] at hx
    exact .inr (Option.some.inj hx).symm
  rw [step_observe ht]
  obtain ⟨hos, hls, -⟩ | ⟨hos, hls, rfl⟩ | ⟨-, -, rfl⟩ :=
    Scene.store_of_take ht (WatchEvent.object?_of_version? hv) ho
  · refine ⟨hstored, ?_, ?_⟩ <;> intro x hx
    · rw [hos] at hx
      exact hstored x hx
    · rw [hls] at hx
      exact hinsert _ x hx
  · -- a live event finds nothing that is collected
    refine ⟨hstored, ?_, ?_⟩ <;> intro x hx
    · rw [hos] at hx
      exact hinsert _ x hx
    · rw [hls, h.unlisted he.1] at hx
      cases hx
  · cases hv

end Newsroom

end ClusterHerald
