import ClusterHerald.Proofs.Watch.Scene

/-!
# Listings

While a listing comes in, the versions that a follower of the changes knows are those of the
objects collected so far and, for all other keys, those of the stored objects
(`Scene.Collecting`).  Every object of the listing keeps it so (`Scene.Collecting.collect`), and
after the last one the follower has the versions of the new store (`Scene.Collecting.complete`).

This needs that the stored object which is found for a listed one is its own predecessor, and not
another object of the same name (`Objects.FindsOwn`).
-/

namespace ClusterHerald

/-- The object is stored itself, or no object of its name without a namespace is. -/
def Objects.FindsOwn (os : Objects) (r : Ref) : Prop :=
  os.get? r = none → os.get? ⟨none, r.name⟩ = none

instance (os : Objects) : DecidablePred os.FindsOwn := fun r =>
  inferInstanceAs (Decidable (os.get? r = none → os.get? ⟨none, r.name⟩ = none))

theorem Objects.FindsOwn.find? {os : Objects} {r : Ref} (h : os.FindsOwn r) :
    os.find? r = os.get? r := by
  unfold Objects.find?
  cases hg : os.get? r with
  | none => exact h hg
  | some old => rfl

/-- Otherwise another object is found, and nothing is stored of the object itself. -/
theorem Objects.exists_of_not_findsOwn {os : Objects} {r : Ref} (h : ¬ os.FindsOwn r) :
    ∃ x, os.find? r = some x ∧ os.get? r = none := by
  simp only [FindsOwn, Classical.not_imp] at h
  obtain ⟨hn, hx⟩ := h
  obtain ⟨x, hx⟩ := Option.ne_none_iff_exists'.1 hx
  exact ⟨x, by simp only [Objects.find?, hn, hx], hn⟩

/-- The objects may be collected: they are plain, no two of them have one key, and none of them is
among the collected ones. -/
structure Objects.Awaits (collected : Objects) (os : List Object) : Prop where
  plain : ∀ o ∈ os, o.Plain
  nodup : (os.map Object.key?).Nodup
  get?_eq_none : ∀ o ∈ os, ∀ r, o.ref = .ok r → collected.get? r = none

theorem Objects.awaits_empty {os : List Object} (hp : ∀ o ∈ os, o.Plain)
    (hd : (os.map Object.key?).Nodup) : empty.Awaits os :=
  ⟨hp, hd, fun _ _ _ _ => rfl⟩

theorem Objects.Awaits.cons {collected : Objects} {o : Object} {os : List Object}
    (h : collected.Awaits (o :: os)) :
    ∃ r, o.ref = .ok r ∧ r.Plain ∧ collected.get? r = none ∧
      (∀ p ∈ os, p.Plain ∧ p.ref ≠ .ok r) ∧ (collected.insert r o).Awaits os := by
  obtain ⟨r, ho, hr⟩ := h.plain o List.mem_cons_self
  obtain ⟨hnew, hd⟩ := List.nodup_cons.1 h.nodup
  have hp : ∀ p ∈ os, p.Plain := fun p hp => h.plain p (List.mem_cons_of_mem o hp)
  have hne : ∀ p ∈ os, p.ref ≠ .ok r := fun p hp hpr => hnew <| by
    rw [Object.key?_of_ref ho hr, ← Object.key?_of_ref hpr hr]
    exact List.mem_map_of_mem hp
  have hn : collected.get? r = none := h.get?_eq_none o List.mem_cons_self r ho
  refine ⟨r, ho, hr, hn, fun p hmem => ⟨hp p hmem, hne p hmem⟩, hp, hd, fun p hmem r' hpr => ?_⟩
  have hrr : r' ≠ r := fun he => hne p hmem (he ▸ hpr)
  rw [get?_insert, if_neg hrr]
  exact h.get?_eq_none p (List.mem_cons_of_mem o hmem) r' hpr

namespace Observer

/-- The deletions at the end of a listing are those of the stored keys that it lacks. -/
theorem mem_vanished {w : Observer} {store : Store} {f : Finding} :
    f ∈ w.vanished store ↔
      ∃ o key, o ∈ store.objects.toList ∧ o.key? = some key ∧ w.relisted.contains key = false ∧
        f = ⟨.delete, o, none⟩ := by
  simp only [vanished, List.mem_map, (List.mergeSort_perm _ _).mem_iff, List.mem_filter]
  constructor
  · rintro ⟨o, ⟨ho, hk⟩, rfl⟩
    split at hk
    · next key hkey => exact ⟨o, key, ho, hkey, by simpa using hk, rfl⟩
    · cases hk
  · rintro ⟨o, key, ho, hk, hr, rfl⟩
    exact ⟨o, ⟨ho, by simp [hk, hr]⟩, rfl⟩

/-- The keys of the deletions at the end of a listing. -/
theorem exists_vanished_key {w : Observer} {store : Store} {key : String} :
    (∃ c ∈ (w.vanished store).filterMap w.change?, c.key = key) ↔
      store.objects.versions.has key = true ∧ w.relisted.contains key = false := by
  rw [Objects.versions, Versions.has_ofObjects]
  simp only [List.mem_filterMap, mem_vanished]
  constructor
  · rintro ⟨c, ⟨_, ⟨o, k, ho, hk, hr, rfl⟩, hc⟩, rfl⟩
    simp only [change?, hk, Option.map_some, Option.some.injEq] at hc
    obtain rfl : k = c.key := by rw [← hc]; rfl
    exact ⟨⟨o, ho, hk⟩, hr⟩
  · rintro ⟨⟨o, ho, hk⟩, hr⟩
    exact ⟨_, ⟨_, ⟨o, key, ho, hk, hr, rfl⟩, by rw [change?, hk]; rfl⟩, rfl⟩

/-- The end of a listing reports deletions, and these have no predecessor. -/
theorem delete_of_vanished {w : Observer} {store : Store} {c : Change}
    (h : c ∈ (w.vanished store).filterMap w.change?) : c.type = .delete ∧ c.previous = none := by
  obtain ⟨f, hf, hc⟩ := List.mem_filterMap.1 h
  obtain ⟨o, key, -, hk, -, rfl⟩ := mem_vanished.1 hf
  simp only [change?, hk, Option.map_some, Option.some.injEq] at hc
  rw [← hc]
  exact ⟨rfl, rfl⟩

theorem type_of_vanished {w : Observer} {store : Store} {c : Change}
    (h : c ∈ (w.vanished store).filterMap w.change?) : c.type = .delete :=
  (delete_of_vanished h).1

theorem relisted_next_listed {w : Observer} {o : Object} {r : Ref} (ho : o.ref = .ok r)
    (hr : r.Plain) (hl : w.listed = true) :
    (w.next (.listed o)).relisted = w.relisted.add r.key := by
  simp only [next, hl, Object.key?_of_ref ho hr]

theorem listed_next_listed (w : Observer) (o : Object) :
    (w.next (.listed o)).listed = w.listed := by
  simp only [next]
  split <;> rfl

end Observer

namespace Scene

/-- An event that shows an object finds what is stored of the object itself. -/
def FindsOwn (s : Scene) : WatchEvent → Prop
  | .listed o | .applied o => ∀ r, o.ref = .ok r → s.store.objects.FindsOwn r
  | .listing | .complete | .deleted _ => True

instance (s : Scene) : DecidablePred s.FindsOwn
  | .listed o | .applied o => decidableForallOk o.ref
  | .listing | .complete | .deleted _ => isTrue trivial

variable {s : Scene} {t : Versions} {o : Object} {r : Ref}

/-! ### Findings against what is known -/

theorem note_changeAt (w : Observer) {always : Bool} {old? : Option Object} {f : Finding}
    (hf : f ∈ finding? always old? o) (key : String) :
    t.note (w.changeAt f key) = t.insert key o.metadata.resourceVersion := by
  obtain ⟨-, rfl⟩ | ⟨old, -, rfl⟩ := finding?_cases hf <;> rfl

/-- If what is known of a key is the version of the predecessor, it is the version of the object
afterwards, and an update fits. -/
theorem follow_finding (w : Observer) (always : Bool) {old? : Option Object} {key : String}
    (h : t.get? key = old?.map (·.metadata.resourceVersion)) :
    Obeys Versions.note Versions.Fits t
        ((finding? always old? o).toList.map (w.changeAt · key)) ∧
      t.follow ((finding? always old? o).toList.map (w.changeAt · key)) =
        t.insert key o.metadata.resourceVersion := by
  cases hf : finding? always old? o with
  | none =>
    -- nothing is reported of a version that is known already
    obtain ⟨old, rfl, hv⟩ : ∃ old, old? = some old ∧
        old.metadata.resourceVersion = o.metadata.resourceVersion := by
      cases old? with
      | none => cases hf
      | some old =>
        simp only [finding?] at hf
        split at hf
        · next hv => exact ⟨old, rfl, of_decide_eq_true (Bool.and_eq_true_iff.1 hv).2⟩
        · cases hf
    refine ⟨trivial, Table.ext_get? fun other => ?_⟩
    rw [Table.get?_insert]
    split
    · next hk => rw [← hk, ← hv]; exact h
    · rfl
  | some f =>
    refine ⟨⟨fun hu => ?_, trivial⟩, note_changeAt w hf key⟩
    cases old? with
    | none => cases hf; cases hu
    | some old =>
      refine ⟨old, ?_, h⟩
      obtain ⟨hn, -⟩ | ⟨_, ⟨⟩, rfl⟩ := finding?_cases hf
      · cases hn
      · rfl

/-- An update of a key of which nothing is known does not fit. -/
theorem finding?_eq_none_of_fits {w : Observer} {always : Bool} {old : Object} {key : String}
    (h : t.get? key = none)
    (ho : Obeys Versions.note Versions.Fits t
      ((finding? always (some old) o).toList.map (w.changeAt · key))) :
    finding? always (some old) o = none := by
  cases hf : finding? always (some old) o with
  | none => rfl
  | some f =>
    rw [hf] at ho
    have hu : f.type = .update := by
      obtain ⟨hn, -⟩ | ⟨_, -, rfl⟩ := finding?_cases hf
      · cases hn
      · rfl
    obtain ⟨_, -, hk⟩ := ho.1 hu
    rw [show t.get? (w.changeAt f key).key = none from h] at hk
    cases hk

/-! ### While a listing comes in -/

/-- Nothing is stored before the first listing is complete, the stored objects are filed, and the
known versions are theirs. -/
structure Settled (s : Scene) (t : Versions) : Prop where
  fresh : s.Fresh
  filed : s.store.objects.Filed
  versions : t = s.store.objects.versions

/-- While a listing comes in, the known versions are those of the objects that are collected and,
for other keys, of the objects that are stored. -/
structure Collecting (s : Scene) (t : Versions) : Prop where
  fresh : s.Fresh
  filed : s.store.objects.Filed
  filed_listed : s.store.listed.Filed
  versions : ∀ key, t.get? key =
    (s.store.listed.versions.get? key).or (s.store.objects.versions.get? key)
  relisted : s.observer.listed = true →
    ∀ key, s.observer.relisted.contains key = s.store.listed.versions.has key

theorem Settled.get? (h : s.Settled t) (hr : r.Plain) :
    t.get? r.key = (s.store.objects.get? r).map (·.metadata.resourceVersion) := by
  rw [h.versions, h.filed.get?_versions hr]

theorem Settled.listing (h : s.Settled t) :
    Collecting ⟨{ s.observer with relisted := .empty }, { s.store with listed := .empty }⟩ t where
  fresh := h.fresh
  filed := h.filed
  filed_listed := Objects.filed_empty
  versions := by simp [h.versions]
  relisted := fun _ _ => rfl

namespace Collecting

/-- Of an object that is not collected yet the stored version is known. -/
theorem get?_of_not_listed (h : s.Collecting t) (hr : r.Plain)
    (hl : s.store.listed.get? r = none) :
    t.get? r.key = (s.store.objects.get? r).map (·.metadata.resourceVersion) := by
  rw [h.versions, h.filed_listed.get?_versions hr, hl, h.filed.get?_versions hr]
  rfl

/-- An object of the listing is collected, and its version is known from then on. -/
theorem listed (h : s.Collecting t) (ho : o.ref = .ok r) (hr : r.Plain) {t' : Versions}
    (ht : t' = t.insert r.key o.metadata.resourceVersion) :
    Collecting ⟨s.observer.next (.listed o), { s.store with listed := s.store.listed.insert r o }⟩
      t' where
  fresh := fun hl => h.fresh ((s.observer.listed_next_listed o).symm.trans hl)
  filed := h.filed
  filed_listed := h.filed_listed.insert ho hr
  versions := fun key => by
    rw [ht, h.filed_listed.versions_insert ho hr, Table.get?_insert, Table.get?_insert, h.versions]
    split <;> rfl
  relisted := fun hl key => by
    have hl' : s.observer.listed = true := (s.observer.listed_next_listed o).symm.trans hl
    simp only [Observer.relisted_next_listed ho hr hl', NameSet.contains_add, h.relisted hl',
      h.filed_listed.versions_insert ho hr, Table.has_insert]

/-- A new object that finds its own predecessor is collected, and the change that is reported of it
fits. -/
theorem collect (h : s.Collecting t) (ho : o.ref = .ok r) (hr : r.Plain)
    (hn : s.store.listed.get? r = none) (hown : s.store.objects.FindsOwn r) :
    ∃ changes s', s.take (.listed o) = .ok (changes, s') ∧
      Obeys Versions.note Versions.Fits t changes ∧ s'.Collecting (t.follow changes) ∧
      s'.store.listed = s.store.listed.insert r o := by
  obtain ⟨hfits, ht⟩ := follow_finding (o := o) s.observer false
    (h.get?_of_not_listed hr hn)
  rw [← hown.find?] at hfits ht
  exact ⟨_, _, take_listed h.fresh ho hr, hfits, h.listed ho hr ht, rfl⟩

/-- The listing takes the place of the stored objects, and the versions of those that it lacks are
forgotten. -/
theorem complete (h : s.Collecting t) :
    Settled ⟨{ s.observer with listed := true, relisted := .empty },
        ⟨s.store.listed, .empty, true⟩⟩
      (t.follow ((s.observer.vanished s.store).filterMap s.observer.change?)) where
  fresh := fun hl => nomatch hl
  filed := h.filed_listed
  versions := Table.ext_get? fun key => by
    rw [Versions.get?_follow_deletions t fun c => Observer.type_of_vanished, h.versions]
    simp only [Observer.exists_vanished_key]
    cases hl : s.observer.listed with
    | false =>
      simp [h.fresh hl]
    | true =>
      rw [h.relisted hl]
      split
      · next hgone => rw [Table.has_eq_false_iff.1 hgone.2]
      · next hkept =>
        rcases Option.eq_none_or_eq_some (s.store.listed.versions.get? key) with hc | ⟨v, hc⟩
        · have hn : s.store.objects.versions.get? key = none := by
            rw [← Table.has_eq_false_iff, ← Bool.not_eq_true]
            exact fun ho => hkept ⟨ho, Table.has_eq_false_iff.2 hc⟩
          rw [hc, hn]
          rfl
        · rw [hc]
          rfl

end Collecting

end Scene

end ClusterHerald
