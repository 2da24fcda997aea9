import ClusterHerald.Pipeline
import ClusterHerald.Proofs.Watch.Versions

/-!
# Following a watch

A scene is what a kind keeps of its watch: the observer and the store.  Every event is first
observed, against the store as it was before, and then applied to the store (`Scene.take`);
`Pipeline.watch` does so and enqueues the changes (`Pipeline.watch_eq_take`).

The lemmas `Scene.take_listing` to `Scene.take_deleted` say once what each event does, if its
object has a plain reference; the first listing needs no case of its own as long as nothing is
stored before it (`Scene.Fresh`).
-/

namespace ClusterHerald

/-- An observer with the store that it observes. -/
structure Scene where
  observer : Observer
  store : Store

namespace Scene

/-- Before the first event of a kind. -/
def start (kind : WatchedKind) : Scene := ⟨.start kind, .empty⟩

/-- An event is observed and then applied. -/
def take (s : Scene) (e : WatchEvent) : Except Nameless (List Change × Scene) := do
  let seen ← s.observer.observe s.store e
  let store ← s.store.apply e
  return (seen.changes, ⟨seen.next, store⟩)

/-- Events are taken one after the other. -/
def follow (s : Scene) : List WatchEvent → Except Nameless (List Change × Scene)
  | [] => return ([], s)
  | e :: events => do
    let (changes, s) ← s.take e
    let (more, s) ← s.follow events
    return (changes ++ more, s)

end Scene

/-- A pipeline takes an event as its scene does. -/
theorem Pipeline.watch_eq_take (p : Pipeline) (e : WatchEvent) :
    (p.watch e).map (fun seen => (seen.changes, (⟨seen.next.observer, seen.next.store⟩ : Scene))) =
      Scene.take ⟨p.observer, p.store⟩ e := by
  simp only [Pipeline.watch, Scene.take]
  cases p.observer.observe p.store e with
  | error => rfl
  | ok seen => cases p.store.apply e <;> rfl

namespace Scene

variable {s s' : Scene} {e : WatchEvent} {o : Object} {r : Ref} {changes : List Change}
  {before after events : List WatchEvent}

theorem follow_cons_eq_ok_iff :
    s.follow (e :: events) = .ok (changes, s') ↔
      ∃ first mid rest, s.take e = .ok (first, mid) ∧ mid.follow events = .ok (rest, s') ∧
        first ++ rest = changes := by
  simp only [follow, bind, Except.bind, pure, Except.pure]
  constructor
  · intro h
    split at h
    · cases h
    · next taken ht =>
      split at h
      · cases h
      · next more hf =>
        cases h
        exact ⟨_, _, _, ht, hf, rfl⟩
  · rintro ⟨first, mid, rest, ht, hf, rfl⟩
    simp only [ht, hf]

theorem follow_append_eq_ok_iff :
    s.follow (before ++ after) = .ok (changes, s') ↔
      ∃ first mid rest, s.follow before = .ok (first, mid) ∧ mid.follow after = .ok (rest, s') ∧
        first ++ rest = changes := by
  induction before generalizing s changes with
  | nil =>
    rw [List.nil_append]
    constructor
    · exact fun h => ⟨[], s, changes, rfl, h, rfl⟩
    · rintro ⟨_, _, rest, ⟨⟩, h, rfl⟩
      exact h
  | cons e before ih =>
    rw [List.cons_append, follow_cons_eq_ok_iff]
    constructor
    · rintro ⟨first, mid, rest, ht, hf, rfl⟩
      obtain ⟨second, mid', rest, hb, ha, rfl⟩ := ih.1 hf
      exact ⟨first ++ second, mid', rest, follow_cons_eq_ok_iff.2 ⟨first, mid, second, ht, hb, rfl⟩,
        ha, List.append_assoc ..⟩
    · rintro ⟨_, mid', rest, hb, ha, rfl⟩
      obtain ⟨first, mid, second, ht, hb', rfl⟩ := follow_cons_eq_ok_iff.1 hb
      exact ⟨first, mid, second ++ rest, ht, ih.2 ⟨second, mid', rest, hb', ha, rfl⟩,
        (List.append_assoc ..).symm⟩

end Scene

/-- The version of an object that an event shows; a deletion shows none. -/
def WatchEvent.version? : WatchEvent → Option Object
  | .listed o | .applied o => some o
  | .listing | .complete | .deleted _ => none

theorem WatchEvent.object?_of_version? {e : WatchEvent} {o : Object} (h : e.version? = some o) :
    e.object? = some o := by
  cases e with
  | listed p | applied p => exact h
  | listing | complete | deleted p => cases h

namespace Store

variable (s : Store) {o : Object} {r : Ref}

theorem apply_listed (h : o.ref = .ok r) :
    s.apply (.listed o) = .ok { s with listed := s.listed.insert r o } := by
  simp only [apply, h]
  rfl

theorem apply_applied (h : o.ref = .ok r) :
    s.apply (.applied o) = .ok { s with objects := s.objects.insert r o } := by
  simp only [apply, h]
  rfl

theorem apply_deleted (h : o.ref = .ok r) :
    s.apply (.deleted o) = .ok { s with objects := s.objects.erase r } := by
  simp only [apply, h]
  rfl

variable {s} {s' : Store} {e : WatchEvent}

/-- Only an object that has a reference can be stored or taken away. -/
theorem exists_ref_of_apply (h : s.apply e = .ok s') (ho : e.object? = some o) :
    ∃ r, o.ref = .ok r := by
  cases hr : o.ref with
  | ok r => exact ⟨r, rfl⟩
  | error =>
    cases e with
    | listing | complete => cases ho
    | listed q | applied q | deleted q =>
      cases ho
      simp only [apply, hr] at h
      cases h

/-- A store keeps what holds of no objects and is kept by every single change of objects. -/
theorem keeps_of_apply {p : Objects → Prop} (hempty : p .empty)
    (hinsert : ∀ o r os, e.version? = some o → o.ref = .ok r → p os → p (os.insert r o))
    (herase : ∀ r os, p os → p (os.erase r)) (ha : s.apply e = .ok s')
    (h : p s.objects ∧ p s.listed) : p s'.objects ∧ p s'.listed := by
  cases e with
  | listing =>
    cases ha
    exact ⟨h.1, hempty⟩
  | complete =>
    cases ha
    exact ⟨h.2, hempty⟩
  | listed o =>
    obtain ⟨r, hr⟩ := exists_ref_of_apply ha rfl
    rw [apply_listed s hr] at ha
    cases ha
    exact ⟨h.1, hinsert o r _ rfl hr h.2⟩
  | applied o =>
    obtain ⟨r, hr⟩ := exists_ref_of_apply ha rfl
    rw [apply_applied s hr] at ha
    cases ha
    exact ⟨hinsert o r _ rfl hr h.1, h.2⟩
  | deleted o =>
    obtain ⟨r, hr⟩ := exists_ref_of_apply ha rfl
    rw [apply_deleted s hr] at ha
    cases ha
    exact ⟨herase r _ h.1, h.2⟩

end Store

namespace Scene

variable {s s' : Scene} {e : WatchEvent} {o : Object} {r : Ref} {changes : List Change}

/-! ### What each event does -/

/-- Nothing is stored before the first listing is complete. -/
def Fresh (s : Scene) : Prop := s.observer.listed = false → s.store.objects = .empty

theorem fresh_of_listed (hl : s.observer.listed = true) : s.Fresh := by simp [Fresh, hl]

instance decidableEqEmpty : ∀ os : Objects, Decidable (os = .empty)
  | ⟨[], _⟩ => isTrue rfl
  | ⟨_ :: _, _⟩ => isFalse nofun

instance (s : Scene) : Decidable s.Fresh :=
  inferInstanceAs (Decidable (_ = false → s.store.objects = .empty))

/-- What is found of an object that is listed or applied, by its predecessor. -/
def finding? (always : Bool) (old? : Option Object) (o : Object) : Option Finding :=
  match old? with
  | none => some ⟨.create, o, none⟩
  | some old =>
    if !always && old.metadata.resourceVersion = o.metadata.resourceVersion then none
    else some ⟨.update, o, some old⟩

theorem take_listing :
    s.take .listing =
      .ok ([], ⟨{ s.observer with relisted := .empty }, { s.store with listed := .empty }⟩) := rfl

/-- The changes of an event are those of its findings. -/
theorem take_of {found : List Finding} {store : Store}
    (hf : s.observer.findings s.store e = .ok found) (ha : s.store.apply e = .ok store) :
    s.take e = .ok (found.filterMap s.observer.change?, ⟨s.observer.next e, store⟩) := by
  simp only [take, Observer.observe, hf, ha, bind, Except.bind, pure, Except.pure]

/-- What an event does that can be taken. -/
theorem take_eq_ok (h : s.take e = .ok (changes, s')) :
    (∃ found, s.observer.findings s.store e = .ok found ∧
      changes = found.filterMap s.observer.change?) ∧
    s'.observer = s.observer.next e ∧ s.store.apply e = .ok s'.store := by
  simp only [take, Observer.observe, bind, Except.bind, pure, Except.pure] at h
  split at h
  · cases h
  · next seen hseen =>
    split at hseen
    · cases hseen
    · next found hf =>
      cases hseen
      split at h
      · cases h
      · next store ha =>
        cases h
        exact ⟨⟨found, hf, rfl⟩, rfl, ha⟩

/-- What an event that shows an object does to what is stored and collected. -/
theorem store_of_take (h : s.take e = .ok (changes, s')) (ho : e.object? = some o)
    (hr : o.ref = .ok r) :
    (s'.store.objects = s.store.objects ∧ s'.store.listed = s.store.listed.insert r o ∧
        e = .listed o) ∨
      (s'.store.objects = s.store.objects.insert r o ∧ s'.store.listed = s.store.listed ∧
        e = .applied o) ∨
      (s'.store.objects = s.store.objects.erase r ∧ s'.store.listed = s.store.listed ∧
        e = .deleted o) := by
  obtain ⟨-, -, ha⟩ := take_eq_ok h
  cases e with
  | listing | complete => cases ho
  | listed q =>
    cases ho
    rw [Store.apply_listed _ hr] at ha
    rw [← Except.ok.inj ha]
    exact .inl ⟨rfl, rfl, rfl⟩
  | applied q =>
    cases ho
    rw [Store.apply_applied _ hr] at ha
    rw [← Except.ok.inj ha]
    exact .inr (.inl ⟨rfl, rfl, rfl⟩)
  | deleted q =>
    cases ho
    rw [Store.apply_deleted _ hr] at ha
    rw [← Except.ok.inj ha]
    exact .inr (.inr ⟨rfl, rfl, rfl⟩)

/-- What is found of an object is a create without a predecessor, or an update from it. -/
theorem finding?_cases {always : Bool} {old? : Option Object} {f : Finding}
    (hf : finding? always old? o = some f) :
    old? = none ∧ f = ⟨.create, o, none⟩ ∨ ∃ old, old? = some old ∧ f = ⟨.update, o, some old⟩ := by
  cases old? with
  | none => exact .inl ⟨rfl, (Option.some.inj hf).symm⟩
  | some old =>
    simp only [finding?] at hf
    split at hf
    · cases hf
    · exact .inr ⟨old, rfl, (Option.some.inj hf).symm⟩

theorem object_of_finding? {always : Bool} {old? : Option Object} {f : Finding}
    (hf : finding? always old? o = some f) : f.object = o := by
  obtain ⟨-, rfl⟩ | ⟨old, -, rfl⟩ := finding?_cases hf <;> rfl

theorem findings_applied (w : Observer) (store : Store) (o : Object) :
    w.findings store (.applied o) =
      (store.predecessor? o).map fun old? => (finding? true old? o).toList := by
  simp only [Observer.findings, bind, Except.bind]
  rcases store.predecessor? o with _ | (_ | old) <;> rfl

theorem findings_listed (w : Observer) (store : Store) (o : Object) :
    w.findings store (.listed o) =
      if w.listed then (store.predecessor? o).map fun old? => (finding? false old? o).toList
      else .ok [⟨.create, o, none⟩] := by
  cases hl : w.listed with
  | false => simp only [Observer.findings, hl]; rfl
  | true =>
    simp only [Observer.findings, hl, bind, Except.bind]
    rcases store.predecessor? o with _ | (_ | old)
    · rfl
    · rfl
    · by_cases hv : old.metadata.resourceVersion = o.metadata.resourceVersion <;>
        simp [finding?, hv, Except.map, pure, Except.pure]

/-- Where a finding comes from: the first listing, a comparison with the predecessor, a deletion, or
the end of a listing. -/
theorem findings_cases {w : Observer} {store : Store} {found : List Finding} {f : Finding}
    (hf : w.findings store e = .ok found) (hmem : f ∈ found) :
    (∃ o, e = .listed o ∧ w.listed = false ∧ f = ⟨.create, o, none⟩) ∨
      (∃ o always old?, (e = .listed o ∨ e = .applied o) ∧ store.predecessor? o = .ok old? ∧
        finding? always old? o = some f) ∨
      (∃ o, e = .deleted o ∧ f = ⟨.delete, o, none⟩) ∨
      e = .complete ∧ f ∈ w.vanished store := by
  cases e with
  | listing =>
    cases hf
    cases hmem
  | deleted o =>
    cases hf
    exact .inr (.inr (.inl ⟨o, rfl, List.mem_singleton.1 hmem⟩))
  | complete =>
    simp only [Observer.findings] at hf
    split at hf <;> cases hf
    · exact .inr (.inr (.inr ⟨rfl, hmem⟩))
    · cases hmem
  | applied o =>
    rw [findings_applied] at hf
    cases hp : store.predecessor? o with
    | error => rw [hp] at hf; cases hf
    | ok old? =>
      rw [hp] at hf
      cases hf
      exact .inr (.inl ⟨o, true, old?, .inr rfl, hp, Option.mem_toList.1 hmem⟩)
  | listed o =>
    rw [findings_listed] at hf
    split at hf
    · cases hp : store.predecessor? o with
      | error => rw [hp] at hf; cases hf
      | ok old? =>
        rw [hp] at hf
        cases hf
        exact .inr (.inl ⟨o, false, old?, .inl rfl, hp, Option.mem_toList.1 hmem⟩)
    · next hl =>
      cases hf
      exact .inl ⟨o, rfl, Bool.not_eq_true _ ▸ hl, List.mem_singleton.1 hmem⟩

/-- What an event shows of an object is found of that object. -/
theorem object_of_findings {w : Observer} {store : Store} {found : List Finding}
    (hf : w.findings store e = .ok found) (ho : e.object? = some o) :
    ∀ f ∈ found, f.object = o := by
  intro f hmem
  obtain ⟨p, rfl, -, rfl⟩ | ⟨p, _, _, he, -, hfound⟩ | ⟨p, rfl, rfl⟩ | ⟨rfl, -⟩ :=
    findings_cases hf hmem
  · exact Option.some.inj ho
  · rw [object_of_finding? hfound]
    rcases he with rfl | rfl <;> exact Option.some.inj ho
  · exact Option.some.inj ho
  · cases ho

/-- The changes of an event that shows an object have the key of the object. -/
theorem key_of_take (h : s.take e = .ok (changes, s')) (ho : e.object? = some o) :
    ∀ c ∈ changes, o.key? = some c.key := by
  obtain ⟨⟨found, hf, rfl⟩, -⟩ := take_eq_ok h
  intro c hc
  obtain ⟨f, hmem, hchange⟩ := List.mem_filterMap.1 hc
  rw [Observer.change?, object_of_findings hf ho f hmem, Option.map_eq_some_iff] at hchange
  obtain ⟨key, hk, rfl⟩ := hchange
  exact hk

theorem change?_of_ref (w : Observer) {f : Finding} (ho : f.object.ref = .ok r) (hr : r.Plain) :
    w.change? f = some (w.changeAt f r.key) := by
  rw [Observer.change?, Object.key?_of_ref ho hr, Option.map_some]

theorem filterMap_finding? (w : Observer) {always : Bool} {old? : Option Object}
    (ho : o.ref = .ok r) (hr : r.Plain) :
    (finding? always old? o).toList.filterMap w.change? =
      (finding? always old? o).toList.map (w.changeAt · r.key) := by
  cases hf : finding? always old? o with
  | none => rfl
  | some f =>
    have hobj : f.object = o := object_of_finding? hf
    simp [change?_of_ref w (hobj ▸ ho) hr]

theorem predecessor?_of_ref (store : Store) (ho : o.ref = .ok r) :
    store.predecessor? o = .ok (store.objects.find? r) := by
  simp only [Store.predecessor?, ho, bind, Except.bind, pure, Except.pure]

theorem take_listed (hs : s.Fresh) (ho : o.ref = .ok r) (hr : r.Plain) :
    s.take (.listed o) =
      .ok ((finding? false (s.store.objects.find? r) o).toList.map (s.observer.changeAt · r.key),
        ⟨s.observer.next (.listed o), { s.store with listed := s.store.listed.insert r o }⟩) := by
  have hf : s.observer.findings s.store (.listed o) =
      .ok (finding? false (s.store.objects.find? r) o).toList := by
    rw [findings_listed, predecessor?_of_ref _ ho]
    split
    · rfl
    · next hl =>
      -- before the first listing is complete there is no predecessor
      rw [hs (Bool.not_eq_true _ ▸ hl)]
      rfl
  rw [take_of hf (Store.apply_listed _ ho), filterMap_finding? _ ho hr]

theorem take_applied (ho : o.ref = .ok r) (hr : r.Plain) :
    s.take (.applied o) =
      .ok ((finding? true (s.store.objects.find? r) o).toList.map (s.observer.changeAt · r.key),
        ⟨s.observer, { s.store with objects := s.store.objects.insert r o }⟩) := by
  have hf : s.observer.findings s.store (.applied o) =
      .ok (finding? true (s.store.objects.find? r) o).toList := by
    rw [findings_applied, predecessor?_of_ref _ ho]
    rfl
  rw [take_of hf (Store.apply_applied _ ho), filterMap_finding? _ ho hr]
  rfl

theorem take_deleted (ho : o.ref = .ok r) (hr : r.Plain) :
    s.take (.deleted o) =
      .ok ([s.observer.changeAt ⟨.delete, o, none⟩ r.key],
        ⟨s.observer, { s.store with objects := s.store.objects.erase r }⟩) := by
  have hf : s.observer.findings s.store (.deleted o) = .ok [⟨.delete, o, none⟩] := rfl
  rw [take_of hf (Store.apply_deleted _ ho),
    List.filterMap_cons_some (change?_of_ref _ (f := ⟨.delete, o, none⟩) ho hr)]
  rfl

theorem take_complete (hs : s.Fresh) :
    s.take .complete =
      .ok ((s.observer.vanished s.store).filterMap s.observer.change?,
        ⟨{ s.observer with listed := true, relisted := .empty },
          ⟨s.store.listed, .empty, true⟩⟩) := by
  have hf : s.observer.findings s.store .complete = .ok (s.observer.vanished s.store) := by
    cases hl : s.observer.listed with
    | false =>
      simp [Observer.findings, hl, Observer.vanished, hs hl, Objects.toList, Objects.empty]
    | true => simp only [Observer.findings, hl, if_true]
  rw [take_of hf rfl]
  rfl

end Scene

end ClusterHerald
