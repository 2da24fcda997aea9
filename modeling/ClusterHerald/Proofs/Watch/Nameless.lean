import ClusterHerald.Proofs.Watch.Scene
import ClusterHerald.Watch

/-!
# Objects without a name

An object whose name is empty has no key.  It is skipped: nothing is reported of it, and although
it is stored, at a reference of its own, no object with a name is ever compared with it.  So a watch
goes on as if it had not been shown.

An object whose name is missing has no reference either.  It can neither be looked for nor be
stored, and a watch that is shown one ends.

* `Scene.take_named` : what is stored of objects without a name makes no difference to the others;
* `Scene.take_of_not_named` : an object with an empty name is skipped;
* `Watch.learn_of_follow` : a watch goes on as long as its scene follows;
* `Watch.undisturbed_iff_names_present` : a watch is not disturbed exactly if no name is missing.
-/

namespace ClusterHerald

/-- The object of the event, if there is one, has a key. -/
def WatchEvent.isNamed (e : WatchEvent) : Bool :=
  e.object?.all (·.key?.isSome)

/-- The object of the event, if there is one, has a name, which may be empty. -/
def WatchEvent.NamePresent (e : WatchEvent) : Prop :=
  ∀ o, e.object? = some o → o.metadata.name ≠ none

theorem Object.exists_ref_of_name {o : Object} (h : o.metadata.name ≠ none) :
    ∃ r, o.ref = .ok r := by
  cases hn : o.metadata.name with
  | none => exact absurd hn h
  | some name => exact ⟨⟨o.metadata.namespaceName, name⟩, by simp only [ref, hn]⟩

/-- An object with a reference has a key unless its name is empty. -/
theorem Object.key?_isSome_iff {o : Object} {r : Ref} (ho : o.ref = .ok r) :
    o.key?.isSome = true ↔ r.name ≠ "" := by
  simp only [ref] at ho
  split at ho
  · next name hn =>
    cases ho
    by_cases he : name = "" <;> simp [key?, hn, he]
  · cases ho

namespace Objects

variable {os : Objects} {o : Object} {r s : Ref}

/-- The objects with a name. -/
def named (os : Objects) : Objects :=
  ⟨os.entries.filter fun e => e.1.name ≠ "", by
    have := os.nodup
    exact (List.filter_sublist.map Prod.fst).nodup this⟩

/-- Every object is filed under its own reference. -/
def Own (os : Objects) : Prop :=
  ∀ e ∈ os.entries, e.2.ref = .ok e.1

theorem own_empty : empty.Own := fun _ h => absurd h List.not_mem_nil

theorem Own.erase (h : os.Own) (r : Ref) : (os.erase r).Own :=
  fun e he => h e (List.mem_filter.1 he).1

theorem Own.insert (h : os.Own) (ho : o.ref = .ok r) : (os.insert r o).Own := by
  intro e he
  rcases List.mem_cons.1 he with rfl | he
  · exact ho
  · exact h.erase r e he

theorem ext_entries {os os' : Objects} (h : os.entries = os'.entries) : os = os' := by
  obtain ⟨es, hes⟩ := os
  obtain ⟨es', hes'⟩ := os'
  obtain rfl : es = es' := h
  rfl

theorem find?_named (hr : r.name ≠ "") : os.named.find? r = os.find? r := by
  have hget (s : Ref) (hs : s.name ≠ "") : os.named.get? s = os.get? s := by
    rw [get?, named, lookup_filter_key fun t : Ref => t.name ≠ ""]
    simp [get?, hs]
  -- without its namespace a reference has the same name
  simp only [find?, hget r hr, hget { r with namespaceName := none } hr]

theorem named_erase (os : Objects) (r : Ref) : (os.erase r).named = os.named.erase r := by
  refine ext_entries ?_
  simp only [named, erase, List.filter_filter, Bool.and_comm]

theorem named_erase_of_empty (hr : r.name = "") : (os.erase r).named = os.named := by
  refine ext_entries ?_
  simp only [named, erase, List.filter_filter]
  refine List.filter_congr fun e _ => ?_
  by_cases he : e.1.name = ""
  · simp [he]
  · have hne : e.1 ≠ r := fun h => he (h ▸ hr)
    simp [he, hne]

theorem named_insert (hr : r.name ≠ "") : (os.insert r o).named = os.named.insert r o := by
  refine ext_entries ?_
  have h := congrArg entries (named_erase os r)
  simp only [named, insert] at h ⊢
  rw [List.filter_cons_of_pos (by simpa using hr), h]

theorem named_insert_of_empty (hr : r.name = "") : (os.insert r o).named = os.named := by
  refine (ext_entries ?_).trans (named_erase_of_empty hr)
  simp only [named, insert]
  rw [List.filter_cons_of_neg (by simpa using hr)]

/-- What is kept of objects with a key is the same without the others. -/
theorem Own.filter_toList_named (h : os.Own) {p : Object → Bool}
    (hp : ∀ o, p o = true → o.key?.isSome = true) :
    os.named.toList.filter p = os.toList.filter p := by
  simp only [toList, named, List.filter_map]
  rw [List.filter_filter]
  refine congrArg _ (List.filter_congr fun e he => ?_)
  cases hpe : p e.2 with
  | false => simp [hpe]
  | true =>
    have hname := (Object.key?_isSome_iff (h e he)).1 (hp e.2 hpe)
    simp [hpe, hname]

end Objects

namespace Scene

variable {s s' : Scene} {e : WatchEvent} {o : Object} {r : Ref} {changes : List Change}
  {events : List WatchEvent}

/-- The scene without the objects that have no name. -/
def named (s : Scene) : Scene :=
  ⟨s.observer, ⟨s.store.objects.named, s.store.listed.named, s.store.ready⟩⟩

theorem named_start (kind : WatchedKind) : (start kind).named = start kind := rfl

/-- What is stored, and what a listing has collected, is filed under its own references. -/
structure Own (s : Scene) : Prop where
  stored : s.store.objects.Own
  collected : s.store.listed.Own

theorem own_start (kind : WatchedKind) : (start kind).Own :=
  ⟨Objects.own_empty, Objects.own_empty⟩

theorem Own.take (h : s.Own) (ht : s.take e = .ok (changes, s')) : s'.Own := by
  obtain ⟨-, -, ha⟩ := take_eq_ok ht
  have hkept := Store.keeps_of_apply (p := Objects.Own) Objects.own_empty
    (fun _ _ _ _ hr hos => hos.insert hr) (fun r _ hos => hos.erase r) ha
    ⟨h.stored, h.collected⟩
  exact ⟨hkept.1, hkept.2⟩

/-- What an event shows of an object depends on the store by the predecessor alone. -/
theorem findings_of_find? {w : Observer} {store store' : Store} (he : e.object? = some o)
    (ho : o.ref = .ok r) (hfind : store'.objects.find? r = store.objects.find? r) :
    w.findings store' e = w.findings store e := by
  cases e with
  | listing | complete => cases he
  | deleted q => rfl
  | applied q =>
    cases he
    rw [findings_applied, findings_applied, predecessor?_of_ref _ ho, predecessor?_of_ref _ ho,
      hfind]
  | listed q =>
    cases he
    rw [findings_listed, findings_listed, predecessor?_of_ref _ ho, predecessor?_of_ref _ ho,
      hfind]

theorem exists_findings (w : Observer) (store : Store) (he : e.object? = some o)
    (ho : o.ref = .ok r) : ∃ found, w.findings store e = .ok found := by
  cases e with
  | listing | complete => cases he
  | deleted q => exact ⟨_, rfl⟩
  | applied q =>
    cases he
    exact ⟨_, by rw [findings_applied, predecessor?_of_ref _ ho]; rfl⟩
  | listed q =>
    cases he
    rw [findings_listed, predecessor?_of_ref _ ho]
    split <;> exact ⟨_, rfl⟩

/-- What is stored of an object, by its event. -/
def stored (r : Ref) (o : Object) (store : Store) : WatchEvent → Store
  | .listed _ => { store with listed := store.listed.insert r o }
  | .applied _ => { store with objects := store.objects.insert r o }
  | .deleted _ => { store with objects := store.objects.erase r }
  | .listing | .complete => store

theorem apply_of_ref (store : Store) (he : e.object? = some o) (ho : o.ref = .ok r) :
    store.apply e = .ok (stored r o store e) := by
  cases e with
  | listing | complete => cases he
  | listed q =>
    cases he
    exact Store.apply_listed _ ho
  | applied q =>
    cases he
    exact Store.apply_applied _ ho
  | deleted q =>
    cases he
    exact Store.apply_deleted _ ho

/-- The deletions at the end of a listing are those of objects with a name. -/
theorem vanished_named (h : s.Own) (w : Observer) :
    w.vanished s.named.store = w.vanished s.store := by
  simp only [Observer.vanished, named]
  rw [h.stored.filter_toList_named]
  intro o ho
  cases hk : o.key? with
  | none => simp [hk] at ho
  | some key => rfl

/-- An event without a nameless object is taken, and what was stored of nameless objects before
makes no difference. -/
theorem take_named (h : s.Own) (hn : e.isNamed = true) :
    ∃ changes s', s.take e = .ok (changes, s') ∧ s.named.take e = .ok (changes, s'.named) := by
  cases he : e.object? with
  | none =>
    cases e with
    | listing => exact ⟨_, _, rfl, rfl⟩
    | complete =>
      obtain ⟨found, hf⟩ : ∃ found, s.observer.findings s.store .complete = .ok found := ⟨_, rfl⟩
      have hf' : s.named.observer.findings s.named.store .complete = .ok found := by
        rw [← hf]
        simp only [Observer.findings, vanished_named h]
        rfl
      exact ⟨_, _, take_of hf rfl, take_of hf' rfl⟩
    | listed q | applied q | deleted q => cases he
  | some o =>
    have hk : o.key?.isSome = true := by simpa [WatchEvent.isNamed, he] using hn
    obtain ⟨r, ho⟩ := Object.exists_ref_of_name (o := o) fun hnone => by
      simp [Object.key?, hnone] at hk
    have hr : r.name ≠ "" := (Object.key?_isSome_iff ho).1 hk
    obtain ⟨found, hf⟩ := exists_findings s.observer s.store he ho
    have hf' : s.named.observer.findings s.named.store e = .ok found :=
      (findings_of_find? he ho (Objects.find?_named hr)).trans hf
    have hstored : stored r o s.named.store e = (named ⟨s.observer, stored r o s.store e⟩).store := by
      cases e <;> simp [stored, named, Objects.named_insert hr, Objects.named_erase]
    refine ⟨_, _, take_of hf (apply_of_ref _ he ho), ?_⟩
    rw [take_of hf' (apply_of_ref _ he ho), hstored]
    rfl

/-- An object with an empty name is skipped: nothing is reported of it, and nothing changes among
the objects with a name. -/
theorem take_of_not_named (hn : e.isNamed = false) (hp : e.NamePresent) :
    ∃ s', s.take e = .ok ([], s') ∧ s'.named = s.named := by
  obtain ⟨o, he⟩ : ∃ o, e.object? = some o := by
    cases he : e.object? with
    | none => simp [WatchEvent.isNamed, he] at hn
    | some o => exact ⟨o, rfl⟩
  have hk : o.key? = none := by simpa [WatchEvent.isNamed, he] using hn
  obtain ⟨r, ho⟩ := Object.exists_ref_of_name (hp o he)
  have hr : r.name = "" := by
    have hnot := mt (Object.key?_isSome_iff ho).2 (by simp [hk])
    exact Decidable.not_not.1 hnot
  obtain ⟨found, hf⟩ := exists_findings s.observer s.store he ho
  have hchanges : found.filterMap s.observer.change? = [] := by
    refine List.filterMap_eq_nil_iff.2 fun f hmem => ?_
    rw [Observer.change?, object_of_findings hf he f hmem, hk]
    rfl
  -- not even the versions are noted, as these are kept by key
  have hnext : s.observer.next e = s.observer := by
    cases e <;> cases he <;> simp [Observer.next, hk]
  refine ⟨_, by rw [take_of hf (apply_of_ref _ he ho), hchanges], ?_⟩
  rw [hnext]
  cases e <;> cases he <;>
    simp [stored, named, Objects.named_insert_of_empty hr, Objects.named_erase_of_empty hr]

/-- If no name is missing, a run goes through, and it comes to the same changes without the events
that show an object with an empty name. -/
theorem follow_named (h : s.Own) (hp : ∀ e ∈ events, e.NamePresent) :
    ∃ changes s', s.follow events = .ok (changes, s') ∧
      s.named.follow (events.filter (·.isNamed)) = .ok (changes, s'.named) ∧ s'.Own := by
  induction events generalizing s with
  | nil => exact ⟨[], s, rfl, rfl, h⟩
  | cons e events ih =>
    have hrest : ∀ e ∈ events, e.NamePresent := fun e he => hp e (List.mem_cons_of_mem _ he)
    cases hn : e.isNamed with
    | true =>
      obtain ⟨first, mid, htake, htake'⟩ := take_named h hn
      obtain ⟨rest, s', hfollow, hfollow', hown⟩ := ih (h.take htake) hrest
      rw [List.filter_cons_of_pos hn]
      exact ⟨first ++ rest, s', follow_cons_eq_ok_iff.2 ⟨_, _, _, htake, hfollow, rfl⟩,
        follow_cons_eq_ok_iff.2 ⟨_, _, _, htake', hfollow', rfl⟩, hown⟩
    | false =>
      obtain ⟨mid, htake, hmid⟩ := take_of_not_named (s := s) hn (hp e List.mem_cons_self)
      obtain ⟨rest, s', hfollow, hfollow', hown⟩ := ih (h.take htake) hrest
      rw [List.filter_cons_of_neg (by simp [hn]), ← hmid]
      exact ⟨rest, s', follow_cons_eq_ok_iff.2 ⟨[], mid, rest, htake, hfollow, rfl⟩, hfollow', hown⟩

/-- A run that goes through shows no object whose name is missing. -/
theorem namePresent_of_follow (h : s.follow events = .ok (changes, s')) :
    ∀ e ∈ events, e.NamePresent := by
  induction events generalizing s changes with
  | nil => exact fun _ he => nomatch he
  | cons e events ih =>
    obtain ⟨first, mid, rest, htake, hfollow, -⟩ := follow_cons_eq_ok_iff.1 h
    intro e' he'
    rcases List.mem_cons.1 he' with rfl | he'
    · intro o ho hnone
      obtain ⟨r, hr⟩ := Store.exists_ref_of_apply (take_eq_ok htake).2.2 ho
      simp [Object.ref, hnone] at hr
    · exact ih hfollow e' he'

end Scene

/-! ### The watch -/

theorem Pipeline.exists_watch {p : Pipeline} {e : WatchEvent} {changes : List Change} {s : Scene}
    (h : Scene.take ⟨p.observer, p.store⟩ e = .ok (changes, s)) :
    ∃ log, p.watch e =
      .ok ⟨changes, log, { p with observer := s.observer, store := s.store }.enqueue changes⟩ := by
  simp only [Scene.take, bind, Except.bind, pure, Except.pure] at h
  simp only [watch, bind, Except.bind, pure, Except.pure]
  cases hseen : p.observer.observe p.store e with
  | error => simp [hseen] at h
  | ok seen =>
    cases hstore : p.store.apply e with
    | error => simp [hseen, hstore] at h
    | ok store =>
      simp only [hseen, hstore, Except.ok.injEq, Prod.mk.injEq] at h
      obtain ⟨rfl, rfl⟩ := h
      exact ⟨_, rfl⟩

namespace Watch

/-- The watch after it has learned of events. -/
def learn (w : Watch) (events : List WatchEvent) : Watch :=
  (events.map FeedStep.learned).foldl step w

/-- As long as its scene follows, a watch enqueues and counts the changes, and goes on. -/
theorem learn_of_follow {w : Watch} (hb : w.broken = false) {events : List WatchEvent}
    {changes : List Change} {s : Scene}
    (h : Scene.follow ⟨w.pipeline.observer, w.pipeline.store⟩ events = .ok (changes, s)) :
    w.learn events = { w with
      pipeline :=
        { w.pipeline with observer := s.observer, store := s.store }.enqueue changes
      counters := w.counters.observeAll changes } := by
  induction events generalizing w changes with
  | nil =>
    cases h
    rfl
  | cons e events ih =>
    obtain ⟨first, mid, rest, htake, hfollow, rfl⟩ := Scene.follow_cons_eq_ok_iff.1 h
    obtain ⟨log, hwatch⟩ := Pipeline.exists_watch htake
    let next : Watch := { w with
      pipeline := { w.pipeline with observer := mid.observer, store := mid.store }.enqueue first
      counters := w.counters.observeAll first }
    have hgoes : ¬ w.broken = true := by simp [hb]
    have hstep : w.step (.learned e) = next := by
      simp only [step, if_neg hgoes, hwatch]
      rfl
    -- the first event is learned, and then the rest by the watch after it
    show (w.step (.learned e)).learn events = _
    rw [hstep, ih (w := next) hb hfollow]
    simp only [next, Pipeline.enqueue, Counters.observeAll, List.foldl_append]

/-- Events that show an object without a key disturb neither the watch nor what it reports of the
other objects. -/
structure Undisturbed (p : Pipeline) (events : List WatchEvent) : Prop where
  goesOn : ((start p).learn events).broken = false
  /-- Nothing is reported of an object without a key. -/
  silent : ∀ before e after, events = before ++ e :: after → e.isNamed = false →
    ∃ changes s s', Scene.follow ⟨p.observer, p.store⟩ before = .ok (changes, s) ∧
      s.take e = .ok ([], s')
  /-- The changes are the same without these events. -/
  changes : ∃ changes s s', Scene.follow ⟨p.observer, p.store⟩ events = .ok (changes, s) ∧
    Scene.follow ⟨p.observer, p.store⟩ (events.filter (·.isNamed)) = .ok (changes, s')
  queue : ((start p).learn events).pipeline.queue =
    ((start p).learn (events.filter (·.isNamed))).pipeline.queue
  counters : ((start p).learn events).counters =
    ((start p).learn (events.filter (·.isNamed))).counters

/-- **A watch is not disturbed exactly if no name is missing.**  Whatever events a watch learns of,
it goes on after those that show an object without a key, reports nothing of such an object, and
reports, enqueues and counts the same changes of all others as without these events, exactly if
every object that it is shown has a name; an empty name will do. -/
theorem undisturbed_iff_names_present (worker : Worker) (memory : Option MemoryCache)
    (syncLimit : Option Nat) (events : List WatchEvent) :
    Undisturbed (.start worker memory syncLimit) events ↔ ∀ e ∈ events, e.NamePresent := by
  constructor
  · intro h
    obtain ⟨changes, s, s', hfollow, -⟩ := h.changes
    exact Scene.namePresent_of_follow hfollow
  · intro hp
    have hstart := Scene.own_start worker.kind
    obtain ⟨changes, s, hfollow, hfollow', -⟩ := Scene.follow_named hstart hp
    rw [Scene.named_start] at hfollow'
    have hw := learn_of_follow (w := start (.start worker memory syncLimit)) rfl hfollow
    have hw' := learn_of_follow (w := start (.start worker memory syncLimit)) rfl hfollow'
    refine ⟨by rw [hw]; rfl, ?_, ⟨changes, s, _, hfollow, hfollow'⟩, ?_, by rw [hw, hw']⟩
    · rintro before e after rfl hn
      have hbefore : ∀ e ∈ before, e.NamePresent := fun e he => hp e (List.mem_append_left _ he)
      have he := hp e (List.mem_append_right _ List.mem_cons_self)
      obtain ⟨first, mid, hmid, -, -⟩ := Scene.follow_named hstart hbefore
      obtain ⟨mid', htake, -⟩ := Scene.take_of_not_named (s := mid) hn he
      exact ⟨first, mid, mid', hmid, htake⟩
    · rw [hw, hw']
      rfl

/-- Pods with an empty name are skipped when they are listed, created, deleted and listed again. -/
theorem empty_name_skipped :
    let worker : Worker := ⟨⟨"Pod", "", "v1", "pods", true, none, .empty⟩, default, []⟩
    let pod (name : String) : Object := ⟨none, { name, namespaceName := "a" }, []⟩
    let events : List WatchEvent :=
      [.listing, .listed (pod ""), .complete, .applied (pod ""), .applied (pod "x"),
        .deleted (pod ""), .listing, .listed (pod ""), .listed (pod "x"), .complete]
    (∀ e ∈ events, e.NamePresent) ∧ (events.filter (!·.isNamed)).length = 4 ∧
      Undisturbed (.start worker none none) events := by
  intro worker pod events
  have hp : ∀ e ∈ events, e.NamePresent := by
    simp [events, WatchEvent.NamePresent, WatchEvent.object?, pod]
  exact ⟨hp, by decide +kernel, (undisturbed_iff_names_present worker none none events).2 hp⟩

/-- A pod without a name ends the watch, and the creation of the next pod is not reported. -/
theorem missing_name_ends_watch :
    ¬ ∀ (worker : Worker) (memory : Option MemoryCache) (syncLimit : Option Nat)
      (events : List WatchEvent), Undisturbed (.start worker memory syncLimit) events := by
  intro h
  let worker : Worker := ⟨⟨"Pod", "", "v1", "pods", true, none, .empty⟩, default, []⟩
  let pod (name : Option String) : Object := ⟨none, { name, namespaceName := "bar" }, []⟩
  let events : List WatchEvent :=
    [.listing, .complete, .applied (pod none), .applied (pod "x")]
  have hends : ((start (.start worker none none)).learn events).broken = true := by
    decide +kernel
  have hgoes := (h worker none none events).goesOn
  rw [hends] at hgoes
  cases hgoes

end Watch

end ClusterHerald
