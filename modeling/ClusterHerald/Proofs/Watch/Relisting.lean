import ClusterHerald.Proofs.Watch.Mirror
import Mathlib.Data.List.Nodup

/-!
# Listing again

A listing after the first one ought to report the difference between what is stored and what it
shows (`Observer.Tells`): of every key one change, from the stored object to the listed one, unless
both are of one version, and nothing else.

* `Scene.reports_listing` : the changes of a listing, key by key, whatever its order is;
* `Observer.tells_iff` : they are the difference exactly if every listed object finds its own
  predecessor, and not a namesake without a namespace;
* `Scene.relisting_tells_iff` : both together, and that the store holds the listing afterwards.
-/

namespace ClusterHerald

/-! ### Objects by key -/

/-- The object of a key. -/
def withKey? (os : List Object) (key : String) : Option Object :=
  os.find? fun o => o.key? = some key

section

variable {os os' : List Object} {o : Object} {key : String}

theorem withKey?_cons :
    withKey? (o :: os) key = if o.key? = some key then some o else withKey? os key := by
  by_cases hk : o.key? = some key <;> simp [withKey?, hk]

theorem mem_of_withKey? (h : withKey? os key = some o) : o ∈ os ∧ o.key? = some key := by
  have hk := List.find?_some h
  exact ⟨List.mem_of_find?_eq_some h, by simpa using hk⟩

theorem withKey?_eq_none_iff : withKey? os key = none ↔ ∀ o ∈ os, o.key? ≠ some key := by
  simp [withKey?, List.find?_eq_none]

theorem withKey?_eq_some_iff (hd : (os.map Object.key?).Nodup) :
    withKey? os key = some o ↔ o ∈ os ∧ o.key? = some key := by
  refine ⟨mem_of_withKey?, fun ⟨ho, hk⟩ => ?_⟩
  cases h : withKey? os key with
  | none => exact absurd hk (withKey?_eq_none_iff.1 h o ho)
  | some p =>
    obtain ⟨hp, hpk⟩ := mem_of_withKey? h
    rw [List.inj_on_of_nodup_map hd hp ho (hpk.trans hk.symm)]

theorem withKey?_perm (h : os.Perm os') (hd : (os.map Object.key?).Nodup) :
    withKey? os key = withKey? os' key := by
  refine Option.ext fun o => ?_
  rw [withKey?_eq_some_iff hd, withKey?_eq_some_iff ((h.map _).nodup_iff.1 hd), h.mem_iff]

/-- If every object gives at most one change, of its own key, the changes of a key are that of its
object. -/
theorem filter_filterMap_of_nodup {report : Object → Option Change}
    (hd : (os.map Object.key?).Nodup)
    (hreport : ∀ o ∈ os, ∀ c, report o = some c → o.key? = some c.key) (key : String) :
    (os.filterMap report).filter (·.key = key) = ((withKey? os key).bind report).toList := by
  induction os with
  | nil => rfl
  | cons o os ih =>
    obtain ⟨hnew, hd⟩ := List.nodup_cons.1 hd
    have ih := ih hd fun p hp => hreport p (List.mem_cons_of_mem o hp)
    have hkey := hreport o List.mem_cons_self
    rw [withKey?_cons]
    by_cases hk : o.key? = some key
    · have hrest : withKey? os key = none :=
        withKey?_eq_none_iff.2 fun p hp hpk => hnew (hk ▸ hpk ▸ List.mem_map_of_mem hp)
      rw [hrest] at ih
      rw [if_pos hk, Option.bind_some]
      cases hr : report o with
      | none => rw [List.filterMap_cons_none hr, ih]; rfl
      | some c =>
        have hc : c.key = key := Option.some.inj ((hkey c hr).symm.trans hk)
        rw [List.filterMap_cons_some hr, List.filter_cons_of_pos (by simpa using hc), ih]
        rfl
    · rw [if_neg hk, ← ih]
      cases hr : report o with
      | none => rw [List.filterMap_cons_none hr]
      | some c =>
        have hc : c.key ≠ key := fun hc => hk (hc ▸ hkey c hr)
        rw [List.filterMap_cons_some hr, List.filter_cons_of_neg (by simpa using hc)]

/-- Lists with the same changes of every key have the same changes. -/
theorem perm_of_filter_key {changes changes' : List Change}
    (h : ∀ key, changes.filter (·.key = key) = changes'.filter (·.key = key)) :
    changes.Perm changes' := by
  classical
  refine List.perm_iff_count.2 fun c => ?_
  have hcount (l : List Change) : (l.filter (·.key = c.key)).count c = l.count c :=
    List.count_filter (decide_eq_true rfl)
  rw [← hcount changes, h, hcount]

end

namespace Objects

variable {os : Objects} {o : Object} {r : Ref}

/-- Objects that are filed have different keys. -/
theorem Filed.nodup (h : os.Filed) : (os.toList.map Object.key?).Nodup := by
  have hkeys : os.toList.map Object.key? = (os.entries.map Prod.fst).map fun r => some r.key := by
    rw [toList, List.map_map, List.map_map]
    exact List.map_congr_left fun e he => Object.key?_of_ref (h e he).1 (h e he).2
  rw [hkeys]
  refine os.nodup.map_on fun r hr r' hr' hk => ?_
  obtain ⟨e, he, rfl⟩ := List.mem_map.1 hr
  obtain ⟨e', he', rfl⟩ := List.mem_map.1 hr'
  exact Ref.key_inj (h e he).2 (h e' he').2 (Option.some.inj hk)

/-- The key of a plain reference is that of the object which is filed there. -/
theorem Filed.withKey? (h : os.Filed) (hr : r.Plain) : withKey? os.toList r.key = os.get? r := by
  cases hg : os.get? r with
  | some o =>
    have he := mem_entries_of_get? hg
    exact (withKey?_eq_some_iff h.nodup).2
      ⟨List.mem_map.2 ⟨_, he, rfl⟩, Object.key?_of_ref (h _ he).1 hr⟩
  | none =>
    refine withKey?_eq_none_iff.2 fun o ho hk => ?_
    obtain ⟨⟨s, p⟩, he, rfl⟩ := List.mem_map.1 ho
    obtain ⟨hp, hs⟩ := h _ he
    have hkey : s.key = r.key := Option.some.inj ((Object.key?_of_ref hp hs).symm.trans hk)
    obtain rfl := Ref.key_inj hs hr hkey
    simpa using List.lookup_eq_none_iff.1 hg _ he

/-- An object at a new reference is one more. -/
theorem toList_insert (h : os.get? r = none) : (os.insert r o).toList = o :: os.toList := by
  have hsame : (os.erase r).entries = os.entries :=
    List.filter_eq_self.2 fun e he => decide_eq_true fun hr => by
      simpa [hr] using List.lookup_eq_none_iff.1 h e he
  rw [toList, insert, List.map_cons, hsame, toList]

end Objects

/-! ### The difference -/

namespace Observer

variable (w : Observer)

/-- The change of a key from one object to another, unless both are of one version. -/
def between (key : String) : Option Object → Option Object → Option Change
  | none, none => none
  | none, some new => some (w.changeAt ⟨.create, new, none⟩ key)
  | some old, none => some (w.changeAt ⟨.delete, old, none⟩ key)
  | some old, some new =>
    if old.metadata.resourceVersion = new.metadata.resourceVersion then none
    else some (w.changeAt ⟨.update, new, some old⟩ key)

/-- The changes tell the difference between two collections of objects: of every key they have the
change from its object in the one to its object in the other, once, and they have no others. -/
def Tells (changes : List Change) (old new : List Object) : Prop :=
  ∀ key, changes.filter (·.key = key) =
    (w.between key (withKey? old key) (withKey? new key)).toList

/-- What a later listing reports of an object that it shows. -/
def report? (stored : Objects) (o : Object) : Option Change :=
  match o.ref with
  | .ok r => (Scene.finding? false (stored.find? r) o).map (w.changeAt · r.key)
  | .error _ => none

/-- What a later listing reports of a stored object, if the listing lacks it. -/
def deletion? (o : Object) : Option Change :=
  o.key?.bind fun key =>
    if w.relisted.contains key then none else some (w.changeAt ⟨.delete, o, none⟩ key)

/-- What a later listing reports of a key, of which it shows the given object. -/
def reportAt (stored : Objects) (key : String) : Option Object → Option Change
  | some o => w.report? stored o
  | none => (withKey? stored.toList key).map fun old => w.changeAt ⟨.delete, old, none⟩ key

variable {w} {w' : Observer} {stored : Objects} {store : Store} {o : Object} {r : Ref}

theorem report?_of_ref (ho : o.ref = .ok r) :
    w.report? stored o =
      (Scene.finding? false (stored.find? r) o).map (w.changeAt · r.key) := by
  simp only [report?, ho]

/-- A change is of the kind of its observer, and depends on nothing else of it. -/
theorem changeAt_of_kind (h : w'.kind = w.kind) : w'.changeAt = w.changeAt := by
  funext f key
  simp only [changeAt, subtype?, h]

theorem report?_of_kind (h : w'.kind = w.kind) : w'.report? = w.report? := by
  funext stored o
  simp only [report?, changeAt_of_kind h]

theorem key_of_report? (ho : o.Plain) {c : Change} (h : w.report? stored o = some c) :
    o.key? = some c.key := by
  obtain ⟨r, ho, hr⟩ := ho
  rw [report?_of_ref ho, Option.map_eq_some_iff] at h
  obtain ⟨f, -, rfl⟩ := h
  exact Object.key?_of_ref ho hr

theorem deletion?_of_key {key : String} (h : o.key? = some key) :
    w.deletion? o =
      if w.relisted.contains key then none else some (w.changeAt ⟨.delete, o, none⟩ key) := by
  rw [deletion?, h, Option.bind_some]

theorem key_of_deletion? {c : Change} (h : w.deletion? o = some c) : o.key? = some c.key := by
  obtain ⟨key, hk, h⟩ := Option.bind_eq_some_iff.1 h
  split at h
  · cases h
  · cases h
    exact hk

/-- The end of a later listing reports the stored objects that it lacks, in some order. -/
theorem deletions_perm (w : Observer) (store : Store) :
    ((w.vanished store).filterMap w.change?).Perm
      (store.objects.toList.filterMap w.deletion?) := by
  simp only [vanished, List.filterMap_map]
  refine ((List.mergeSort_perm _ _).filterMap _).trans ?_
  rw [List.filterMap_filter]
  refine .of_eq (congrArg (List.filterMap · _) (funext fun o => ?_))
  cases hk : o.key? with
  | none => simp [deletion?, hk]
  | some key => cases hc : w.relisted.contains key <;> simp [deletion?, change?, hk, hc]

theorem filter_deletions (h : store.objects.Filed) (key : String) :
    ((w.vanished store).filterMap w.change?).filter (·.key = key) =
      if w.relisted.contains key then []
      else ((withKey? store.objects.toList key).map
        fun old => w.changeAt ⟨.delete, old, none⟩ key).toList := by
  have hperm := (w.deletions_perm store).filter fun c => c.key = key
  rw [filter_filterMap_of_nodup h.nodup fun o _ c => key_of_deletion?] at hperm
  cases hs : withKey? store.objects.toList key with
  | none =>
    rw [hs] at hperm
    rw [hperm.eq_nil]
    simp
  | some old =>
    rw [hs, Option.bind_some, deletion?_of_key (mem_of_withKey? hs).2] at hperm
    split
    · next hc =>
      rw [if_pos hc] at hperm
      exact hperm.eq_nil
    · next hc =>
      rw [if_neg hc] at hperm
      exact List.perm_singleton.1 hperm

/-- What is found of a listed object that finds its own predecessor is the change from that. -/
theorem map_finding? (w : Observer) (key : String) (old? : Option Object) (o : Object) :
    (Scene.finding? false old? o).map (w.changeAt · key) = w.between key old? (some o) := by
  cases old? with
  | none => rfl
  | some old =>
    by_cases hv : old.metadata.resourceVersion = o.metadata.resourceVersion <;>
      simp [Scene.finding?, between, hv]

/-- A later listing reports the difference of a key exactly if the object that it shows of the key
finds its own predecessor. -/
theorem reportAt_eq_between_iff (h : stored.Filed) (ho : o.ref = .ok r) (hr : r.Plain) :
    w.reportAt stored r.key (some o) =
        w.between r.key (withKey? stored.toList r.key) (some o) ↔
      stored.FindsOwn r := by
  rw [reportAt, report?_of_ref ho, h.withKey? hr, map_finding?]
  constructor
  · intro hsame
    refine Classical.byContradiction fun hown => ?_
    -- an object that is not stored is created, but none with a predecessor is
    obtain ⟨x, hfind, hn⟩ := Objects.exists_of_not_findsOwn hown
    rw [hfind, hn] at hsame
    simp only [between] at hsame
    split at hsame
    · cases hsame
    · cases congrArg Change.type (Option.some.inj hsame)
  · exact fun hown => by rw [hown.find?]

end Observer

namespace Scene

variable {s s' s'' : Scene} {o : Object} {r : Ref} {os os' : List Object}
  {changes changes' : List Change}

/-- The scene after objects of a listing: they are collected, their keys are noted, and nothing else
has changed. -/
structure Lists (s : Scene) (os : List Object) (s' : Scene) : Prop where
  kind : s'.observer.kind = s.observer.kind
  listed : s'.observer.listed = s.observer.listed
  relisted : ∀ key, s'.observer.relisted.contains key =
    (s.observer.relisted.contains key || (withKey? os key).isSome)
  objects : s'.store.objects = s.store.objects
  filed : s'.store.listed.Filed
  collected : s'.store.listed.toList.Perm (os ++ s.store.listed.toList)

/-- The objects of a later listing are reported one after the other, against what is stored. -/
theorem follow_listed (hl : s.observer.listed = true) (hf : s.store.listed.Filed)
    (ha : s.store.listed.Awaits os) :
    ∃ s', s.follow (os.map .listed) =
      .ok (os.filterMap (s.observer.report? s.store.objects), s') ∧ s.Lists os s' := by
  induction os generalizing s with
  | nil => exact ⟨s, rfl, rfl, rfl, fun key => (Bool.or_false _).symm, rfl, hf, .rfl⟩
  | cons o os ih =>
    obtain ⟨r, ho, hr, hn, -, ha⟩ := ha.cons
    have ht := take_listed (fresh_of_listed hl) ho hr
    have hkind : (s.observer.next (.listed o)).kind = s.observer.kind := by
      simp only [Observer.next]
      split <;> rfl
    have hlisted := s.observer.listed_next_listed o
    obtain ⟨s', hrun, hs⟩ := ih
      (s := ⟨s.observer.next (.listed o), { s.store with listed := s.store.listed.insert r o }⟩)
      (hlisted.trans hl) (hf.insert ho hr) ha
    refine ⟨s', follow_cons_eq_ok_iff.2 ⟨_, _, _, ht, hrun, ?_⟩, hs.kind.trans hkind,
      hs.listed.trans hlisted, fun key => ?_, hs.objects, hs.filed, ?_⟩
    · rw [Observer.report?_of_kind hkind, List.filterMap_cons, Observer.report?_of_ref ho]
      cases finding? false (s.store.objects.find? r) o <;> rfl
    · rw [hs.relisted, Observer.relisted_next_listed ho hr hl, NameSet.contains_add, withKey?_cons,
        Object.key?_of_ref ho hr]
      by_cases hk : r.key = key <;> simp [hk]
    · refine hs.collected.trans ?_
      rw [Objects.toList_insert hn]
      exact List.perm_middle

/-- What a later listing comes to: of every key, it reports what the object that it shows of the key
gives, and the listing takes the place of the stored objects. -/
structure Relists (s : Scene) (os : List Object) (changes : List Change) (s' : Scene) : Prop where
  run : s.follow (Showing.listing os).events = .ok (changes, s')
  reports : ∀ key, changes.filter (·.key = key) =
    (s.observer.reportAt s.store.objects key (withKey? os key)).toList
  filed : s'.store.objects.Filed
  stored : s'.store.objects.toList.Perm os

theorem exists_relists (hl : s.observer.listed = true) (hs : s.store.objects.Filed)
    (hp : (Showing.listing os).Plain) : ∃ changes s', s.Relists os changes s' := by
  obtain ⟨s', hrun, h⟩ := follow_listed
    (s := ⟨{ s.observer with relisted := .empty }, { s.store with listed := .empty }⟩)
    hl Objects.filed_empty (Objects.awaits_empty hp.1 hp.2)
  have hl' : s'.observer.listed = true := h.listed.trans hl
  have hc := take_complete (fresh_of_listed hl')
  refine ⟨_, _, follow_cons_eq_ok_iff.2 ⟨_, _, _, take_listing,
    follow_append_eq_ok_iff.2 ⟨_, _, _, hrun, follow_singleton.2 hc, rfl⟩, rfl⟩, fun key => ?_,
    h.filed, by simpa [Objects.toList, Objects.empty] using h.collected⟩
  rw [List.nil_append, List.filter_append,
    filter_filterMap_of_nodup hp.2 fun o ho c => Observer.key_of_report? (hp.1 o ho),
    Observer.filter_deletions (h.objects ▸ hs), h.relisted, h.objects,
    Observer.changeAt_of_kind h.kind]
  cases withKey? os key with
  | none => rfl
  | some o => exact List.append_nil _

/-- The order of a listing does not matter. -/
theorem Relists.perm (h : s.Relists os changes s') (h' : s.Relists os' changes' s'')
    (ho : os'.Perm os) (hd : (os.map Object.key?).Nodup) :
    changes'.Perm changes ∧ s''.store.objects.toList.Perm s'.store.objects.toList := by
  refine ⟨perm_of_filter_key fun key => ?_, h'.stored.trans (ho.trans h.stored.symm)⟩
  rw [h.reports, h'.reports, withKey?_perm ho.symm hd]

/-- A listing reports the difference exactly if all objects that it shows find their own
predecessors. -/
theorem Relists.tells_iff (h : s.Relists os changes s') (hs : s.store.objects.Filed)
    (hp : (Showing.listing os).Plain) :
    s.observer.Tells changes s.store.objects.toList os ↔
      ∀ o ∈ os, ∀ r, o.ref = .ok r → s.store.objects.FindsOwn r := by
  constructor
  · intro htells o hmem r ho
    obtain ⟨r', ho', hr⟩ := hp.1 o hmem
    obtain rfl : r' = r := Except.ok.inj (ho'.symm.trans ho)
    have hkey : withKey? os r'.key = some o :=
      (withKey?_eq_some_iff hp.2).2 ⟨hmem, Object.key?_of_ref ho hr⟩
    have hsame := (h.reports r'.key).symm.trans (htells r'.key)
    rw [hkey] at hsame
    exact (Observer.reportAt_eq_between_iff hs ho hr).1 (by simpa using congrArg List.head? hsame)
  · intro hown key
    rw [h.reports]
    congr 1
    cases hk : withKey? os key with
    | none =>
      rw [Observer.reportAt]
      cases withKey? s.store.objects.toList key <;> rfl
    | some o =>
      obtain ⟨hmem, hkey⟩ := mem_of_withKey? hk
      obtain ⟨r, ho, hr⟩ := hp.1 o hmem
      obtain rfl : r.key = key := Option.some.inj ((Object.key?_of_ref ho hr).symm.trans hkey)
      exact (Observer.reportAt_eq_between_iff hs ho hr).2 (hown o hmem r ho)

/-- A listing of what is stored reports nothing. -/
theorem Relists.eq_nil (h : s.Relists os changes s') (hs : s.store.objects.Filed)
    (hp : (Showing.listing os).Plain) (ho : os.Perm s.store.objects.toList) : changes = [] := by
  refine List.eq_nil_iff_forall_not_mem.2 fun c hc => ?_
  have hmem : c ∈ changes.filter (·.key = c.key) := List.mem_filter.2 ⟨hc, decide_eq_true rfl⟩
  rw [h.reports] at hmem
  cases hk : withKey? os c.key with
  | none =>
    have hold : withKey? s.store.objects.toList c.key = none := by
      rw [← withKey?_perm ho hp.2, hk]
    simp [Observer.reportAt, hk, hold] at hmem
  | some o =>
    obtain ⟨ho', hkey⟩ := mem_of_withKey? hk
    obtain ⟨r, hor, hr⟩ := hp.1 o ho'
    have hr' : r.key = c.key := Option.some.inj ((Object.key?_of_ref hor hr).symm.trans hkey)
    have hold : s.store.objects.find? r = some o := by
      rw [Objects.find?, ← hs.withKey? hr, hr', ← withKey?_perm ho hp.2, hk]
    simp [hk, Observer.reportAt, Observer.report?_of_ref hor, hold, finding?] at hmem

/-- **A later listing reports exactly the difference, as long as no object is taken for another
one.**  Let the stored objects be filed under plain references, and let a listing after the first
one show objects with plain references, none twice.  Then

* the changes tell the difference between the stored and the listed objects exactly if every listed
  object is stored itself or has no stored namesake without a namespace;
* the store holds the listed objects afterwards;
* the order of the listing does not matter for either;
* if the listed objects are the stored ones, there are no changes at all. -/
theorem relisting_tells_iff (hl : s.observer.listed = true) (hs : s.store.objects.Filed)
    (hp : (Showing.listing os).Plain) :
    ∃ changes s', s.follow (Showing.listing os).events = .ok (changes, s') ∧
      (s.observer.Tells changes s.store.objects.toList os ↔
        ∀ o ∈ os, ∀ r, o.ref = .ok r → s.store.objects.FindsOwn r) ∧
      s'.store.objects.Filed ∧ s'.store.objects.toList.Perm os ∧
      (∀ os', os'.Perm os → ∃ changes' s'',
        s.follow (Showing.listing os').events = .ok (changes', s'') ∧ changes'.Perm changes ∧
          s''.store.objects.toList.Perm s'.store.objects.toList) ∧
      (os.Perm s.store.objects.toList → changes = []) := by
  obtain ⟨changes, s', h⟩ := exists_relists hl hs hp
  refine ⟨changes, s', h.run, h.tells_iff hs hp, h.filed, h.stored, fun os' ho => ?_,
    h.eq_nil hs hp⟩
  have hp' : (Showing.listing os').Plain :=
    ⟨fun o hmem => hp.1 o (ho.subset hmem), (ho.map _).nodup_iff.2 hp.2⟩
  obtain ⟨changes', s'', h'⟩ := exists_relists hl hs hp'
  exact ⟨changes', s'', h'.run, h.perm h' ho hp.2⟩

/-- One object has changed, one is new and one is gone. -/
theorem changed_new_and_gone_objects_told :
    let kind : WatchedKind := ⟨"Pod", "", "v1", "pods", true, none, .empty⟩
    let object (name version : String) : Object :=
      ⟨none, { name, namespaceName := "a", resourceVersion := version }, []⟩
    let stored : Objects := (Objects.empty.insert ⟨"a", "x"⟩ (object "x" "1")).insert ⟨"a", "y"⟩
      (object "y" "2")
    let s : Scene := ⟨⟨kind, true, .empty⟩, ⟨stored, .empty, true⟩⟩
    let os : List Object := [object "z" "4", object "x" "3"]
    s.observer.listed = true ∧ s.store.objects.Filed ∧ (Showing.listing os).Plain ∧
      ∃ changes s', s.follow (Showing.listing os).events = .ok (changes, s') ∧
        s.observer.Tells changes s.store.objects.toList os := by
  intro kind object stored s os
  have hs : s.store.objects.Filed :=
    (Objects.filed_empty.insert rfl (by decide)).insert rfl (by decide)
  have hp : (Showing.listing os).Plain := by decide
  obtain ⟨changes, s', hrun, htells, -⟩ := relisting_tells_iff (s := s) rfl hs hp
  exact ⟨rfl, hs, hp, changes, s', hrun, htells.2 (by decide)⟩

/-- A listing that begins to show `a/x` beside `x`, of another version, reports an update: the new
object is taken for the other one. -/
theorem namesake_told_as_update :
    ¬ ∀ (s : Scene) (os : List Object), s.observer.listed = true → s.store.objects.Filed →
      (Showing.listing os).Plain → ∃ changes s',
        s.follow (Showing.listing os).events = .ok (changes, s') ∧
          s.observer.Tells changes s.store.objects.toList os := by
  intro h
  let kind : WatchedKind := ⟨"Pod", "", "v1", "pods", true, none, .empty⟩
  let x (namespaceName : Option String) (version : String) : Object :=
    ⟨none, { name := "x", namespaceName, resourceVersion := version }, []⟩
  let stored : Objects := Objects.empty.insert ⟨none, "x"⟩ (x none "1")
  let s : Scene := ⟨⟨kind, true, .empty⟩, ⟨stored, .empty, true⟩⟩
  let os : List Object := [x none "1", x "a" "2"]
  obtain ⟨changes, s', hrun, htells⟩ := h s os rfl (Objects.filed_empty.insert rfl (by decide))
    (by decide)
  have hupdate : ∀ next, s.follow (Showing.listing os).events = .ok next →
      (next.1.filter (·.key = "a/x")).map Change.type = [.update] := by
    decide +kernel
  have hcreate : (changes.filter (·.key = "a/x")).map Change.type = [.create] := by
    rw [htells]
    decide +kernel
  cases (hupdate _ hrun).symm.trans hcreate

end Scene

end ClusterHerald
