import ClusterHerald.Proofs.Watch.Listing

/-!
# The changes mirror the store

Whoever follows the changes of a kind ought to know, whenever a listing is complete and after
every live event, the versions of exactly the objects that are stored, and every update ought to
come with a snapshot of the version that was known (`Scene.Mirrors`).

That is so exactly in the runs in which every object that is applied, or listed again, finds its
own predecessor (`Scene.Clear`).  A look-up that finds nothing falls back to the name alone, so an
object with a namespace may be taken for one of the same name that has none.

* `Scene.Settled.settles` : a clear showing keeps what is known in step with the store;
* `Scene.Settled.clear_of_mirrors` : a showing that does so is clear;
* `Scene.changes_mirror_store_iff` : both, for whole runs.
-/

namespace ClusterHerald

/-- What a watch shows: a complete listing, or a live event. -/
inductive Showing where
  | listing (objects : List Object)
  | applied (object : Object)
  | deleted (object : Object)

namespace Showing

/-- The events of a showing. -/
def events : Showing → List WatchEvent
  | .listing os => .listing :: (os.map .listed ++ [.complete])
  | .applied o => [.applied o]
  | .deleted o => [.deleted o]

/-- The objects have plain references, and a listing shows none of them twice. -/
def Plain : Showing → Prop
  | .listing os => (∀ o ∈ os, o.Plain) ∧ (os.map Object.key?).Nodup
  | .applied o | .deleted o => o.Plain

instance : DecidablePred Plain
  | .listing _ => inferInstanceAs (Decidable (_ ∧ _))
  | .applied o | .deleted o => inferInstanceAs (Decidable o.Plain)

end Showing

namespace Scene

variable {s s' : Scene} {t : Versions} {o : Object} {r : Ref} {changes : List Change}
  {e : WatchEvent} {before after events : List WatchEvent}

/-- Every event of a run finds what is stored of its own object. -/
def Clear (s : Scene) : List WatchEvent → Prop
  | [] => True
  | e :: events => s.FindsOwn e ∧ ∀ next, s.take e = .ok next → next.2.Clear events

instance decidableClear (s : Scene) : ∀ events, Decidable (s.Clear events)
  | [] => isTrue trivial
  | e :: events =>
    have (next : List Change × Scene) : Decidable (next.2.Clear events) :=
      next.2.decidableClear events
    @instDecidableAnd _ _ _ (decidableForallOk (s.take e))

/-- Every event of a run can be taken, every update in its changes fits what a follower knows, and
in the end a follower knows the versions of the stored objects. -/
def Mirrors (s : Scene) (t : Versions) (events : List WatchEvent) : Prop :=
  ∃ changes s', s.follow events = .ok (changes, s') ∧
    Obeys Versions.note Versions.Fits t changes ∧ t.follow changes = s'.store.objects.versions

theorem clear_cons_iff (h : s.take e = .ok (changes, s')) :
    s.Clear (e :: events) ↔ s.FindsOwn e ∧ s'.Clear events := by
  simp [Clear, h]

theorem clear_append_iff (h : s.follow before = .ok (changes, s')) :
    s.Clear (before ++ after) ↔ s.Clear before ∧ s'.Clear after := by
  induction before generalizing s changes with
  | nil =>
    cases h
    simp [Clear]
  | cons e before ih =>
    obtain ⟨first, mid, rest, ht, hf, -⟩ := follow_cons_eq_ok_iff.1 h
    rw [List.cons_append, clear_cons_iff ht, clear_cons_iff ht, ih hf, and_assoc]

theorem Clear.of_append (h : s.Clear (before ++ after)) : s.Clear before := by
  induction before generalizing s with
  | nil => trivial
  | cons e before ih => exact ⟨h.1, fun next ht => ih (h.2 next ht)⟩

theorem mirrors_append_iff {t : Versions} (h : s.follow before = .ok (changes, s'))
    (hb : Obeys Versions.note Versions.Fits t changes) :
    s.Mirrors t (before ++ after) ↔ s'.Mirrors (t.follow changes) after := by
  constructor
  · rintro ⟨_, last, hf, ho, hv⟩
    obtain ⟨first, mid, rest, hfirst, hrest, rfl⟩ := follow_append_eq_ok_iff.1 hf
    cases h.symm.trans hfirst
    refine ⟨rest, last, hrest, (Obeys.append_iff.1 ho).2, ?_⟩
    rw [← hv, Versions.follow_append]
  · rintro ⟨rest, last, hf, ho, hv⟩
    refine ⟨_, last, follow_append_eq_ok_iff.2 ⟨_, _, rest, h, hf, rfl⟩,
      Obeys.append_iff.2 ⟨hb, ho⟩, ?_⟩
    rw [← hv, Versions.follow_append]

/-- What a run that is clear leads to: the changes fit, and the last scene is settled. -/
def Settles (s : Scene) (t : Versions) (events : List WatchEvent) : Prop :=
  ∃ changes s', s.follow events = .ok (changes, s') ∧
    Obeys Versions.note Versions.Fits t changes ∧ s'.Settled (t.follow changes) ∧
    s'.observer.listed = true

theorem follow_singleton : s.follow [e] = .ok (changes, s') ↔ s.take e = .ok (changes, s') := by
  rw [follow_cons_eq_ok_iff]
  constructor
  · rintro ⟨first, mid, rest, ht, ⟨⟩, rfl⟩
    rwa [List.append_nil]
  · exact fun h => ⟨changes, s', [], h, rfl, List.append_nil _⟩

/-! ### Live events -/

theorem Settled.applied (h : s.Settled t) (hl : s.observer.listed = true) (ho : o.Plain)
    (hc : s.Clear [.applied o]) : s.Settles t [.applied o] := by
  obtain ⟨r, ho, hr⟩ := ho
  have hfind := (hc.1 r ho).find?
  obtain ⟨hfits, ht⟩ := follow_finding (o := o) s.observer true (h.get? hr)
  refine ⟨_, _, follow_singleton.2 (take_applied ho hr), hfind ▸ hfits, ⟨?_, ?_, ?_⟩, hl⟩
  · exact fresh_of_listed hl
  · exact h.filed.insert ho hr
  · rw [hfind, ht, h.versions, h.filed.versions_insert ho hr]

theorem Settled.deleted (h : s.Settled t) (hl : s.observer.listed = true) (ho : o.Plain) :
    s.Settles t [.deleted o] := by
  obtain ⟨r, ho, hr⟩ := ho
  refine ⟨_, _, follow_singleton.2 (take_deleted ho hr), ⟨nofun, trivial⟩, ⟨?_, ?_, ?_⟩, hl⟩
  · exact fresh_of_listed hl
  · exact h.filed.erase r
  · rw [h.filed.versions_erase hr, ← h.versions]
    rfl

/-- Nothing is known of an object that is not stored itself.  If another one is found for it an
update is reported, and that does not fit. -/
theorem Settled.clear_of_applied (h : s.Settled t) (ho : o.Plain)
    (hm : s.Mirrors t [.applied o]) : s.Clear [.applied o] := by
  obtain ⟨r, ho, hr⟩ := ho
  obtain ⟨changes, s', hf, hfits, -⟩ := hm
  cases (take_applied ho hr).symm.trans (follow_singleton.1 hf)
  refine ⟨fun r' ho' => ?_, fun _ _ => trivial⟩
  obtain rfl : r = r' := Except.ok.inj (ho.symm.trans ho')
  refine Classical.byContradiction fun hown => ?_
  obtain ⟨x, hfind, hn⟩ := Objects.exists_of_not_findsOwn hown
  rw [hfind] at hfits
  exact nomatch finding?_eq_none_of_fits (by rw [h.get? hr, hn]; rfl) hfits

/-! ### Listings -/

theorem obeys_vanished (w : Observer) (store : Store) :
    Obeys Versions.note Versions.Fits t ((w.vanished store).filterMap w.change?) :=
  Obeys.of_forall fun _ hc _ hu => nomatch (Observer.type_of_vanished hc).symm.trans hu

/-- The objects of a clear listing are collected one after the other. -/
theorem Collecting.settles (h : s.Collecting t) {os : List Object}
    (ha : s.store.listed.Awaits os) (hc : s.Clear (os.map .listed ++ [.complete])) :
    s.Settles t (os.map .listed ++ [.complete]) := by
  induction os generalizing s t with
  | nil =>
    exact ⟨_, _, follow_singleton.2 (take_complete h.fresh), obeys_vanished _ _, h.complete, rfl⟩
  | cons o os ih =>
    obtain ⟨r, ho, hr, hn, -, ha⟩ := ha.cons
    obtain ⟨first, mid, ht, hfirst, hmid, hlisted⟩ := h.collect ho hr hn (hc.1 r ho)
    obtain ⟨rest, s', hf, hrest, hs, hl⟩ := ih hmid (hlisted ▸ ha) ((clear_cons_iff ht).1 hc).2
    refine ⟨_, s', follow_cons_eq_ok_iff.2 ⟨first, mid, rest, ht, hf, rfl⟩,
      Obeys.append_iff.2 ⟨hfirst, hrest⟩, ?_, hl⟩
    rwa [Versions.follow_append]

/-- A key of the listing of which nothing was reported is not reported any more, though its object
is stored in the end. -/
theorem follow_listed_of_relisted {os : List Object} (hl : s.observer.listed = true)
    (hk : s.observer.relisted.contains r.key = true) (hr : r.Plain)
    (ho : ∀ p ∈ os, p.Plain ∧ p.ref ≠ .ok r)
    (hf : s.follow (os.map .listed ++ [.complete]) = .ok (changes, s')) :
    (∀ c ∈ changes, c.key ≠ r.key) ∧ s'.store.objects.get? r = s.store.listed.get? r := by
  have hfresh := fresh_of_listed hl
  induction os generalizing s changes with
  | nil =>
    cases (take_complete hfresh).symm.trans (follow_singleton.1 hf)
    refine ⟨fun c hc he => ?_, rfl⟩
    have := (Observer.exists_vanished_key.1 ⟨c, hc, he⟩).2
    rw [hk] at this
    cases this
  | cons p os ih =>
    obtain ⟨⟨r', hpr, hr'⟩, hne⟩ := ho p List.mem_cons_self
    obtain ⟨first, mid, rest, ht, hrest, rfl⟩ := follow_cons_eq_ok_iff.1 hf
    cases (take_listed hfresh hpr hr').symm.trans ht
    have hrr : r' ≠ r := fun h => hne (h ▸ hpr)
    have hl' := (s.observer.listed_next_listed p).trans hl
    obtain ⟨hkeys, hs⟩ := ih hl'
      (by simp [Observer.relisted_next_listed hpr hr' hl, NameSet.contains_add, hk])
      (fun q hq => ho q (List.mem_cons_of_mem p hq)) hrest (fresh_of_listed hl')
    refine ⟨fun c hc => ?_, ?_⟩
    · rcases List.mem_append.1 hc with hc | hc
      · obtain ⟨f, -, rfl⟩ := List.mem_map.1 hc
        exact fun he => hrr (Ref.key_inj hr' hr he)
      · exact hkeys c hc
    · rw [hs, Objects.get?_insert, if_neg hrr.symm]

/-- Nothing is known of a listed object that is not stored itself.  If another one is found for it,
either an update is reported, and that does not fit, or nothing is and the key stays unknown. -/
theorem Collecting.findsOwn_of_mirrors (h : s.Collecting t) {os : List Object}
    (ho : o.ref = .ok r) (hr : r.Plain) (hn : s.store.listed.get? r = none)
    (hos : ∀ p ∈ os, p.Plain ∧ p.ref ≠ .ok r)
    (hm : s.Mirrors t (.listed o :: (os.map .listed ++ [.complete]))) :
    s.store.objects.FindsOwn r := by
  refine Classical.byContradiction fun hown => ?_
  obtain ⟨x, hfind, hnone⟩ := Objects.exists_of_not_findsOwn hown
  have hunknown : t.get? r.key = none := by rw [h.get?_of_not_listed hr hn, hnone]; rfl
  have hl : s.observer.listed = true := by
    refine eq_true_of_ne_false fun hl => ?_
    rw [h.fresh hl] at hfind
    cases hfind
  obtain ⟨changes, s', hf, hfits, hv⟩ := hm
  obtain ⟨first, mid, rest, ht, hrest, rfl⟩ := follow_cons_eq_ok_iff.1 hf
  cases (take_listed h.fresh ho hr).symm.trans ht
  rw [hfind] at hfits hv
  rw [finding?_eq_none_of_fits hunknown (Obeys.append_iff.1 hfits).1, Option.toList_none,
    List.map_nil, List.nil_append] at hv
  obtain ⟨hkeys, hs⟩ := follow_listed_of_relisted
    ((s.observer.listed_next_listed o).trans hl)
    (by simp [Observer.relisted_next_listed ho hr hl, NameSet.contains_add]) hr hos hrest
  have hstored : s'.store.objects.versions.has r.key = true :=
    Objects.has_versions_of_get? (by rw [hs, Objects.get?_insert, if_pos rfl])
      (Object.key?_of_ref ho hr)
  have hlast : (t.follow rest).get? r.key = none :=
    (Versions.get?_follow_of_ne t hkeys).trans hunknown
  rw [← hv, Table.has, hlast] at hstored
  cases hstored

theorem Collecting.clear_of_mirrors (h : s.Collecting t) {os : List Object}
    (ha : s.store.listed.Awaits os) (hm : s.Mirrors t (os.map .listed ++ [.complete])) :
    s.Clear (os.map .listed ++ [.complete]) := by
  induction os generalizing s t with
  | nil => exact ⟨trivial, fun _ _ => trivial⟩
  | cons o os ih =>
    obtain ⟨r, ho, hr, hn, hos, ha⟩ := ha.cons
    have hown := h.findsOwn_of_mirrors ho hr hn hos hm
    obtain ⟨first, mid, ht, hfirst, hmid, hlisted⟩ := h.collect ho hr hn hown
    refine (clear_cons_iff ht).2 ⟨fun r' ho' => ?_, ih hmid (hlisted ▸ ha)
      ((mirrors_append_iff (follow_singleton.2 ht) hfirst).1 hm)⟩
    exact Except.ok.inj (ho.symm.trans ho') ▸ hown

/-! ### Runs -/

variable {showing : Showing} {later : List Showing}

theorem Settled.settles_listing (h : s.Settled t) {os : List Object}
    (hp : (Showing.listing os).Plain) (hc : s.Clear (Showing.listing os).events) :
    s.Settles t (Showing.listing os).events := by
  obtain ⟨changes, s', hf, hfits, hs, hl⟩ :=
    h.listing.settles (Objects.awaits_empty hp.1 hp.2) ((clear_cons_iff take_listing).1 hc).2
  exact ⟨changes, s', follow_cons_eq_ok_iff.2 ⟨_, _, _, take_listing, hf, rfl⟩, hfits, hs, hl⟩

theorem Settled.clear_of_mirrors_listing (h : s.Settled t) {os : List Object}
    (hp : (Showing.listing os).Plain) (hm : s.Mirrors t (Showing.listing os).events) :
    s.Clear (Showing.listing os).events := by
  have hf := follow_singleton.2 (take_listing (s := s))
  refine (clear_cons_iff take_listing).2 ⟨trivial, ?_⟩
  exact h.listing.clear_of_mirrors (Objects.awaits_empty hp.1 hp.2)
    ((mirrors_append_iff hf trivial).1 hm)

theorem Settled.settles (h : s.Settled t) (hl : s.observer.listed = true) (hp : showing.Plain)
    (hc : s.Clear showing.events) : s.Settles t showing.events := by
  cases showing with
  | listing os => exact h.settles_listing hp hc
  | applied o => exact h.applied hl hp hc
  | deleted o => exact h.deleted hl hp

theorem Settled.clear_of_mirrors (h : s.Settled t) (hp : showing.Plain)
    (hm : s.Mirrors t showing.events) : s.Clear showing.events := by
  cases showing with
  | listing os => exact h.clear_of_mirrors_listing hp hm
  | applied o => exact h.clear_of_applied hp hm
  | deleted o => exact ⟨trivial, fun _ _ => trivial⟩

theorem Settled.mirrors_nil (h : s.Settled t) : s.Mirrors t [] :=
  ⟨[], s, rfl, trivial, h.versions⟩

/-- A first part that settles the scene if it is clear, and is clear if it mirrors, may be cut
off. -/
theorem mirrors_iff_clear_append (hclear : s.Mirrors t before → s.Clear before)
    (hsettles : s.Clear before → s.Settles t before)
    (hrest : ∀ (s' : Scene) (t' : Versions), s'.Settled t' → s'.observer.listed = true →
      ((∀ done, done <+: later → s'.Mirrors t' (done.flatMap Showing.events)) ↔
        s'.Clear (later.flatMap Showing.events))) :
    (∀ done, done <+: later → s.Mirrors t (before ++ done.flatMap Showing.events)) ↔
      s.Clear (before ++ later.flatMap Showing.events) := by
  constructor
  · intro hm
    have hc : s.Clear before := hclear (by simpa using hm [] List.nil_prefix)
    obtain ⟨changes, s', hf, hfits, hs, hl⟩ := hsettles hc
    refine (clear_append_iff hf).2 ⟨hc, (hrest s' _ hs hl).1 fun done hd => ?_⟩
    exact (mirrors_append_iff hf hfits).1 (hm done hd)
  · intro hc done hd
    obtain ⟨changes, s', hf, hfits, hs, hl⟩ := hsettles hc.of_append
    exact (mirrors_append_iff hf hfits).2
      ((hrest s' _ hs hl).2 ((clear_append_iff hf).1 hc).2 done hd)

theorem Settled.mirrors_iff_clear (h : s.Settled t) (hl : s.observer.listed = true)
    (hp : ∀ showing ∈ later, showing.Plain) :
    (∀ done, done <+: later → s.Mirrors t (done.flatMap Showing.events)) ↔
      s.Clear (later.flatMap Showing.events) := by
  induction later generalizing s t with
  | nil =>
    refine iff_of_true (fun done hd => ?_) trivial
    rw [List.prefix_nil.1 hd]
    exact h.mirrors_nil
  | cons showing later ih =>
    have hp' := hp showing List.mem_cons_self
    rw [List.flatMap_cons, ← mirrors_iff_clear_append (h.clear_of_mirrors hp') (h.settles hl hp')
      fun s' t' hs hl => ih hs hl fun sh hsh => hp sh (List.mem_cons_of_mem showing hsh)]
    constructor
    · exact fun hm done hd => hm (showing :: done) (List.cons_prefix_cons.2 ⟨rfl, hd⟩)
    · intro hm done hd
      obtain rfl | ⟨rest, rfl, hrest⟩ := List.prefix_cons_iff.1 hd
      · exact h.mirrors_nil
      · exact hm rest hrest

theorem settled_start (kind : WatchedKind) : (start kind).Settled .empty :=
  ⟨fun _ => rfl, Objects.filed_empty, rfl⟩

/-- **Changes mirror the store exactly as long as no object is taken for another one.**  Let a
watch begin with a complete listing, and go on with live events and complete listings, of objects
with plain references.  Whenever a listing is complete and after every live event, what a follower
of the changes knows are the versions of the stored objects, and every update fits what the
follower knew before: exactly if every object that is applied, or listed again, is stored itself or
has no stored namesake without a namespace. -/
theorem changes_mirror_store_iff (kind : WatchedKind) {first : List Object}
    (hfirst : (Showing.listing first).Plain) (hlater : ∀ showing ∈ later, showing.Plain) :
    (∀ done, done <+: later → (start kind).Mirrors .empty
        ((Showing.listing first).events ++ done.flatMap Showing.events)) ↔
      (start kind).Clear ((Showing.listing first).events ++ later.flatMap Showing.events) :=
  mirrors_iff_clear_append ((settled_start kind).clear_of_mirrors_listing hfirst)
    ((settled_start kind).settles_listing hfirst)
    fun _ _ hs hl => hs.mirrors_iff_clear hl hlater

/-- An object changes, is listed again together with a new one, and is deleted. -/
theorem changed_and_relisted_object_mirrored :
    let kind : WatchedKind := ⟨"Pod", "", "v1", "pods", true, none, .empty⟩
    let x (version : String) : Object :=
      ⟨none, { name := "x", namespaceName := "a", resourceVersion := version }, []⟩
    let y : Object := ⟨none, { name := "y", namespaceName := "a", resourceVersion := "3" }, []⟩
    let later : List Showing := [.applied (x "2"), .listing [y, x "2"], .deleted (x "4")]
    (Showing.listing [x "1"]).Plain ∧ (∀ showing ∈ later, showing.Plain) ∧
      ∀ done, done <+: later → (start kind).Mirrors .empty
        ((Showing.listing [x "1"]).events ++ done.flatMap Showing.events) := by
  intro kind x y later
  have hfirst : (Showing.listing [x "1"]).Plain := by decide
  have hlater : ∀ showing ∈ later, showing.Plain := by decide
  exact ⟨hfirst, hlater, (changes_mirror_store_iff kind hfirst hlater).2 (by decide)⟩

/-- A listing that begins to show `a/x` beside `x`, of the same version, reports nothing: the new
object is taken for the other one. -/
theorem unreported_namesake :
    ¬ ∀ (kind : WatchedKind) (first : List Object) (later : List Showing),
      (Showing.listing first).Plain → (∀ showing ∈ later, showing.Plain) →
        ∀ done, done <+: later → (start kind).Mirrors .empty
          ((Showing.listing first).events ++ done.flatMap Showing.events) := by
  intro h
  let kind : WatchedKind := ⟨"Pod", "", "v1", "pods", true, none, .empty⟩
  let x (namespaceName : Option String) : Object :=
    ⟨none, { name := "x", namespaceName, resourceVersion := "1" }, []⟩
  obtain ⟨changes, s', hf, -, hv⟩ := h kind [x none] [.listing [x none, x "a"]] (by decide)
    (by decide) _ List.prefix_rfl
  have hne : ∀ next, (start kind).follow ((Showing.listing [x none]).events ++
      [Showing.listing [x none, x "a"]].flatMap Showing.events) = .ok next →
      (Versions.follow .empty next.1).has "a/x" ≠ next.2.store.objects.versions.has "a/x" := by
    decide +kernel
  exact hne _ hf (congrArg (·.has "a/x") hv)

end Scene

end ClusterHerald
