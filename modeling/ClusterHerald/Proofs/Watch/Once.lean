import ClusterHerald.Proofs.Watch.Listing

/-!
# Creations are reported once

A watch alternates between listings and live events (`Phase`), and a listing may be given up for
another one before it is complete.  Whether an object is new is read off the store, and that takes
the objects of a listing only when it is complete.  So a listing that takes the place of another
one reports the creations of that one again (`Scene.created_again_by_restart`).

This is the only way in which an object is reported as created twice without being reported as
deleted in between (`Scene.created_again_after_deletion_or_restart`): an object whose creation was
reported is stored (`Scene.Stored`), or it is among the objects of the listing that is still under
way (`Scene.Collected`).
-/

namespace ClusterHerald

/-! ### Phases -/

/-- What a watch is about to show. -/
inductive Phase where
  /-- Nothing was shown yet. -/
  | fresh
  /-- A listing is under way, with its objects so far. -/
  | listing (objects : List Object)
  /-- Live events come in. -/
  | live

namespace Phase

/-- The phase after an event. -/
def next (p : Phase) : WatchEvent → Phase
  | .listing => .listing []
  | .listed o =>
    match p with
    | .listing os => .listing (o :: os)
    | .fresh | .live => p
  | .complete => .live
  | .applied _ | .deleted _ => p

/-- The events of a phase.  The objects have keys, and a listing shows none of them twice. -/
def Allows : Phase → WatchEvent → Prop
  | _, .listing => True
  | .listing os, .listed o => o.key?.isSome = true ∧ ∀ p ∈ os, p.key? ≠ o.key?
  | .listing _, .complete => True
  | .live, .applied o | .live, .deleted o => o.key?.isSome = true
  | .fresh, .listed _ | .fresh, .complete | .fresh, .applied _ | .fresh, .deleted _
  | .listing _, .applied _ | .listing _, .deleted _ | .live, .listed _ | .live, .complete => False

instance : ∀ p e, Decidable (Allows p e)
  | .fresh, .listing | .listing _, .listing | .live, .listing => isTrue trivial
  | .listing _, .listed _ => inferInstanceAs (Decidable (_ ∧ _))
  | .listing _, .complete => isTrue trivial
  | .live, .applied _ | .live, .deleted _ => inferInstanceAs (Decidable (_ = true))
  | .fresh, .listed _ | .fresh, .complete | .fresh, .applied _ | .fresh, .deleted _
  | .listing _, .applied _ | .listing _, .deleted _ | .live, .listed _ | .live, .complete =>
    isFalse id

/-- An event of a phase that shows an object shows one with a key. -/
theorem Allows.key? {p : Phase} {e : WatchEvent} (h : p.Allows e) {o : Object}
    (ho : e.object? = some o) : o.key?.isSome = true := by
  cases e with
  | listing | complete => cases ho
  | listed q =>
    cases ho
    cases p with
    | listing os => exact h.1
    | fresh | live => exact h.elim
  | applied q | deleted q =>
    cases ho
    cases p with
    | live => exact h
    | fresh | listing os => exact h.elim

end Phase

/-! ### Keys and references -/

/-- Objects with one key have one reference. -/
def Faithful (objects : List Object) : Prop :=
  ∀ o ∈ objects, ∀ o' ∈ objects, o.key? = o'.key? → o.ref = o'.ref

/-- Plain objects do. -/
theorem faithful_of_plain {objects : List Object} (h : ∀ o ∈ objects, o.Plain) :
    Faithful objects := by
  intro o ho o' ho' hk
  obtain ⟨r, hr, hplain⟩ := h o ho
  obtain ⟨r', hr', hplain'⟩ := h o' ho'
  rw [Object.key?_of_ref hr hplain, Object.key?_of_ref hr' hplain', Option.some.injEq] at hk
  rw [hr, hr', Ref.key_inj hplain hplain' hk]

/-- An object with a key has a reference. -/
theorem Object.exists_ref {o : Object} (h : o.key?.isSome = true) : ∃ r, o.ref = .ok r := by
  cases hn : o.metadata.name with
  | none => simp [key?, hn] at h
  | some name => exact ⟨⟨o.metadata.namespaceName, name⟩, by simp only [ref, hn]⟩

/-- Objects of one reference have one key. -/
theorem Object.key?_eq_of_ref {o o' : Object} {r : Ref} (h : o.ref = .ok r) (h' : o'.ref = .ok r) :
    o.key? = o'.key? := by
  have hmeta {p : Object} (hp : p.ref = .ok r) :
      p.metadata.name = some r.name ∧ p.metadata.namespaceName = r.namespaceName := by
    simp only [ref] at hp
    split at hp
    · next name hname =>
      cases hp
      exact ⟨hname, rfl⟩
    · cases hp
  obtain ⟨hname, hns⟩ := hmeta h
  obtain ⟨hname', hns'⟩ := hmeta h'
  simp only [key?, hname, hname', hns, hns']

namespace Scene

variable {s s' : Scene} {p : Phase} {e : WatchEvent} {o : Object} {r : Ref} {key : String}
  {changes : List Change} {shown : List Object}

/-- What holds in every phase of a watch that shows certain objects: nothing is stored before the
first listing is complete, stored objects are among the shown ones and under their own references,
and the collected objects and the keys that were listed again are those of the listing. -/
structure Follows (shown : List Object) (p : Phase) (s : Scene) : Prop where
  fresh : s.Fresh
  live : p = .live → s.observer.listed = true
  stored : ∀ r o, s.store.objects.get? r = some o → o.ref = .ok r ∧ o ∈ shown
  collected : ∀ r o, s.store.listed.get? r = some o → o.ref = .ok r ∧ o ∈ shown
  listed : ∀ os, p = .listing os → ∀ o ∈ os, ∀ r, o.ref = .ok r →
    ∃ q, s.store.listed.get? r = some q
  relisted : ∀ os, p = .listing os → s.observer.listed = true → ∀ key,
    s.observer.relisted.contains key = true → ∃ o ∈ os, o ∈ shown ∧ o.key? = some key

theorem follows_start (kind : WatchedKind) (shown : List Object) :
    Follows shown .fresh (start kind) where
  fresh := fun _ => rfl
  live := nofun
  stored := fun r o h => by
    rw [show (start kind).store.objects = .empty from rfl, Objects.get?_empty] at h
    cases h
  collected := fun r o h => by
    rw [show (start kind).store.listed = .empty from rfl, Objects.get?_empty] at h
    cases h
  listed := nofun
  relisted := nofun

/-- Every event of a phase can be taken. -/
theorem exists_take (s : Scene) (h : p.Allows e) : ∃ changes s', s.take e = .ok (changes, s') := by
  obtain ⟨found, hf⟩ : ∃ found, s.observer.findings s.store e = .ok found := by
    cases e with
    | listing | complete | deleted o => exact ⟨_, rfl⟩
    | applied o =>
      obtain ⟨r, ho⟩ := Object.exists_ref (h.key? rfl)
      rw [findings_applied, predecessor?_of_ref _ ho]
      exact ⟨_, rfl⟩
    | listed o =>
      obtain ⟨r, ho⟩ := Object.exists_ref (h.key? rfl)
      rw [findings_listed, predecessor?_of_ref _ ho]
      split <;> exact ⟨_, rfl⟩
  obtain ⟨store, ha⟩ : ∃ store, s.store.apply e = .ok store := by
    cases e with
    | listing | complete => exact ⟨_, rfl⟩
    | listed o =>
      obtain ⟨r, ho⟩ := Object.exists_ref (h.key? rfl)
      exact ⟨_, Store.apply_listed _ ho⟩
    | applied o =>
      obtain ⟨r, ho⟩ := Object.exists_ref (h.key? rfl)
      exact ⟨_, Store.apply_applied _ ho⟩
    | deleted o =>
      obtain ⟨r, ho⟩ := Object.exists_ref (h.key? rfl)
      exact ⟨_, Store.apply_deleted _ ho⟩
  exact ⟨_, _, take_of hf ha⟩

namespace Follows

/-- A listing begins. -/
theorem listing (h : Follows shown p s) :
    Follows shown (.listing [])
      ⟨{ s.observer with relisted := .empty }, { s.store with listed := .empty }⟩ where
  fresh := h.fresh
  live := nofun
  stored := h.stored
  collected := fun r o ho => by
    rw [Objects.get?_empty] at ho
    cases ho
  listed := fun os hos o ho => by
    cases hos
    cases ho
  relisted := fun os _ _ key hk => by
    rw [NameSet.contains_empty] at hk
    cases hk

/-- A listing is complete. -/
theorem complete (h : Follows shown p s) :
    Follows shown .live
      ⟨{ s.observer with listed := true, relisted := .empty }, ⟨s.store.listed, .empty, true⟩⟩ where
  fresh := nofun
  live := fun _ => rfl
  stored := h.collected
  collected := fun r o ho => by
    rw [Objects.get?_empty] at ho
    cases ho
  listed := nofun
  relisted := nofun

/-- An object is listed. -/
theorem listed_object {os : List Object} (h : Follows shown (.listing os) s)
    (ht : s.take (.listed o) = .ok (changes, s')) (hr : o.ref = .ok r) (ho : o ∈ shown) :
    Follows shown (.listing (o :: os)) s' := by
  obtain ⟨-, hobserver, -⟩ := take_eq_ok ht
  obtain ⟨hobjects, hlisted, -⟩ | ⟨-, -, he⟩ | ⟨-, -, he⟩ := store_of_take ht rfl hr
  · have hfirst : s'.observer.listed = s.observer.listed := by
      rw [hobserver, Observer.listed_next_listed]
    refine ⟨fun hl => ?_, nofun, ?_, fun r' q hq => ?_, fun _ hos q hq r' hr' => ?_,
      fun _ hos hl key hk => ?_⟩
    · rw [hobjects]
      exact h.fresh (hfirst ▸ hl)
    · rw [hobjects]
      exact h.stored
    · rw [hlisted, Objects.get?_insert] at hq
      split at hq
      · next hrr =>
        cases hq
        exact ⟨hrr ▸ hr, ho⟩
      · exact h.collected r' q hq
    · cases hos
      rw [hlisted, Objects.get?_insert]
      split
      · exact ⟨o, rfl⟩
      · next hrr =>
        rcases List.mem_cons.1 hq with rfl | hq
        · exact absurd (Except.ok.inj (hr'.symm.trans hr)) hrr
        · exact h.listed os rfl q hq r' hr'
    · cases hos
      rw [hfirst] at hl
      simp only [hobserver, Observer.next, hl] at hk
      cases hkey : o.key? with
      | none =>
        simp only [hkey] at hk
        obtain ⟨q, hq, hmem⟩ := h.relisted os rfl hl key hk
        exact ⟨q, List.mem_cons_of_mem o hq, hmem⟩
      | some k =>
        simp only [hkey, NameSet.contains_add, Bool.or_eq_true, decide_eq_true_eq] at hk
        rcases hk with rfl | hk
        · exact ⟨o, List.mem_cons_self, ho, hkey⟩
        · obtain ⟨q, hq, hmem⟩ := h.relisted os rfl hl key hk
          exact ⟨q, List.mem_cons_of_mem o hq, hmem⟩
  · cases he
  · cases he

/-- A live event shows an object. -/
theorem live_object (h : Follows shown .live s) (he : e.object? = some o)
    (hlive : ∀ q, e ≠ .listed q) (ht : s.take e = .ok (changes, s')) (hr : o.ref = .ok r)
    (ho : o ∈ shown) : Follows shown .live s' := by
  have hnext : s'.observer = s.observer := by
    rw [(take_eq_ok ht).2.1]
    cases e with
    | listing | complete => cases he
    | listed q => exact absurd rfl (hlive q)
    | applied q | deleted q => rfl
  have hfirst : s'.observer.listed = true := by
    rw [hnext]
    exact h.live rfl
  refine ⟨fun hl => ?_, fun _ => hfirst, fun r' q hq => ?_, ?_, nofun, nofun⟩
  · rw [hfirst] at hl
    cases hl
  · obtain ⟨-, -, he'⟩ | ⟨hobjects, -⟩ | ⟨hobjects, -⟩ := store_of_take ht he hr
    · exact absurd he' (hlive o)
    · rw [hobjects, Objects.get?_insert] at hq
      split at hq
      · next hrr =>
        cases hq
        exact ⟨hrr ▸ hr, ho⟩
      · exact h.stored r' q hq
    · rw [hobjects, Objects.get?_erase] at hq
      split at hq
      · cases hq
      · exact h.stored r' q hq
  · obtain ⟨-, -, he'⟩ | ⟨-, hlisted, -⟩ | ⟨-, hlisted, -⟩ := store_of_take ht he hr
    · exact absurd he' (hlive o)
    · rw [hlisted]
      exact h.collected
    · rw [hlisted]
      exact h.collected

/-- Every event of a phase keeps the scene in line with its phase. -/
theorem take (h : Follows shown p s) (ha : p.Allows e) (hshown : ∀ o ∈ e.object?, o ∈ shown)
    (ht : s.take e = .ok (changes, s')) : Follows shown (p.next e) s' := by
  cases e with
  | listing =>
    cases take_listing.symm.trans ht
    exact h.listing
  | complete =>
    cases (take_complete h.fresh).symm.trans ht
    exact h.complete
  | listed o =>
    obtain ⟨r, hr⟩ := Object.exists_ref (ha.key? rfl)
    cases p with
    | listing os => exact h.listed_object ht hr (hshown o rfl)
    | fresh | live => exact ha.elim
  | applied o | deleted o =>
    obtain ⟨r, hr⟩ := Object.exists_ref (ha.key? rfl)
    cases p with
    | live => exact h.live_object rfl (by simp) ht hr (hshown o rfl)
    | fresh | listing os => exact ha.elim

end Follows

/-! ### Creates -/

/-- A create is reported of an object that is listed or applied, and of which nothing is stored. -/
theorem create_cases (hs : s.Fresh) (ht : s.take e = .ok (changes, s')) {c : Change}
    (hc : c ∈ changes) (htype : c.type = .create) :
    ∃ o, (e = .listed o ∨ e = .applied o) ∧ o.key? = some c.key ∧
      ∀ r, o.ref = .ok r → s.store.objects.get? r = none := by
  obtain ⟨⟨found, hf, rfl⟩, -⟩ := take_eq_ok ht
  obtain ⟨f, hmem, hchange⟩ := List.mem_filterMap.1 hc
  obtain ⟨key, hkey, rfl⟩ := Option.map_eq_some_iff.1 hchange
  have hcreate : f.type = .create := htype
  obtain ⟨o, rfl, hl, rfl⟩ | ⟨o, _, old?, he, hp, hfound⟩ | ⟨o, rfl, rfl⟩ | ⟨rfl, hvanished⟩ :=
    findings_cases hf hmem
  · refine ⟨o, .inl rfl, hkey, fun r _ => ?_⟩
    rw [hs hl, Objects.get?_empty]
  · obtain ⟨rfl, rfl⟩ | ⟨_, -, rfl⟩ := finding?_cases hfound
    · refine ⟨o, he, hkey, fun r hr => ?_⟩
      rw [predecessor?_of_ref _ hr, Except.ok.injEq, Objects.find?] at hp
      cases hg : s.store.objects.get? r with
      | none => rfl
      | some old => rw [hg] at hp; cases hp
    · cases hcreate
  · cases hcreate
  · obtain ⟨_, _, -, -, -, rfl⟩ := Observer.mem_vanished.1 hvanished
    cases hcreate

/-! ### What is known of a key -/

/-- The events of a run that can be taken, each with its changes. -/
def journal (s : Scene) : List WatchEvent → List (WatchEvent × List Change)
  | [] => []
  | e :: events =>
    match s.take e with
    | .ok (changes, s') => (e, changes) :: s'.journal events
    | .error _ => []

/-- Among the objects that are shown, those at `r` are the ones with the given key. -/
structure Names (shown : List Object) (r : Ref) (key : String) : Prop where
  named : ∀ o : Object, o.ref = .ok r → o.key? = some key
  ref : ∀ o ∈ shown, o.key? = some key → o.ref = .ok r

theorem names_of_faithful (h : Faithful shown) (ho : o ∈ shown) (hr : o.ref = .ok r)
    (hk : o.key? = some key) : Names shown r key where
  named := fun _ hq => (Object.key?_eq_of_ref hq hr).trans hk
  ref := fun q hq hqk => (h q hq o ho (hqk.trans hk.symm)).trans hr

/-- A deletion of the key is reported. -/
def Deletes (key : String) (changes : List Change) : Prop :=
  ∃ d ∈ changes, d.type = .delete ∧ d.key = key

/-- An object is stored at `r`. -/
def Stored (r : Ref) (s : Scene) : Prop := ∃ o, s.store.objects.get? r = some o

/-- An object at `r` is among those of the listing that is under way. -/
def Collected (r : Ref) (p : Phase) : Prop := ∃ os, p = .listing os ∧ ∃ o ∈ os, o.ref = .ok r

/-- The listing that is under way is given up in the course of the events. -/
def GivenUp (events : List WatchEvent) : Prop :=
  ∃ before after, events = before ++ .listing :: after ∧ .complete ∉ before

theorem journal_cons (ht : s.take e = .ok (changes, s')) (events : List WatchEvent) :
    s.journal (e :: events) = (e, changes) :: s'.journal events := by
  simp only [journal, ht]

/-- What is stored stays so until its deletion is reported. -/
theorem Follows.stored_take (h : Follows shown p s) (hn : Names shown r key) (ha : p.Allows e)
    (ht : s.take e = .ok (changes, s')) (hs : Stored r s) :
    Deletes key changes ∨ Stored r s' := by
  obtain ⟨x, hx⟩ := hs
  cases e with
  | listing =>
    cases take_listing.symm.trans ht
    exact .inr ⟨x, hx⟩
  | listed o =>
    obtain ⟨q, hq⟩ := Object.exists_ref (ha.key? rfl)
    obtain ⟨hobjects, -⟩ | ⟨-, -, he⟩ | ⟨-, -, he⟩ := store_of_take ht rfl hq
    · exact .inr ⟨x, hobjects ▸ hx⟩
    · cases he
    · cases he
  | applied o =>
    obtain ⟨q, hq⟩ := Object.exists_ref (ha.key? rfl)
    obtain ⟨-, -, he⟩ | ⟨hobjects, -⟩ | ⟨-, -, he⟩ := store_of_take ht rfl hq
    · cases he
    · refine .inr ?_
      rw [Stored, hobjects, Objects.get?_insert]
      split
      · exact ⟨o, rfl⟩
      · exact ⟨x, hx⟩
    · cases he
  | deleted o =>
    obtain ⟨q, hq⟩ := Object.exists_ref (ha.key? rfl)
    by_cases hqr : q = r
    · subst hqr
      obtain ⟨⟨found, hf, rfl⟩, -⟩ := take_eq_ok ht
      cases hf
      refine .inl ⟨s.observer.changeAt ⟨.delete, o, none⟩ key, ?_, rfl, rfl⟩
      simp [Observer.change?, hn.named o hq]
    · obtain ⟨-, -, he⟩ | ⟨-, -, he⟩ | ⟨hobjects, -⟩ := store_of_take ht rfl hq
      · cases he
      · cases he
      · refine .inr ⟨x, ?_⟩
        rw [hobjects, Objects.get?_erase, if_neg (Ne.symm hqr)]
        exact hx
  | complete =>
    cases (take_complete h.fresh).symm.trans ht
    cases p with
    | fresh | live => exact ha.elim
    | listing os =>
      have hl : s.observer.listed = true := by
        refine eq_true_of_ne_false fun hl => ?_
        rw [h.fresh hl, Objects.get?_empty] at hx
        cases hx
      cases hrelisted : s.observer.relisted.contains key with
      | true =>
        obtain ⟨o, hmem, hshown, hk⟩ := h.relisted os rfl hl key hrelisted
        exact .inr (h.listed os rfl o hmem r (hn.ref o hshown hk))
      | false =>
        have hhas : s.store.objects.versions.has key = true :=
          Objects.has_versions_of_get? hx (hn.named x (h.stored r x hx).1)
        obtain ⟨d, hd, hk⟩ := Observer.exists_vanished_key.2 ⟨hhas, hrelisted⟩
        exact .inl ⟨d, hd, Observer.type_of_vanished hd, hk⟩

/-- What is collected stays so until the listing is given up, or complete: then it is stored. -/
theorem Follows.collected_take (h : Follows shown p s) (ha : p.Allows e)
    (ht : s.take e = .ok (changes, s')) (hc : Collected r p) :
    e = .listing ∨ Stored r s' ∨ e ≠ .complete ∧ Collected r (p.next e) := by
  obtain ⟨os, rfl, o, ho, hr⟩ := hc
  cases e with
  | listing => exact .inl rfl
  | complete =>
    cases (take_complete h.fresh).symm.trans ht
    exact .inr (.inl (h.listed os rfl o ho r hr))
  | listed q => exact .inr (.inr ⟨nofun, q :: os, rfl, o, List.mem_cons_of_mem q ho, hr⟩)
  | applied q | deleted q => exact ha.elim

/-! ### Runs -/

variable {events mid : List WatchEvent} {passed after : List (WatchEvent × List Change)}

/-- The create of a key at which something is stored is not reported. -/
theorem Follows.not_create_of_stored (h : Follows shown p s) (hn : Names shown r key)
    (hshown : ∀ o ∈ e.object?, o ∈ shown) (ht : s.take e = .ok (changes, s')) (hs : Stored r s)
    {c : Change} (hc : c ∈ changes) (htype : c.type = .create) : c.key ≠ key := by
  intro hk
  obtain ⟨o, he, hkey, hnone⟩ := create_cases h.fresh ht hc htype
  have ho : o ∈ shown := by
    rcases he with rfl | rfl
    · exact hshown o rfl
    · exact hshown o rfl
  obtain ⟨x, hx⟩ := hs
  rw [hnone r (hn.ref o ho (hkey.trans (congrArg some hk)))] at hx
  cases hx

/-- From an object that is stored to the create of its key there is a deletion. -/
theorem Follows.deletes_of_stored (h : Follows shown p s) (hn : Names shown r key)
    (ha : Obeys Phase.next Phase.Allows p events)
    (hshown : ∀ e ∈ events, ∀ o ∈ e.object?, o ∈ shown) (hs : Stored r s)
    (hj : s.journal events = passed ++ (e, changes) :: after) {c : Change} (hc : c ∈ changes)
    (htype : c.type = .create) (hk : c.key = key) : ∃ entry ∈ passed, Deletes key entry.2 := by
  -- as long as the object is stored its create is not reported, and it stays so until a deletion
  induction events generalizing s p passed with
  | nil => simp [journal] at hj
  | cons first events ih =>
    obtain ⟨cs, next, ht⟩ := exists_take s ha.1
    have hfirst := hshown first List.mem_cons_self
    rw [journal_cons ht] at hj
    cases passed with
    | nil =>
      simp only [List.nil_append, List.cons.injEq, Prod.mk.injEq] at hj
      obtain ⟨⟨rfl, rfl⟩, -⟩ := hj
      exact absurd hk (h.not_create_of_stored hn hfirst ht hs hc htype)
    | cons entry passed =>
      simp only [List.cons_append, List.cons.injEq] at hj
      obtain ⟨rfl, hj⟩ := hj
      rcases h.stored_take hn ha.1 ht hs with hd | hs'
      · exact ⟨_, List.mem_cons_self, hd⟩
      · obtain ⟨entry, hmem, hd⟩ := ih (h.take ha.1 hfirst ht) ha.2
          (fun e he => hshown e (List.mem_cons_of_mem first he)) hs' hj
        exact ⟨entry, List.mem_cons_of_mem _ hmem, hd⟩

/-- From an object that is collected to the create of its key there is a deletion, or the listing
is given up. -/
theorem Follows.deletes_of_collected (h : Follows shown p s) (hn : Names shown r key)
    (ha : Obeys Phase.next Phase.Allows p events)
    (hshown : ∀ e ∈ events, ∀ o ∈ e.object?, o ∈ shown) (hcollected : Collected r p)
    (hj : s.journal events = passed ++ (e, changes) :: after) {c : Change} (hc : c ∈ changes)
    (htype : c.type = .create) (hk : c.key = key) :
    (∃ entry ∈ passed, Deletes key entry.2) ∨ GivenUp (passed.map Prod.fst) := by
  -- if the listing is not given up, the object is stored in the end
  induction events generalizing s p passed with
  | nil => simp [journal] at hj
  | cons first events ih =>
    obtain ⟨cs, next, ht⟩ := exists_take s ha.1
    have hfirst := hshown first List.mem_cons_self
    have hrest : ∀ e ∈ events, ∀ o ∈ e.object?, o ∈ shown :=
      fun e he => hshown e (List.mem_cons_of_mem first he)
    rw [journal_cons ht] at hj
    cases passed with
    | nil =>
      simp only [List.nil_append, List.cons.injEq, Prod.mk.injEq] at hj
      obtain ⟨⟨rfl, rfl⟩, -⟩ := hj
      obtain ⟨os, rfl, o, ho, hr⟩ := hcollected
      obtain ⟨q, hq, hkey, -⟩ := create_cases h.fresh ht hc htype
      -- a listing shows no key twice, and live events wait for its end
      rcases hq with rfl | rfl
      · exact absurd ((hn.named o hr).trans (hk ▸ hkey.symm)) (ha.1.2 o ho)
      · exact ha.1.elim
    | cons entry passed =>
      simp only [List.cons_append, List.cons.injEq] at hj
      obtain ⟨rfl, hj⟩ := hj
      have hnext := h.take ha.1 hfirst ht
      rcases h.collected_take ha.1 ht hcollected with rfl | hs | ⟨hne, hcollected⟩
      · exact .inr ⟨[], _, rfl, nofun⟩
      · obtain ⟨entry, hmem, hd⟩ := hnext.deletes_of_stored hn ha.2 hrest hs hj hc htype hk
        exact .inl ⟨entry, List.mem_cons_of_mem _ hmem, hd⟩
      · rcases ih hnext ha.2 hrest hcollected hj with ⟨entry, hmem, hd⟩ | ⟨before, rest, hb, hno⟩
        · exact .inl ⟨entry, List.mem_cons_of_mem _ hmem, hd⟩
        · refine .inr ⟨first :: before, rest, by rw [List.map_cons, hb]; rfl, fun hmem => ?_⟩
          rcases List.mem_cons.1 hmem with he | hmem
          · exact hne he.symm
          · exact hno hmem

/-- The journal of a run in phases has every event, with the changes that following reports. -/
theorem journal_of_obeys (s : Scene) (ha : Obeys Phase.next Phase.Allows p events) :
    (s.journal events).map Prod.fst = events ∧
      ∃ s', s.follow events = .ok ((s.journal events).flatMap Prod.snd, s') := by
  induction events generalizing s p with
  | nil => exact ⟨rfl, s, rfl⟩
  | cons e events ih =>
    obtain ⟨changes, next, ht⟩ := exists_take s ha.1
    obtain ⟨hfst, s', hf⟩ := ih next ha.2
    rw [journal_cons ht, List.map_cons, List.flatMap_cons, hfst]
    exact ⟨rfl, s', follow_cons_eq_ok_iff.2 ⟨_, _, _, ht, hf, rfl⟩⟩

/-- A journal may be cut anywhere: the rest is the journal of the rest of the run. -/
theorem Follows.exists_rest (h : Follows shown p s)
    (ha : Obeys Phase.next Phase.Allows p events)
    (hshown : ∀ e ∈ events, ∀ o ∈ e.object?, o ∈ shown) (hj : s.journal events = passed ++ after) :
    ∃ p' s' rest, Follows shown p' s' ∧ Obeys Phase.next Phase.Allows p' rest ∧
      (∀ e ∈ rest, ∀ o ∈ e.object?, o ∈ shown) ∧ s'.journal rest = after := by
  induction passed generalizing s p events with
  | nil => exact ⟨p, s, events, h, ha, hshown, hj⟩
  | cons entry passed ih =>
    cases events with
    | nil => simp [journal] at hj
    | cons e events =>
      obtain ⟨changes, next, ht⟩ := exists_take s ha.1
      rw [journal_cons ht, List.cons_append, List.cons.injEq] at hj
      exact ih (h.take ha.1 (hshown e List.mem_cons_self) ht) ha.2
        (fun e' he => hshown e' (List.mem_cons_of_mem e he)) hj.2

/-- **A creation is reported once, as long as no listing is given up.**  Let a watch begin with a
listing and alternate between listings and live events, where a listing may be given up for
another one, and let objects with one key have one reference.  Every event can be taken.  Between
any two creates of one key the deletion of the key is reported, or the first create is of a listing
that is given up in between. -/
theorem created_again_after_deletion_or_restart (kind : WatchedKind)
    (hphases : Obeys Phase.next Phase.Allows .fresh events)
    (hkeys : Faithful (events.filterMap WatchEvent.object?)) :
    let journal := (start kind).journal events
    (journal.map Prod.fst = events ∧
      ∃ s', (start kind).follow events = .ok (journal.flatMap Prod.snd, s')) ∧
    ∀ before mid after e₁ e₂ changes₁ changes₂,
      journal = before ++ (e₁, changes₁) :: (mid ++ (e₂, changes₂) :: after) →
      ∀ c₁ ∈ changes₁, ∀ c₂ ∈ changes₂, c₁.type = .create → c₂.type = .create →
        c₁.key = c₂.key →
        (∃ entry ∈ mid, Deletes c₁.key entry.2) ∨
          (∃ o, e₁ = .listed o) ∧ GivenUp (mid.map Prod.fst) := by
  intro journal
  refine ⟨journal_of_obeys _ hphases, ?_⟩
  intro before mid after e₁ e₂ changes₁ changes₂ hj c₁ hc₁ c₂ hc₂ ht₁ ht₂ hk
  have hshown : ∀ e ∈ events, ∀ o ∈ e.object?, o ∈ events.filterMap WatchEvent.object? :=
    fun e he o ho => List.mem_filterMap.2 ⟨e, he, ho⟩
  obtain ⟨p, s, rest, h, ha, hrest, hcut⟩ :=
    (follows_start kind _).exists_rest hphases hshown hj
  cases rest with
  | nil => simp [Scene.journal] at hcut
  | cons e rest =>
    obtain ⟨changes, next, htake⟩ := exists_take s ha.1
    rw [journal_cons htake, List.cons.injEq, Prod.mk.injEq] at hcut
    obtain ⟨⟨rfl, rfl⟩, htail⟩ := hcut
    have hfirst := hrest e List.mem_cons_self
    have hlater : ∀ e' ∈ rest, ∀ o ∈ e'.object?, o ∈ events.filterMap WatchEvent.object? :=
      fun e' he => hrest e' (List.mem_cons_of_mem e he)
    have hnext := h.take ha.1 hfirst htake
    obtain ⟨o, he, hkey, -⟩ := create_cases h.fresh htake hc₁ ht₁
    obtain ⟨r, hr⟩ := Object.exists_ref (o := o) (by rw [hkey]; rfl)
    rcases he with rfl | rfl
    · have hn := names_of_faithful hkeys (hfirst o rfl) hr hkey
      have hcollected : Collected r (p.next (.listed o)) := by
        cases p with
        | listing os => exact ⟨o :: os, rfl, o, List.mem_cons_self, hr⟩
        | fresh | live => exact ha.1.elim
      have hagain := hnext.deletes_of_collected hn ha.2 hlater hcollected htail hc₂ ht₂ hk.symm
      exact hagain.imp_right fun hgiven => ⟨⟨o, rfl⟩, hgiven⟩
    · have hn := names_of_faithful hkeys (hfirst o rfl) hr hkey
      have hstored : Stored r next := by
        obtain ⟨-, -, he⟩ | ⟨hobjects, -⟩ | ⟨-, -, he⟩ := store_of_take htake rfl hr
        · cases he
        · exact ⟨o, by rw [hobjects, Objects.get?_insert, if_pos rfl]⟩
        · cases he
      exact .inl (hnext.deletes_of_stored hn ha.2 hlater hstored htail hc₂ ht₂ hk.symm)

/-- A pod is listed, listed again by another listing, deleted and created again. -/
theorem pod_created_again :
    let kind : WatchedKind := ⟨"Pod", "", "v1", "pods", true, none, .empty⟩
    let pod (name : String) : Object := ⟨none, { name, namespaceName := "a" }, []⟩
    let events : List WatchEvent :=
      [.listing, .listed (pod "x"), .listing, .listed (pod "y"), .listed (pod "x"), .complete,
        .deleted (pod "x"), .applied (pod "x")]
    let journal := (start kind).journal events
    Obeys Phase.next Phase.Allows .fresh events ∧
      Faithful (events.filterMap WatchEvent.object?) ∧
      (journal.flatMap Prod.snd).map (fun c => (c.type, c.key)) =
        [(.create, "a/x"), (.create, "a/y"), (.create, "a/x"), (.delete, "a/x"),
          (.create, "a/x")] ∧
      (journal.map Prod.fst = events ∧
        ∃ s', (start kind).follow events = .ok (journal.flatMap Prod.snd, s')) ∧
      ∀ before mid after e₁ e₂ changes₁ changes₂,
        journal = before ++ (e₁, changes₁) :: (mid ++ (e₂, changes₂) :: after) →
        ∀ c₁ ∈ changes₁, ∀ c₂ ∈ changes₂, c₁.type = .create → c₂.type = .create →
          c₁.key = c₂.key →
          (∃ entry ∈ mid, Deletes c₁.key entry.2) ∨
            (∃ o, e₁ = .listed o) ∧ GivenUp (mid.map Prod.fst) := by
  intro kind pod events journal
  have hphases : Obeys Phase.next Phase.Allows .fresh events := by decide +kernel
  have hkeys : Faithful (events.filterMap WatchEvent.object?) := faithful_of_plain (by decide)
  exact ⟨hphases, hkeys, by decide +kernel,
    created_again_after_deletion_or_restart kind hphases hkeys⟩

/-- A listing that shows a pod is given up, and the next one reports the creation of the pod again.
No deletion is reported in between. -/
theorem created_again_by_restart :
    ¬ ∀ (kind : WatchedKind) (events : List WatchEvent),
      Obeys Phase.next Phase.Allows .fresh events →
      Faithful (events.filterMap WatchEvent.object?) →
      ∀ before mid after e₁ e₂ changes₁ changes₂,
        (start kind).journal events =
          before ++ (e₁, changes₁) :: (mid ++ (e₂, changes₂) :: after) →
        ∀ c₁ ∈ changes₁, ∀ c₂ ∈ changes₂, c₁.type = .create → c₂.type = .create →
          c₁.key = c₂.key → ∃ entry ∈ mid, Deletes c₁.key entry.2 := by
  intro h
  let kind : WatchedKind := ⟨"Pod", "", "v1", "pods", true, none, .empty⟩
  let x : Object := ⟨none, { name := "x", namespaceName := "a" }, []⟩
  let r : Ref := ⟨"a", "x"⟩
  have hr : r.Plain := by decide
  have ht := take_listed (s := start kind) (o := x) (fun _ => rfl) rfl hr
  have hj : (start kind).journal [.listing, .listed x, .listing, .listed x] =
      [(.listing, [])] ++ (.listed x, [(start kind).observer.changeAt ⟨.create, x, none⟩ r.key]) ::
        ([(.listing, [])] ++
          (.listed x, [(start kind).observer.changeAt ⟨.create, x, none⟩ r.key]) :: []) := by
    rw [journal_cons take_listing]
    -- when a listing begins the scene is the first one again
    change _ :: (start kind).journal _ = _
    rw [journal_cons ht, journal_cons take_listing]
    change _ :: _ :: _ :: (start kind).journal _ = _
    rw [journal_cons ht]
    rfl
  obtain ⟨entry, hmem, d, hd, -⟩ := h kind _ (by decide +kernel) (faithful_of_plain (by decide))
    _ _ _ _ _ _ _ hj _ List.mem_cons_self _ List.mem_cons_self rfl rfl rfl
  rw [List.mem_singleton.1 hmem] at hd
  cases hd

end Scene

end ClusterHerald
