import ClusterHerald.Proofs.Watch.Nameless

/-!
# Looking up what is stored

An object is stored by its reference, queued by its key, and looked up by what its key is taken
apart to.  These agree for plain objects: the look-up of the key of a stored plain object gives just
that object (`Store.lookup_agrees_with_keys`).  A key that nothing stored has is not always without
an answer, since a look-up that fails within a namespace is made again without it.

An empty namespace is no part of a key, but it is part of a reference.  So an object that is stored
with an empty namespace is not found by its key (`Store.unfound_and_borrowed`).
-/

namespace ClusterHerald

namespace Objects

variable {os : Objects} {o : Object} {r : Ref}

/-- What is stored is found at its own reference, and nothing else is. -/
theorem Own.get?_eq_some_iff (h : os.Own) : os.get? r = some o ↔ o ∈ os.toList ∧ o.ref = .ok r := by
  constructor
  · intro hget
    obtain ⟨before, after, hentries, -⟩ := List.lookup_eq_some_iff.1 hget
    have hmem : (r, o) ∈ os.entries := by simp [hentries]
    exact ⟨List.mem_map.2 ⟨_, hmem, rfl⟩, h _ hmem⟩
  · rintro ⟨hmem, hr⟩
    obtain ⟨e, he, rfl⟩ := List.mem_map.1 hmem
    obtain rfl : e.1 = r := Except.ok.inj ((h e he).symm.trans hr)
    exact lookup_of_mem os.nodup he

end Objects

namespace Store

variable {s s' : Store} {events : List WatchEvent}

/-- Events that are applied keep what is stored, and what a listing has collected, under its own
references. -/
theorem own_of_foldlM (h : s.objects.Own ∧ s.listed.Own)
    (hrun : events.foldlM apply s = .ok s') : s'.objects.Own ∧ s'.listed.Own := by
  induction events generalizing s with
  | nil =>
    cases hrun
    exact h
  | cons e events ih =>
    rw [List.foldlM_cons] at hrun
    cases ha : s.apply e with
    | error => rw [ha] at hrun; cases hrun
    | ok mid =>
      rw [ha] at hrun
      have hmid := keeps_of_apply (p := Objects.Own) Objects.own_empty
        (fun _ _ _ _ hr hos => hos.insert hr) (fun r _ hos => hos.erase r) ha h
      exact ih hmid hrun

/-- **Look-ups agree with keys.**  Let any events be applied to an empty store.  A stored plain
object has a key, and the look-up of the key gives that object.  A well-formed key that no stored
object has is looked up without an error; what is found, if anything, is the object of that name
that is stored without a namespace, and only if the key has one. -/
theorem lookup_agrees_with_keys (h : events.foldlM apply empty = .ok s) :
    (∀ o ∈ s.objects.toList, o.Plain → ∃ key, o.key? = some key ∧ s.lookup key = .ok (some o)) ∧
    ∀ key ns name, Key.parse key = .ok (ns, name) → (∀ o ∈ s.objects.toList, o.key? ≠ some key) →
      ∃ found?, s.lookup key = .ok found? ∧
        ∀ o, found? = some o ↔
          ns.isSome = true ∧ o ∈ s.objects.toList ∧ o.ref = .ok ⟨none, name⟩ := by
  have hown : s.objects.Own := (own_of_foldlM ⟨Objects.own_empty, Objects.own_empty⟩ h).1
  constructor
  · rintro o ho ⟨r, hr, hplain⟩
    have hget : s.objects.get? r = some o := hown.get?_eq_some_iff.2 ⟨ho, hr⟩
    refine ⟨r.key, Object.key?_of_ref hr hplain, ?_⟩
    rw [lookup_key s hplain, Objects.find?, hget]
  · intro key ns name hparse hkey
    obtain ⟨hplain, rfl⟩ := Key.plain_of_parse hparse
    have hget : s.objects.get? ⟨ns, name⟩ = none := by
      refine Option.eq_none_iff_forall_ne_some.2 fun o ho => ?_
      obtain ⟨hmem, hr⟩ := hown.get?_eq_some_iff.1 ho
      exact hkey o hmem (Object.key?_of_ref hr hplain)
    refine ⟨_, lookup_key s hplain, fun o => ?_⟩
    simp only [Objects.find?, hget]
    cases ns with
    | none => simp [hget]
    | some ns => simp [hown.get?_eq_some_iff]

/-- A pod without a namespace and one of the same name in a namespace are both found, and a pod that
is not stored is not. -/
theorem namesakes_found :
    let pod (ns : Option String) : Object := ⟨none, { name := "x", namespaceName := ns }, []⟩
    let events : List WatchEvent := [.listing, .listed (pod none), .complete, .applied (pod "a")]
    ∃ s, events.foldlM apply empty = .ok s ∧ s.lookup "x" = .ok (some (pod none)) ∧
      s.lookup "a/x" = .ok (some (pod "a")) ∧ s.lookup "a/y" = .ok none := by
  intro pod events
  obtain ⟨s, hs⟩ : ∃ s, events.foldlM apply empty = .ok s := ⟨_, rfl⟩
  have hstored : s.objects.toList = [pod "a", pod none] := by
    cases hs
    rfl
  obtain ⟨hfound, hother⟩ := lookup_agrees_with_keys hs
  rw [hstored] at hfound hother
  refine ⟨s, hs, ?_, ?_, ?_⟩
  · obtain ⟨key, hkey, hlookup⟩ := hfound (pod none) (by simp) (by decide)
    cases hkey
    exact hlookup
  · obtain ⟨key, hkey, hlookup⟩ := hfound (pod "a") (by simp) (by decide)
    cases hkey
    exact hlookup
  · obtain ⟨found?, hlookup, hiff⟩ := hother "a/y" "a" "y" (by decide) (by decide)
    cases found? with
    | none => exact hlookup
    | some o =>
      obtain ⟨-, hmem, href⟩ := (hiff o).1 rfl
      obtain rfl | rfl : o = pod "a" ∨ o = pod none := by simpa using hmem
      · exact absurd href (by decide)
      · exact absurd href (by decide)

/-- A pod that is stored with an empty namespace is not found by its key, although no other pod has
that key.  A pod without a namespace is found by the key of its namesake in a namespace, although no
pod has that key. -/
theorem unfound_and_borrowed :
    (¬ ∀ (events : List WatchEvent) (s : Store), events.foldlM apply empty = .ok s →
      ∀ o ∈ s.objects.toList, ∀ name, o.metadata.name = some name → Key.IsPart name →
        (∀ ns ∈ o.metadata.namespaceName, '/' ∉ ns.toList) →
        (∀ o' ∈ s.objects.toList, o'.key? = o.key? → o' = o) →
        ∃ key, o.key? = some key ∧ s.lookup key = .ok (some o)) ∧
    ¬ ∀ (events : List WatchEvent) (s : Store), events.foldlM apply empty = .ok s →
      ∀ key ns name, Key.parse key = .ok (ns, name) → (∀ o ∈ s.objects.toList, o.key? ≠ some key) →
        s.lookup key = .ok none := by
  constructor
  · intro h
    let pod : Object := ⟨none, { name := "x", namespaceName := "" }, []⟩
    obtain ⟨key, hkey, hlookup⟩ := h [.applied pod] _ rfl pod (List.mem_singleton.2 rfl) "x" rfl
      (by decide) (by decide) fun o' ho' _ => List.mem_singleton.1 ho'
    obtain rfl : "x" = key := Option.some.inj hkey
    have hparse : Key.parse "x" = .ok (none, "x") := by decide
    rw [lookup, hparse] at hlookup
    cases hlookup
  · intro h
    let pod : Object := ⟨none, { name := "x" }, []⟩
    have hlookup := h [.applied pod] _ rfl "a/x" "a" "x" (by decide) (by decide)
    cases hlookup

end Store

end ClusterHerald
