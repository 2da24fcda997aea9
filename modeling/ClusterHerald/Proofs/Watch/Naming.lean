import ClusterHerald.Proofs.Watch.Listing
import ClusterHerald.Proofs.Watch.Lookup

/-!
# Keys as names of objects

An object can be named by a key if its name is a part of a key and its namespace, if it has one,
has no slash (`Object.Named`).  An empty namespace is as good as none here, unlike in references.
The key of such an object, taken apart, gives its namespace and its name back, and the keys that can
be taken apart are no others than these (`Key.parse_eq_ok_iff`, `Object.key?_of_parse`).

So a change of such an object is never refused for its key: it cannot be resolved only if the cache
does not answer (`Change.error_of_resolve`).
-/

namespace ClusterHerald

namespace Object

variable {o o' : Object} {name name' : String}

/-- The name of the object is a part of a key, and its namespace has no slash.  The namespace may be
missing or empty. -/
structure Named (o : Object) (name : String) : Prop where
  metadataName : o.metadata.name = some name
  isPart : Key.IsPart name
  noSlash : ∀ ns ∈ o.metadata.namespaceName, '/' ∉ ns.toList

/-- The namespace of an object, unless it is empty. -/
def namespacePart? (o : Object) : Option String :=
  o.metadata.namespaceName.filter (· ≠ "")

theorem namespacePart?_getD (o : Object) :
    o.namespacePart?.getD "" = o.metadata.namespaceName.getD "" := by
  cases hns : o.metadata.namespaceName with
  | none => simp [namespacePart?, hns]
  | some ns => by_cases he : ns = "" <;> simp [namespacePart?, Option.filter, hns, he]

theorem key?_eq_of_name (h : o.metadata.name = some name) (hne : name ≠ "") :
    o.key? = some (Ref.key ⟨o.namespacePart?, name⟩) := by
  simp only [key?, h, if_neg hne, Ref.key, namespacePart?]
  cases o.metadata.namespaceName with
  | none => rfl
  | some ns => by_cases hns : ns = "" <;> simp [Key.ofParts, Option.filter, hns]

theorem Named.plain (h : o.Named name) : Ref.Plain ⟨o.namespacePart?, name⟩ := by
  refine ⟨h.isPart, fun ns hns => ?_⟩
  obtain ⟨hmem, hne⟩ := Option.mem_filter_iff.1 hns
  exact ⟨by simpa using hne, h.noSlash ns hmem⟩

theorem Named.key? (h : o.Named name) :
    o.key? = some (Ref.key ⟨o.namespacePart?, name⟩) :=
  key?_eq_of_name h.metadataName h.isPart.1

/-- Objects that can be named have one key only if name and namespace are the same. -/
theorem Named.parts_eq (h : o.Named name) (h' : o'.Named name') (hk : o.key? = o'.key?) :
    name = name' ∧ o.namespacePart? = o'.namespacePart? := by
  rw [h.key?, h'.key?, Option.some.injEq] at hk
  have hr := Ref.key_inj h.plain h'.plain hk
  exact ⟨congrArg Ref.name hr, congrArg Ref.namespaceName hr⟩

/-- An object with the parts of a key has that key. -/
theorem key?_of_parse {key : String} {ns : Option String} (h : Key.parse key = .ok (ns, name))
    (hname : o.metadata.name = some name) (hns : o.namespacePart? = ns) : o.key? = some key := by
  obtain ⟨hplain, hkey⟩ := Key.plain_of_parse h
  rw [key?_eq_of_name hname hplain.1.1, hns, hkey]

end Object

/-- The keys that can be taken apart: a name, or a namespace and a name with a slash between. -/
theorem Key.parse_eq_ok_iff {key name : String} {ns : Option String} :
    parse key = .ok (ns, name) ↔ IsPart name ∧ (∀ n ∈ ns, IsPart n) ∧
      key = (ns.map (· ++ "/")).getD "" ++ name := by
  have hkey (hns : ∀ n ∈ ns, IsPart n) :
      Ref.key ⟨ns, name⟩ = (ns.map (· ++ "/")).getD "" ++ name := by
    cases ns with
    | none => simp [Ref.key, ofParts]
    | some n => simp [Ref.key, ofParts, (hns n rfl).1]
  constructor
  · intro h
    obtain ⟨⟨hname, hns⟩, rfl⟩ := plain_of_parse h
    exact ⟨hname, hns, hkey hns⟩
  · rintro ⟨hname, hns, rfl⟩
    rw [← hkey hns]
    exact parse_key ⟨hname, hns⟩

namespace Change

universe u

variable {σ : Type u} {c : Change} {ns : Option String} {name : String} {anchor : Instant}

/-- A change with a well-formed key cannot be resolved only if the cache is asked and does not
answer. -/
theorem error_of_resolve {lookup : String → σ → Except LookupError (Option Object) × σ} {s : σ}
    {error : LookupError} (hk : Key.parse c.key = .ok (ns, name))
    (h : (c.resolve anchor lookup s).1 = .error error) :
    c.type ≠ .delete ∧ (lookup c.key s).1 = .error error := by
  have hcurrent : (c.current lookup s).1 = .error error := by
    simp only [resolve, hk] at h
    cases hc : (c.current lookup s).1 with
    | error e => simpa [hc, Except.map] using h
    | ok o => simp [hc, Except.map] at h
  cases ht : c.type with
  | delete => simp [current, ht] at hcurrent
  | create | update =>
    refine ⟨nofun, ?_⟩
    simp only [current, ht] at hcurrent
    cases hl : (lookup c.key s).1 with
    | error e => simpa [hl, Except.map] using hcurrent
    | ok found => simp [hl, Except.map] at hcurrent

/-- The cache of a pipeline answers a well-formed key, unless it cannot be asked. -/
theorem unavailable_of_resolve {store : Store} {memory : Option MemoryCache} {error : LookupError}
    (hk : Key.parse c.key = .ok (ns, name))
    (h : (c.resolve anchor (Pipeline.world store).lookup memory).1 = .error error) :
    memory ≠ none ∧ error = .unavailable c.key := by
  obtain ⟨-, he⟩ := error_of_resolve hk h
  cases memory with
  | none =>
    obtain ⟨hplain, hkey⟩ := Key.plain_of_parse hk
    simp [Pipeline.world, ← hkey, store.lookup_key hplain] at he
  | some cache =>
    refine ⟨nofun, ?_⟩
    simp only [Pipeline.world, MemoryCache.lookup, MemoryCache.answer] at he
    split at he
    · exact (Except.error.inj he).symm
    · simp [hk, Except.map] at he

end Change

/-- A finding is one of the object that the event shows, or of a stored one that a listing lacks. -/
theorem Observer.shown_or_stored {w : Observer} {s : Store} {e : WatchEvent} {found : List Finding}
    {f : Finding} {key : String} (hfound : w.findings s e = .ok found) (hf : f ∈ found)
    (hkey : f.object.key? = some key) :
    e.object? = some f.object ∨
      e = .complete ∧ f.object ∈ s.objects.toList ∧ w.relisted.contains key = false := by
  cases he : e.object? with
  | some o => exact .inl (by rw [Scene.object_of_findings hfound he f hf])
  | none =>
    obtain ⟨o, rfl, -⟩ | ⟨o, _, _, rfl | rfl, -⟩ | ⟨o, rfl, -⟩ | ⟨rfl, hgone⟩ :=
      Scene.findings_cases hfound hf
    · cases he
    · cases he
    · cases he
    · cases he
    · obtain ⟨o, key', hmem, hkey', hlacks, rfl⟩ := mem_vanished.1 hgone
      obtain rfl : key' = key := Option.some.inj (hkey'.symm.trans hkey)
      exact .inr ⟨rfl, hmem, hlacks⟩

/-- A change is one of the object that the event shows, or of a stored one, and has its key. -/
theorem Observer.exists_object_of_observe {w : Observer} {s : Store} {e : WatchEvent}
    {seen : Observed} (h : w.observe s e = .ok seen) {c : Change} (hc : c ∈ seen.changes) :
    ∃ o, (e.object? = some o ∨ o ∈ s.objects.toList) ∧ o.key? = some c.key := by
  obtain ⟨found, hfound, hchanges⟩ :
      ∃ found, w.findings s e = .ok found ∧ seen.changes = found.filterMap w.change? := by
    simp only [observe, bind, Except.bind, pure, Except.pure] at h
    split at h
    · cases h
    · next found hfound =>
      cases h
      exact ⟨found, hfound, rfl⟩
  obtain ⟨f, hf, hchange⟩ := List.mem_filterMap.1 (hchanges ▸ hc)
  obtain ⟨key, hkey, rfl⟩ := Option.map_eq_some_iff.1 hchange
  exact ⟨f.object, (shown_or_stored hfound hf hkey).imp_right fun hgone => hgone.2.1, hkey⟩

/-- **Keys name objects faithfully.**  An object that can be named has a key, and the key, taken
apart, gives its name and its namespace; no namespace if that is empty.  Exactly those keys can be
taken apart that are a name, or a namespace and a name with a slash between, and every object with
these parts has just that key.  So objects that can be named have one key only if name and namespace
are the same.  A change of such an object has its key; it is never refused for it, and what fails
with any cache is the look-up. -/
theorem Key.names_objects :
    (∀ (o : Object) name, o.Named name →
      ∃ key, o.key? = some key ∧ parse key = .ok (o.namespacePart?, name)) ∧
    (∀ key ns name,
      (parse key = .ok (ns, name) ↔ IsPart name ∧ (∀ n ∈ ns, IsPart n) ∧
        key = (ns.map (· ++ "/")).getD "" ++ name) ∧
      (parse key = .ok (ns, name) → ∀ o : Object, o.metadata.name = some name →
        o.namespacePart? = ns → o.key? = some key)) ∧
    (∀ (o o' : Object) name name', o.Named name → o'.Named name' → o.key? = o'.key? →
      name = name' ∧ o.metadata.namespaceName.getD "" = o'.metadata.namespaceName.getD "") ∧
    ∀ (w : Observer) (s : Store) (e : WatchEvent) (seen : Observer.Observed),
      w.observe s e = .ok seen → ∀ c ∈ seen.changes,
        ∃ o, (e.object? = some o ∨ o ∈ s.objects.toList) ∧ o.key? = some c.key ∧
          ∀ name, o.Named name →
            parse c.key = .ok (o.namespacePart?, name) ∧
            (∀ (σ : Type) (anchor : Instant)
              (lookup : String → σ → Except LookupError (Option Object) × σ) (t : σ) (error),
              (c.resolve anchor lookup t).1 = .error error → (lookup c.key t).1 = .error error) ∧
            ∀ (anchor : Instant) (store : Store) (memory : Option MemoryCache) (key : String),
              (c.resolve anchor (Pipeline.world store).lookup memory).1 ≠
                .error (.malformedKey key) := by
  refine ⟨fun o name ho => ⟨_, ho.key?, parse_key ho.plain⟩,
    fun key ns name => ⟨parse_eq_ok_iff, fun h o hname hns => Object.key?_of_parse h hname hns⟩,
    fun o o' name name' ho ho' hk => ?_, fun w s e seen hseen c hc => ?_⟩
  · obtain ⟨hname, hns⟩ := ho.parts_eq ho' hk
    rw [← o.namespacePart?_getD, ← o'.namespacePart?_getD, hns]
    exact ⟨hname, rfl⟩
  · obtain ⟨o, hshown, hkey⟩ := Observer.exists_object_of_observe hseen hc
    refine ⟨o, hshown, hkey, fun name ho => ?_⟩
    have hk : parse c.key = .ok (o.namespacePart?, name) := by
      rw [ho.key?, Option.some.injEq] at hkey
      rw [← hkey, parse_key ho.plain]
    refine ⟨hk, fun σ anchor lookup t error h => (Change.error_of_resolve hk h).2,
      fun anchor store memory key h => ?_⟩
    cases (Change.unavailable_of_resolve hk h).2

/-- A pod in a namespace, a node of the same name, and one with an empty namespace: only the last
two share a key.  The creation of the pod is resolved in an empty store. -/
theorem Key.pod_and_node_named :
    let pod : Object := ⟨none, { name := "x", namespaceName := "a" }, []⟩
    let node (ns : Option String) : Object := ⟨none, { name := "x", namespaceName := ns }, []⟩
    pod.Named "x" ∧ (node none).Named "x" ∧ (node "").Named "x" ∧
      pod.key? = some "a/x" ∧ parse "a/x" = .ok ("a", "x") ∧
      (node "").key? = some "x" ∧ parse "x" = .ok (none, "x") ∧
      pod.key? ≠ (node none).key? ∧
      ∃ seen c, (Observer.start ⟨"Pod", "", "v1", "pods", true, none, .empty⟩).observe .empty
          (.applied pod) = .ok seen ∧ c ∈ seen.changes ∧
        ∀ anchor key, (c.resolve anchor (Pipeline.world .empty).lookup none).1 ≠
          .error (.malformedKey key) := by
  intro pod node
  have hpod : pod.Named "x" := ⟨rfl, by decide, by decide⟩
  have hnone : (node none).Named "x" := ⟨rfl, by decide, by decide⟩
  have hempty : (node "").Named "x" := ⟨rfl, by decide, by decide⟩
  obtain ⟨hcode, -, hshared, hchanges⟩ := names_objects
  obtain ⟨_, hkey, hparse⟩ := hcode pod "x" hpod
  cases hkey
  obtain ⟨_, hkey', hparse'⟩ := hcode (node "") "x" hempty
  cases hkey'
  refine ⟨hpod, hnone, hempty, rfl, hparse, rfl, hparse', fun h => ?_, ?_⟩
  · exact absurd (hshared pod (node none) "x" "x" hpod hnone h).2 (by decide)
  · let w := Observer.start ⟨"Pod", "", "v1", "pods", true, none, .empty⟩
    obtain ⟨seen, hseen⟩ : ∃ seen, w.observe .empty (.applied pod) = .ok seen := ⟨_, rfl⟩
    obtain ⟨c, hc⟩ : ∃ c, c ∈ seen.changes := by
      cases hseen
      exact ⟨_, List.mem_singleton.2 rfl⟩
    refine ⟨seen, c, hseen, hc, fun anchor key => ?_⟩
    obtain ⟨o, hshown, -, hnamed⟩ := hchanges w .empty (.applied pod) seen hseen c hc
    obtain rfl : o = pod := by
      obtain he | hstored := hshown
      · exact (Option.some.inj he).symm
      · cases hstored
    exact (hnamed "x" hpod).2.2 anchor .empty none key

end ClusterHerald
