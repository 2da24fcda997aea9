import ClusterHerald.Store
import Mathlib.Data.List.TakeWhile

/-!
# Keys of references

A reference is plain if its name, and its namespace if it has one, is not empty and has no slash.
`Key.parse_key` : the key of a plain reference, taken apart, gives the reference back.  So plain
references have different keys (`Ref.key_inj`), and an object that is stored at a plain reference
has the key of the reference (`Object.key?_of_ref`).  Conversely every key that can be taken apart
is the key of a plain reference (`Key.plain_of_parse`).
-/

namespace ClusterHerald

section

variable {ε α : Type} {p : α → Prop} [DecidablePred p]

instance decidableForallOk : ∀ x : Except ε α, Decidable (∀ a, x = .ok a → p a)
  | .ok a => decidable_of_iff (p a) ⟨fun h _ ha => Except.ok.inj ha ▸ h, fun h => h a rfl⟩
  | .error _ => isTrue nofun

instance decidableExistsOk : ∀ x : Except ε α, Decidable (∃ a, x = .ok a ∧ p a)
  | .ok a => decidable_of_iff (p a) ⟨fun h => ⟨a, rfl, h⟩, fun ⟨_, ha, h⟩ => Except.ok.inj ha ▸ h⟩
  | .error _ => isFalse nofun

end

/-- A part of a key: it is not empty and has no slash. -/
def Key.IsPart (s : String) : Prop := s ≠ "" ∧ '/' ∉ s.toList

instance : DecidablePred Key.IsPart := fun _ => inferInstanceAs (Decidable (_ ∧ _))

namespace Ref

/-- The name and the namespace, if there is one, may be parts of a key. -/
def Plain (r : Ref) : Prop :=
  Key.IsPart r.name ∧ ∀ ns ∈ r.namespaceName, Key.IsPart ns

instance : DecidablePred Plain := fun _ => inferInstanceAs (Decidable (_ ∧ _))

/-- The key of a reference. -/
def key (r : Ref) : String := Key.ofParts r.namespaceName r.name

end Ref

namespace Key

theorem forall_ne_slash {s : List Char} (h : '/' ∉ s) : ∀ c ∈ s, decide (c ≠ '/') = true :=
  fun _ hc => decide_eq_true (ne_of_mem_of_not_mem hc h)

theorem split_of_not_mem {s : List Char} (h : '/' ∉ s) : split s = (none, s) := by
  have hs : s.dropWhile (· ≠ '/') = [] := by
    rw [← List.append_nil s, List.dropWhile_append_of_pos (forall_ne_slash h), List.dropWhile_nil]
  rw [split, hs]

theorem split_append {s rest : List Char} (h : '/' ∉ s) :
    split (s ++ '/' :: rest) = (some s, rest) := by
  rw [split, List.dropWhile_append_of_pos (forall_ne_slash h),
    List.takeWhile_append_of_pos (forall_ne_slash h)]
  simp

/-- A plain reference can be read off its key. -/
theorem parse_key {r : Ref} (h : r.Plain) : parse r.key = .ok (r.namespaceName, r.name) := by
  obtain ⟨ns, name⟩ := r
  obtain ⟨⟨hne, hslash⟩, hns⟩ := h
  have hne' : name.toList ≠ [] := by simpa using hne
  cases ns with
  | none => simp [parse, Ref.key, ofParts, split_of_not_mem hslash, hne', hslash]
  | some ns =>
    obtain ⟨hn, hs⟩ := hns ns rfl
    have hn' : ns.toList ≠ [] := by simpa using hn
    have hkey : (Ref.key ⟨some ns, name⟩).toList = ns.toList ++ '/' :: name.toList := by
      simp [Ref.key, ofParts, hn]
    simp [parse, hkey, split_append hs, hne', hslash, hn']

end Key

namespace Key

theorem split_eq_none {s name : List Char} (h : split s = (none, name)) : s = name ∧ '/' ∉ name := by
  simp only [split] at h
  split at h
  · next hs =>
    cases h
    exact ⟨rfl, fun hmem => by simpa using List.dropWhile_eq_nil_iff.1 hs _ hmem⟩
  · cases h

theorem split_eq_some {s ns name : List Char} (h : split s = (some ns, name)) :
    s = ns ++ '/' :: name ∧ '/' ∉ ns := by
  simp only [split] at h
  split at h
  · cases h
  · next c rest hs =>
    cases h
    have hc := List.head?_dropWhile_not (· ≠ '/') s
    rw [hs] at hc
    obtain rfl : c = '/' := by simpa using hc
    refine ⟨?_, fun hmem => by simpa using List.mem_takeWhile_imp hmem⟩
    rw [← hs, List.takeWhile_append_dropWhile]

/-- A key that is well formed is the key of the plain reference that it is taken apart to. -/
theorem plain_of_parse {key name : String} {ns : Option String}
    (h : parse key = .ok (ns, name)) : Ref.Plain ⟨ns, name⟩ ∧ Ref.key ⟨ns, name⟩ = key := by
  simp only [parse] at h
  split at h
  · cases h
  · next hform =>
    obtain ⟨hne, hslash, hns⟩ : ¬ _ ∧ ¬ _ ∧ ¬ _ := by simpa only [not_or] using hform
    cases h
    rcases hs : split key.toList with ⟨_ | before, after⟩ <;> rw [hs] at hne hslash hns
    · obtain ⟨hkey, -⟩ := split_eq_none hs
      refine ⟨⟨⟨by simpa using hne, by simpa using hslash⟩, fun _ hmem => nomatch hmem⟩, ?_⟩
      simp [Ref.key, ofParts, ← hkey]
    · obtain ⟨hkey, hbefore⟩ := split_eq_some hs
      have hns' : before ≠ [] := fun he => hns (congrArg some he)
      refine ⟨⟨⟨by simpa using hne, by simpa using hslash⟩, ?_⟩, ?_⟩
      · rintro _ ⟨⟩
        exact ⟨by simpa using hns', by simpa using hbefore⟩
      · rw [← String.toList_inj, hkey]
        simp [Ref.key, ofParts, hns']

end Key

theorem Ref.key_inj {r r' : Ref} (h : r.Plain) (h' : r'.Plain) (hk : r.key = r'.key) : r = r' := by
  have := Key.parse_key h
  rw [hk, Key.parse_key h'] at this
  obtain ⟨ns, name⟩ := r
  obtain ⟨ns', name'⟩ := r'
  simp only [Except.ok.injEq, Prod.mk.injEq] at this
  obtain ⟨rfl, rfl⟩ := this
  rfl

theorem Store.lookup_key (store : Store) {r : Ref} (hr : r.Plain) :
    store.lookup r.key = .ok (store.objects.find? r) := by
  simp only [lookup, Key.parse_key hr, bind, Except.bind, pure, Except.pure]

/-- The object has a plain reference. -/
def Object.Plain (o : Object) : Prop := ∃ r, o.ref = .ok r ∧ r.Plain

instance : DecidablePred Object.Plain := fun o => decidableExistsOk o.ref

theorem Object.key?_of_ref {o : Object} {r : Ref} (ho : o.ref = .ok r) (hr : r.Plain) :
    o.key? = some r.key := by
  simp only [Object.ref] at ho
  split at ho
  · next name hn =>
    cases ho
    simp [Object.key?, hn, hr.1.1, Ref.key]
  · cases ho

end ClusterHerald
