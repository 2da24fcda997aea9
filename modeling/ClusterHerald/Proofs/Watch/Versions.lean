import ClusterHerald.Change
import ClusterHerald.Proofs.Key
import ClusterHerald.Proofs.Run
import ClusterHerald.Proofs.Table

/-!
# Versions by key

Whoever follows the changes of a kind may keep the resource version of every object, by its key
(`Versions.follow`), and whoever has the objects can read them off (`Objects.versions`).

Objects that are filed each under its own plain reference have different keys, so putting an
object in and taking one away are the same among the objects and among their versions
(`Objects.versions_insert`, `Objects.versions_erase`).
-/

namespace ClusterHerald

/-- The resource versions of objects, by key. -/
abbrev Versions := Table (Option String)

namespace Versions

/-- What a change makes of the versions. -/
def note (t : Versions) (c : Change) : Versions :=
  match c.type with
  | .create | .update => t.insert c.key (c.object.bind (·.metadata.resourceVersion))
  | .delete => t.erase c.key

/-- What changes make of the versions. -/
def follow (t : Versions) (changes : List Change) : Versions :=
  changes.foldl note t

/-- An update has a snapshot before it, and that is of the version which is known. -/
def Fits (t : Versions) (c : Change) : Prop :=
  c.type = .update →
    ∃ old, c.previous = some old ∧ t.get? c.key = some old.metadata.resourceVersion

theorem follow_append (t : Versions) (before after : List Change) :
    t.follow (before ++ after) = (t.follow before).follow after :=
  List.foldl_append

/-- A change tells nothing of other keys. -/
theorem get?_note_of_ne (t : Versions) {c : Change} {key : String} (h : c.key ≠ key) :
    (t.note c).get? key = t.get? key := by
  cases hc : c.type <;> simp [note, hc, Table.get?_insert, Table.get?_erase, h]

theorem get?_follow_of_ne {changes : List Change} {key : String} (t : Versions)
    (h : ∀ c ∈ changes, c.key ≠ key) : (t.follow changes).get? key = t.get? key := by
  induction changes generalizing t with
  | nil => rfl
  | cons c changes ih =>
    rw [follow, List.foldl_cons]
    exact (ih (t.note c) fun d hd => h d (List.mem_cons_of_mem c hd)).trans
      (get?_note_of_ne t (h c List.mem_cons_self))

/-- Deletions take their keys away. -/
theorem get?_follow_deletions {changes : List Change} (t : Versions)
    (h : ∀ c ∈ changes, c.type = .delete) (key : String) :
    (t.follow changes).get? key =
      if ∃ c ∈ changes, c.key = key then none else t.get? key := by
  induction changes generalizing t with
  | nil => simp [follow]
  | cons c changes ih =>
    rw [follow, List.foldl_cons]
    refine (ih (t.note c) fun d hd => h d (List.mem_cons_of_mem c hd)).trans ?_
    have hc : t.note c = t.erase c.key := by simp only [note, h c List.mem_cons_self]
    rw [hc, Table.get?_erase]
    by_cases hk : c.key = key <;> simp [hk]

/-- The versions of objects; of two objects with one key the first counts. -/
def ofObjects : List Object → Versions
  | [] => .empty
  | o :: os =>
    match o.key? with
    | some key => (ofObjects os).insert key o.metadata.resourceVersion
    | none => ofObjects os

theorem ofObjects_cons {o : Object} {r : Ref} (ho : o.ref = .ok r) (hr : r.Plain)
    (os : List Object) :
    ofObjects (o :: os) = (ofObjects os).insert r.key o.metadata.resourceVersion := by
  simp only [ofObjects, Object.key?_of_ref ho hr]

theorem has_ofObjects {os : List Object} {key : String} :
    (ofObjects os).has key = true ↔ ∃ o ∈ os, o.key? = some key := by
  induction os with
  | nil => simp [ofObjects]
  | cons o os ih =>
    cases hk : o.key? with
    | none => simp [ofObjects, hk, ih]
    | some k => simp [ofObjects, hk, Table.has_insert, ih]

end Versions

namespace Objects

/-- The versions of all objects. -/
def versions (os : Objects) : Versions := .ofObjects os.toList

/-- Every object is filed under its own reference, and that is plain. -/
def Filed (os : Objects) : Prop :=
  ∀ e ∈ os.entries, e.2.ref = .ok e.1 ∧ e.1.Plain

variable {os : Objects} {o : Object} {r : Ref}

theorem filed_empty : empty.Filed := fun _ h => absurd h List.not_mem_nil

theorem Filed.erase (h : os.Filed) (r : Ref) : (os.erase r).Filed :=
  fun e he => h e (List.mem_filter.1 he).1

theorem Filed.insert (h : os.Filed) (ho : o.ref = .ok r) (hr : r.Plain) :
    (os.insert r o).Filed := by
  intro e he
  rcases List.mem_cons.1 he with rfl | he
  · exact ⟨ho, hr⟩
  · exact h.erase r e he

@[simp] theorem versions_empty : empty.versions = .empty := rfl

theorem mem_entries_of_get? (h : os.get? r = some o) : (r, o) ∈ os.entries := by
  obtain ⟨before, after, he, -⟩ := List.lookup_eq_some_iff.1 h
  simp [he]

theorem has_versions_of_get? {key : String} (h : os.get? r = some o) (hk : o.key? = some key) :
    os.versions.has key = true :=
  Versions.has_ofObjects.2 ⟨o, List.mem_map.2 ⟨_, mem_entries_of_get? h, rfl⟩, hk⟩

/-- The key of a plain reference has the version of the object that is filed there. -/
theorem Filed.get?_versions (h : os.Filed) (hr : r.Plain) :
    os.versions.get? r.key = (os.get? r).map (·.metadata.resourceVersion) := by
  obtain ⟨es, nodup⟩ := os
  simp only [Filed, versions, get?, toList] at h ⊢
  clear nodup
  induction es with
  | nil => rfl
  | cons e es ih =>
    obtain ⟨s, p⟩ := e
    obtain ⟨hp, hs⟩ := h (s, p) List.mem_cons_self
    have ih := ih fun e he => h e (List.mem_cons_of_mem _ he)
    rw [List.map_cons, Versions.ofObjects_cons hp hs, Table.get?_insert, ih, List.lookup_cons]
    by_cases hrs : r = s
    · subst hrs
      simp
    · have hk : s.key ≠ r.key := fun hk => hrs (Ref.key_inj hr hs hk.symm)
      have hb : (r == s) = false := beq_eq_false_iff_ne.2 hrs
      simp [hk, hb]

theorem Filed.versions_erase (h : os.Filed) (hr : r.Plain) :
    (os.erase r).versions = os.versions.erase r.key := by
  refine Table.ext_get? fun key => ?_
  change (Versions.ofObjects ((os.entries.filter fun e => e.1 ≠ r).map Prod.snd)).get? key =
    ((Versions.ofObjects (os.entries.map Prod.snd)).erase r.key).get? key
  obtain ⟨es, nodup⟩ := os
  simp only [Filed] at h ⊢
  clear nodup
  induction es with
  | nil => simp [Versions.ofObjects, Table.get?_erase]
  | cons e es ih =>
    obtain ⟨s, p⟩ := e
    obtain ⟨hp, hs⟩ := h (s, p) List.mem_cons_self
    have ih := ih fun e he => h e (List.mem_cons_of_mem _ he)
    rw [List.filter_cons, List.map_cons, Versions.ofObjects_cons hp hs]
    simp only [Table.get?_erase, Table.get?_insert] at ih ⊢
    by_cases hrs : s = r
    · subst hrs
      simp only [ne_eq, not_true_eq_false, decide_false, Bool.false_eq_true, if_false, ih]
      split <;> rfl
    · have hk : s.key ≠ r.key := fun hk => hrs (Ref.key_inj hs hr hk)
      simp only [ne_eq, hrs, not_false_eq_true, decide_true, if_true, List.map_cons,
        Versions.ofObjects_cons hp hs, Table.get?_insert, ih]
      by_cases hrk : r.key = key
      · simp [hrk ▸ hk, hrk]
      · simp [hrk]

theorem Filed.versions_insert (h : os.Filed) (ho : o.ref = .ok r) (hr : r.Plain) :
    (os.insert r o).versions = os.versions.insert r.key o.metadata.resourceVersion := by
  refine Table.ext_get? fun key => ?_
  have he : (os.insert r o).versions =
      (os.erase r).versions.insert r.key o.metadata.resourceVersion :=
    Versions.ofObjects_cons ho hr _
  rw [he, h.versions_erase hr]
  simp only [Table.get?_insert, Table.get?_erase]
  split <;> rfl

end Objects

end ClusterHerald
