import ClusterHerald.Proofs.Newsroom.Basic
import ClusterHerald.Proofs.Watch.Listing

/-!
# Objects that are told apart

Look-ups go by the key of a change, and a key may lead to another object: one that has the same key,
or one of the same name without a namespace.  As long as every event tells the object at a reference
from all others (`Object.Tells`), what is stored of it is found by its key, and nothing else is.

`Permitted` says what a watch shows that keeps to its phases and tells the object from all others,
and `Telling` what follows for the stores (`telling_run`).
-/

namespace ClusterHerald

/-! ### Objects that are told apart -/

/-- The object is neither the one at `r`, nor found in its place, nor reported under its key. -/
def Object.Apart (o : Object) (r : Ref) : Prop :=
  ∃ r', o.ref = .ok r' ∧ r' ≠ r ∧ r' ≠ ⟨none, r.name⟩ ∧ o.key? ≠ some r.key

/-- The object is the one at `r`, or it is told apart from it. -/
def Object.Tells (o : Object) (r : Ref) : Prop :=
  o.ref = .ok r ∧ o.toJson.Ordered ∨ o.Apart r

instance (o : Object) (r : Ref) : Decidable (o.Apart r) :=
  decidableExistsOk o.ref

instance (o : Object) (r : Ref) : Decidable (o.Tells r) :=
  inferInstanceAs (Decidable (_ ∨ _))

namespace Objects

/-- What is stored at `r` is the object of `r`, and nothing else is taken for it. -/
structure Tells (os : Objects) (r : Ref) : Prop where
  own : ∀ o, os.get? r = some o → o.ref = .ok r ∧ o.toJson.Ordered
  namesake : r ≠ ⟨none, r.name⟩ → os.get? ⟨none, r.name⟩ = none
  keyed : ∀ e ∈ os.entries, e.2.key? = some r.key → e.1 = r

variable {os : Objects} {o : Object} {r r' : Ref}

theorem tells_empty (r : Ref) : empty.Tells r where
  own := fun o ho => by rw [get?_empty] at ho; cases ho
  namesake := fun _ => rfl
  keyed := fun _ h => absurd h List.not_mem_nil

theorem Tells.find? (h : os.Tells r) : os.find? r = os.get? r := by
  refine FindsOwn.find? fun hn => ?_
  by_cases hr : r = ⟨none, r.name⟩
  · rw [← hr]
    exact hn
  · exact h.namesake hr

theorem Tells.erase (h : os.Tells r) (r' : Ref) : (os.erase r').Tells r where
  own := fun o ho => by
    rw [get?_erase] at ho
    split at ho
    · cases ho
    · exact h.own o ho
  namesake := fun hr => by
    rw [get?_erase, h.namesake hr, ite_self]
  keyed := fun e he hk => h.keyed e (List.mem_filter.1 he).1 hk

theorem Tells.insert_own (h : os.Tells r) (ho : o.ref = .ok r) (hd : o.toJson.Ordered) :
    (os.insert r o).Tells r where
  own := fun p hp => by
    rw [get?_insert, if_pos rfl] at hp
    cases hp
    exact ⟨ho, hd⟩
  namesake := fun hr => by
    rw [get?_insert, if_neg hr.symm]
    exact h.namesake hr
  keyed := fun e he hk => by
    rcases List.mem_cons.1 he with rfl | he
    · rfl
    · exact (h.erase r).keyed e he hk

theorem Tells.insert_apart (h : os.Tells r) (ho : o.ref = .ok r') (ha : o.Apart r) :
    (os.insert r' o).Tells r ∧ (os.insert r' o).get? r = os.get? r := by
  obtain ⟨_, ho', hne, hname, hkey⟩ := ha
  obtain rfl := Except.ok.inj (ho.symm.trans ho')
  have hget : (os.insert r' o).get? r = os.get? r := by
    rw [get?_insert, if_neg hne.symm]
  refine ⟨⟨fun p hp => h.own p (hget ▸ hp), fun hr => ?_, fun e he hk => ?_⟩, hget⟩
  · rw [get?_insert, if_neg hname.symm]
    exact h.namesake hr
  · rcases List.mem_cons.1 he with rfl | he
    · exact absurd hk hkey
    · exact (h.erase r').keyed e he hk

theorem Tells.insert (h : os.Tells r) (ho : o.ref = .ok r') (ht : o.Tells r) :
    (os.insert r' o).Tells r := by
  obtain ⟨ho', hd⟩ | ha := ht
  · obtain rfl : r' = r := Except.ok.inj (ho.symm.trans ho')
    exact h.insert_own ho hd
  · exact (h.insert_apart ho ha).1

/-- The key of `r` has a version iff something is stored at `r`. -/
theorem Tells.has_versions (h : os.Tells r) (hr : r.Plain) :
    os.versions.has r.key = true ↔ ∃ o, os.get? r = some o := by
  constructor
  · intro hv
    obtain ⟨o, ho, hk⟩ := Versions.has_ofObjects.1 hv
    obtain ⟨e, he, rfl⟩ := List.mem_map.1 ho
    have hlookup : os.get? r ≠ none := by
      rw [get?, Ne, List.lookup_eq_none_iff]
      intro hnone
      have := hnone e he
      rw [h.keyed e he hk] at this
      simp at this
    exact Option.ne_none_iff_exists'.1 hlookup
  · rintro ⟨o, ho⟩
    exact has_versions_of_get? ho (Object.key?_of_ref (h.own o ho).1 hr)

end Objects

namespace Newsroom

universe u

variable {σ : Type u} {n : Newsroom σ} {s : State σ} {r : Ref}

/-- What the watch may show next, as far as the object at `r` is concerned.  Nothing is stored when
the first listing begins; live events come while no listing is under way; and every event tells the
object from all others. -/
def Permitted (r : Ref) (s : State σ) : Action → Prop
  | .observe .listing => s.scene.Fresh
  | .observe (.listed o) => s.listing = true ∧ o.Tells r
  | .observe .complete => s.listing = true
  | .observe (.applied o) | .observe (.deleted o) => s.listing = false ∧ o.Tells r
  | .apply | .take | .judge | .report | .finish | .fire _ => True

instance (r : Ref) (s : State σ) : DecidablePred (Permitted r s)
  | .observe .listing => inferInstanceAs (Decidable s.scene.Fresh)
  | .observe .complete => inferInstanceAs (Decidable (_ = true))
  | .observe (.listed _) | .observe (.applied _) | .observe (.deleted _) =>
    inferInstanceAs (Decidable (_ ∧ _))
  | .apply | .take | .judge | .report | .finish | .fire _ => isTrue trivial

theorem Permitted.tells {e : WatchEvent} {o : Object} (h : Permitted r s (.observe e))
    (ho : e.object? = some o) : o.Tells r := by
  cases e with
  | listing | complete => cases ho
  | listed p | applied p | deleted p =>
    cases ho
    exact h.2

/-- The stores tell the object at `r` from all others, and collect it only in a listing. -/
structure Telling (r : Ref) (s : State σ) : Prop where
  unlisted : s.listing = false → s.scene.store.listed.get? r = none
  shown : s.shown.objects.Tells r
  stored : s.scene.store.objects.Tells r
  listed : s.scene.store.listed.Tells r

theorem telling_start (n : Newsroom σ) (outside : σ) (r : Ref) : Telling r (n.start outside) where
  unlisted := fun _ => rfl
  shown := Objects.tells_empty r
  stored := Objects.tells_empty r
  listed := Objects.tells_empty r

theorem Telling.observe (h : Telling r s) {e : WatchEvent} (he : Permitted r s (.observe e)) :
    Telling r (n.step s (.observe e)) := by
  cases ht : s.scene.take e with
  | error =>
    rw [step_observe_of_error ht]
    exact h
  | ok taken =>
    obtain ⟨changes, scene⟩ := taken
    obtain ⟨-, -, ha⟩ := Scene.take_eq_ok ht
    obtain ⟨hstored, hlisted⟩ := Store.keeps_of_apply (p := (Objects.Tells · r))
      (Objects.tells_empty r)
      (fun o r' os ho hr' hos => hos.insert hr' (he.tells (WatchEvent.object?_of_version? ho)))
      (fun r' os hos => hos.erase r') ha ⟨h.stored, h.listed⟩
    rw [step_observe ht]
    refine ⟨fun hl => ?_, h.stored, hstored, hlisted⟩
    cases e with
    | listing => cases hl
    | complete =>
      rw [← Except.ok.inj ha]
      rfl
    | listed o =>
      rw [goesOn, he.1] at hl
      cases hl
    | applied o | deleted o =>
      obtain ⟨r', hr'⟩ := Store.exists_ref_of_apply ha rfl
      obtain ⟨-, -, he'⟩ | ⟨-, hlisted, -⟩ | ⟨-, hlisted, -⟩ := Scene.store_of_take ht rfl hr'
      · cases he'
      · rw [hlisted]
        exact h.unlisted he.1
      · rw [hlisted]
        exact h.unlisted he.1

theorem telling_step (h : Telling r s) {b : Action} (hb : Permitted r s b) :
    Telling r (n.step s b) := by
  cases b with
  | observe e => exact h.observe hb
  | apply => exact ⟨h.unlisted, h.stored, h.stored, h.listed⟩
  | take | judge | report | finish | fire place =>
    exact ⟨h.unlisted, h.shown, h.stored, h.listed⟩

theorem telling_run (h : Telling r s) {actions : List Action}
    (ha : Obeys n.step (Permitted r) s actions) : Telling r (n.run s actions) :=
  ha.foldl h fun _ _ h hb => telling_step h hb

end Newsroom

end ClusterHerald
