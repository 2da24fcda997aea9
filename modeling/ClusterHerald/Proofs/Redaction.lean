import ClusterHerald.Proofs.Position

/-!
# What pruning leaves

`Json.Leaves` says what may be left at one location of a document: nothing if the location is
covered, an object of an object, and any other value as it was.  This tells the pruned document in
full, since two ordered documents are equal if at every location both have nothing, both have an
object, or both have the same value (`Json.eq_of_leaves`).
-/

namespace ClusterHerald

namespace Json

/-- What is left at a location, by what was there and whether the location is covered.  An array is
left with all its items, whatever is in them. -/
inductive Leaves (covered : Prop) : Option Json → Option Json → Prop
  | absent : Leaves covered none none
  | redacted (h : covered) (v : Json) : Leaves covered (some v) none
  | entered (h : ¬ covered) (ms ns : Entries Json) :
    Leaves covered (some (.object ms)) (some (.object ns))
  | whole (h : ¬ covered) {v : Json} (hv : v.members? = none) : Leaves covered (some v) (some v)

/-- Two things that are left of the same are alike, as if nothing were covered. -/
theorem Leaves.alike {covered : Prop} {x y z : Option Json} (hy : Leaves covered x y)
    (hz : Leaves covered x z) : Leaves False y z := by
  cases hy with
  | absent => cases hz; exact .absent
  | redacted h v =>
    cases hz with
    | redacted => exact .absent
    | entered hn | whole hn => exact absurd h hn
  | entered h ms ns =>
    cases hz with
    | redacted hc => exact absurd hc h
    | entered _ _ ns' => exact .entered not_false ns ns'
    | whole _ hv => cases hv
  | whole h hv =>
    cases hz with
    | redacted hc => exact absurd hc h
    | entered => cases hv
    | whole => exact .whole not_false hv

/-- Ordered documents that are alike at every location are equal. -/
theorem eq_of_leaves {a b : Json} (ha : a.Ordered) (hb : b.Ordered)
    (h : ∀ p, Leaves False (a.at? p) (b.at? p)) : a = b := by
  induction a using inductionOn generalizing b with
  | parts a ih =>
    cases h [] with
    | whole => rfl
    | entered _ ms ns =>
      refine congrArg object (Entries.ext_get? ha.1 hb.1 fun name => ?_)
      have hbelow (rest : List String) : Leaves False
          ((Entries.get? ms name).bind (·.at? rest)) ((Entries.get? ns name).bind (·.at? rest)) :=
        h (name :: rest)
      cases hv : Entries.get? ms name with
      | none =>
        cases hw : Entries.get? ns name with
        | none => rfl
        | some w =>
          have := hbelow []
          rw [hv, hw] at this
          cases this
      | some v =>
        cases hw : Entries.get? ns name with
        | none =>
          have := hbelow []
          rw [hv, hw] at this
          cases this with
          | redacted hf => exact hf.elim
        | some w =>
          rw [hv, hw] at hbelow
          exact congrArg some (ih (.member name) v hv (ha.part? (s := .member name) hv)
            (hb.part? (s := .member name) hw) hbelow)

/-- What pruning leaves at a location. -/
theorem leaves_prune (v : Json) (ignored : IgnoredFields) (p : List String) :
    Leaves (ignored.Covers p) (v.at? p) ((v.prune ignored).at? p) := by
  rw [prune_eq_pruneBy]
  by_cases hp : ignored.Covers p
  · rw [at?_pruneBy_of_covers ignored.ordered hp]
    cases v.at? p with
    | none => exact .absent
    | some w => exact .redacted hp w
  · obtain ⟨below, hbelow⟩ := at?_pruneBy ignored.ordered hp
    rw [hbelow]
    cases v.at? p with
    | none => exact .absent
    | some w =>
      cases w with
      | object ms => exact .entered hp ms _
      | _ => exact .whole hp rfl

/-- **Pruning removes exactly what is covered.**  At a location that the tree covers nothing is
left.  At any other one there is nothing if nothing was there, an object if an object was there, and
else the very value that was there.  An ordered document is pruned to no other ordered document of
which this is true. -/
theorem pruned_exactly_where_covered (v : Json) (ignored : IgnoredFields) :
    (∀ p, Leaves (ignored.Covers p) (v.at? p) ((v.prune ignored).at? p)) ∧
    (v.Ordered → ∀ u : Json, u.Ordered →
      (∀ p, Leaves (ignored.Covers p) (v.at? p) (u.at? p)) → u = v.prune ignored) := by
  refine ⟨v.leaves_prune ignored, fun hv u hu hleaves => ?_⟩
  exact eq_of_leaves hu (hv.prune ignored) fun p => (hleaves p).alike (v.leaves_prune ignored p)

/-- A timestamp is redacted, and so is a status.  The names of items are not reached through their
list, and a specification that is text has no replicas. -/
theorem timestamp_and_status_removed :
    let ignored := IgnoredFields.ofPaths ["data.timestamp", "items.name", "spec.replicas", "status"]
    let items : Json := .array [.object [("name", .string "x")]]
    let v : Json := .object [
      ("data", .object [("mode", .string "fast"), ("timestamp", .string "1")]), ("items", items),
      ("spec", .string "none"), ("status", .object [("phase", .null)])]
    let u : Json := .object [("data", .object [("mode", .string "fast")]), ("items", items),
      ("spec", .string "none")]
    v.Ordered ∧ u.Ordered ∧ (∀ p, Leaves (ignored.Covers p) (v.at? p) (u.at? p)) ∧
      u = v.prune ignored := by
  intro ignored items v u
  have hv : v.Ordered := by decide
  have hu : u.Ordered := by decide
  obtain ⟨hleaves, honly⟩ := v.pruned_exactly_where_covered ignored
  have hprune : v.prune ignored = u := by cbv
  rw [hprune] at hleaves
  exact ⟨hv, hu, hleaves, honly hv u hu hleaves⟩

end Json

end ClusterHerald
