import ClusterHerald.Config.Kinds
import ClusterHerald.Proofs.IgnoredFields

/-!
# Pruning by joined trees

Pruning by a joined tree is pruning by one tree and then by the other (`Json.prune_merge`), since
it is so for every attribute (`Rule.leave?_join`).  So trees may be applied in any order, once or
more often, and a list of them comes to the same as their join (`Json.foldl_prune`).

What is alike without some fields is alike without more of them (`Json.same_prune`), so an update
that was noise stays noise when more fields are ignored.
-/

namespace ClusterHerald

namespace Rule

/-- What is left of a value under the rule of its name, if there is one. -/
def leaveBy? : Option Rule → Json → Option Json
  | none => some
  | some r => r.leave?

variable {es : Entries Rule}

theorem get?_actAll_eq_bind (h : Entries.Ordered es) (ms : Entries Json) (name : String) :
    Entries.get? (actAll ms es) name =
      (Entries.get? ms name).bind (leaveBy? (Entries.get? es name)) := by
  rw [get?_actAll h]
  cases Entries.get? es name with
  | none => exact (Option.bind_fun_some _).symm
  | some r => rfl

/-- A joined rule leaves of a value what the one leaves of what the other leaves. -/
theorem leave?_join (r : Rule) {s : Rule} (hr : Ordered r) (hs : Ordered s) {v : Json}
    (hv : v.Ordered) : (join (some r) s).leave? v = (r.leave? v).bind s.leave? := by
  induction r using inductionOn generalizing s v with
  | redacted => cases s <;> rfl
  | nested fs ih =>
    cases s with
    | redacted => rfl
    | nested es =>
      cases v with
      | object ms =>
        have hf := ordered_nested.1 hr
        have he := ordered_nested.1 hs
        have hfe := orderedTree_merge hf he.2
        have hms := ordered_actAll hv fs
        have hboth (name : String) (w : Json) (hw : w.Ordered) :
            leaveBy? (both (Entries.get? fs name) (Entries.get? es name)) w =
              (leaveBy? (Entries.get? fs name) w).bind (leaveBy? (Entries.get? es name)) := by
          cases hx : Entries.get? fs name with
          | none => rw [both_none_left]; rfl
          | some x =>
            cases hy : Entries.get? es name with
            | none => exact (Option.bind_fun_some _).symm
            | some y => exact ih name x hx (hf.get? hx) (he.get? hy) hw
        have hget (name : String) : Entries.get? (actAll ms (merge fs es)) name =
            Entries.get? (actAll (actAll ms fs) es) name := by
          rw [get?_actAll_eq_bind hfe.1, get?_actAll_eq_bind he.1, get?_actAll_eq_bind hf.1,
            get?_merge fs he.1]
          cases hw : Entries.get? ms name with
          | none => rfl
          | some w =>
            exact hboth name w (Json.orderedMembers_iff.1 hv.2 _ (Entries.mem_of_get? hw))
        exact congrArg (some ∘ Json.object)
          (Entries.ext_get? (ordered_actAll hv _).1 (ordered_actAll hms es).1 hget)
      | _ => rfl

end Rule

namespace Json

variable {v : Json}

/-- Pruning by a joined tree is pruning by one tree and then by the other. -/
theorem prune_merge (hv : v.Ordered) (s t : IgnoredFields) :
    v.prune (s.merge t) = (v.prune s).prune t := by
  have h := Rule.leave?_join (.nested s.entries) (Rule.ordered_nested.2 s.ordered)
    (Rule.ordered_nested.2 t.ordered) hv
  simp only [prune_eq_pruneBy]
  exact Option.some.inj h

/-- Several trees, applied one after the other, come to their join. -/
theorem foldl_prune (hv : v.Ordered) (trees : List IgnoredFields) (t : IgnoredFields) :
    trees.foldl prune (v.prune t) = v.prune (trees.foldl IgnoredFields.merge t) := by
  induction trees generalizing t with
  | nil => rfl
  | cons s trees ih => rw [List.foldl_cons, List.foldl_cons, ← prune_merge hv, ih]

theorem prune_empty (v : Json) : v.prune .empty = v := by
  cases v <;> rfl

/-- What is the same stays the same when both are pruned. -/
theorem same_prune {a b : Json} (ha : a.Ordered) (hb : b.Ordered) (h : same a b = true)
    (t : IgnoredFields) : same (a.prune t) (b.prune t) = true := by
  rw [same_iff_agree (ha.prune t) (hb.prune t)]
  intro p
  exact (agree_prune_iff t a b p).2 fun _ => (same_iff_agree ha hb).1 h p

end Json

namespace IgnoredFields

theorem merge_right_comm (s t u : IgnoredFields) :
    (s.merge t).merge u = (s.merge u).merge t := by
  rw [merge_assoc, merge_comm t u, merge_assoc]

theorem isEmpty_iff {t : IgnoredFields} : t.isEmpty = true ↔ t = ⊥ := by
  constructor
  · intro h
    exact ext (List.isEmpty_iff.1 h)
  · rintro rfl
    rfl

theorem isEmpty_merge {s : IgnoredFields} (h : s.isEmpty = false) (t : IgnoredFields) :
    (s.merge t).isEmpty = false := by
  rw [← Bool.not_eq_true, isEmpty_iff] at h ⊢
  intro hst
  exact h (sup_eq_bot_iff.1 hst).1

end IgnoredFields

/-- The tree of a kind joins its three parts; a kind without a tree of its own has the empty
one. -/
theorem Config.ignoredFor_eq_foldl (c : Config) (kind : String) :
    c.ignoredFor kind = [c.ignored.tree, IgnoredFields.ofPaths c.ignored.paths,
      (c.ignored.byKind.get? kind).getD .empty].foldl IgnoredFields.merge .empty := by
  simp only [List.foldl_cons, List.foldl_nil, IgnoredFields.empty_merge, ignoredFor]
  cases c.ignored.byKind.get? kind with
  | none => rfl
  | some own => rfl

/-- What is noise stays noise when more fields are ignored. -/
theorem isNoise_merge {old new : Option Json} (ho : ∀ a ∈ old, a.Ordered)
    (hn : ∀ b ∈ new, b.Ordered) {s : IgnoredFields} (h : isNoise old new s = true)
    (t : IgnoredFields) : isNoise old new (s.merge t) = true := by
  cases old with
  | none => cases h
  | some a =>
    cases new with
    | none => cases h
    | some b =>
      have ha := ho a rfl
      have hb := hn b rfl
      obtain ⟨hs, hsame⟩ := (isNoise_iff ha hb s).1 h
      refine (isNoise_iff ha hb (s.merge t)).2 ⟨IgnoredFields.isEmpty_merge hs t, ?_⟩
      rw [Json.prune_merge ha, Json.prune_merge hb]
      exact Json.same_prune (ha.prune s) (hb.prune s) hsame t

/-- **A joined tree prunes as its parts do in turn, in any order.**  So pruning twice by one tree is
pruning once, and the fields that a configuration ignores for a kind are left out by its tree for
all kinds, by the tree of its paths and by the tree of the kind, whichever comes first.  An update
that shows nothing but ignored changes shows nothing else when more fields are ignored. -/
theorem joined_tree_prunes_in_turn {v : Json} (hv : v.Ordered) {old new : Option Json}
    (ho : ∀ a ∈ old, a.Ordered) (hn : ∀ b ∈ new, b.Ordered) (s t : IgnoredFields) (c : Config)
    (kind : String) {trees : List IgnoredFields}
    (htrees : trees.Perm [c.ignored.tree, IgnoredFields.ofPaths c.ignored.paths,
      (c.ignored.byKind.get? kind).getD .empty]) :
    v.prune (s.merge t) = (v.prune s).prune t ∧
    v.prune (s.merge t) = (v.prune t).prune s ∧
    (v.prune s).prune s = v.prune s ∧
    v.prune (c.ignoredFor kind) = trees.foldl Json.prune v ∧
    (isNoise old new s = true → isNoise old new (s.merge t) = true) := by
  have hfold : trees.foldl IgnoredFields.merge .empty = c.ignoredFor kind := by
    rw [c.ignoredFor_eq_foldl]
    exact htrees.foldl_eq' (fun _ _ _ _ u => u.merge_right_comm _ _) _
  refine ⟨v.prune_merge hv s t, ?_, ?_, ?_, fun h => isNoise_merge ho hn h t⟩
  · rw [s.merge_comm, Json.prune_merge hv]
  · rw [← Json.prune_merge hv, s.merge_self]
  · rw [← hfold, ← Json.foldl_prune hv, Json.prune_empty]

/-- Settings of which the timestamp, the version and all of the status are ignored, each by another
part of the configuration. -/
theorem settings_pruned_in_turn :
    let v : Json := .object [("data", .object [("mode", .string "a"), ("timestamp", .string "1")]),
      ("metadata", .object [("name", .string "x"), ("resourceVersion", .string "1")]),
      ("status", .object [("phase", .null)])]
    let w : Json := .object [("data", .object [("mode", .string "a"), ("timestamp", .string "2")]),
      ("metadata", .object [("name", .string "x"), ("resourceVersion", .string "1")]),
      ("status", .object [("phase", .null)])]
    let byTime := IgnoredFields.ofPaths ["data.timestamp"]
    let own := IgnoredFields.ofPaths ["metadata.resourceVersion", "status.phase"]
    let c := { Config.initial with
      ignored := ⟨["status"], byTime, .ofList [("ConfigMap", own)]⟩ }
    v.Ordered ∧ w.Ordered ∧ isNoise (some v) (some w) byTime = true ∧
      isNoise (some v) (some w) (byTime.merge own) = true ∧
      [own, .ofPaths ["status"], byTime].Perm [byTime, .ofPaths ["status"], own] ∧
      v.prune (c.ignoredFor "ConfigMap") =
        [own, .ofPaths ["status"], byTime].foldl Json.prune v ∧
      Json.same (v.prune (c.ignoredFor "ConfigMap")) (.object [
        ("data", .object [("mode", .string "a")]),
        ("metadata", .object [("name", .string "x")])]) = true := by
  intro v w byTime own c
  have hv : v.Ordered := by decide
  have hw : w.Ordered := by decide
  have hnoise : isNoise (some v) (some w) byTime = true := by decide +kernel
  have hperm : [own, .ofPaths ["status"], byTime].Perm [byTime, .ofPaths ["status"], own] :=
    List.reverse_perm [byTime, .ofPaths ["status"], own]
  have hkind : (c.ignored.byKind.get? "ConfigMap").getD .empty = own := by rfl
  have ho : ∀ a ∈ some v, a.Ordered := fun _ h => Option.some.inj h ▸ hv
  have hn : ∀ b ∈ some w, b.Ordered := fun _ h => Option.some.inj h ▸ hw
  obtain ⟨-, -, -, hprune, hmore⟩ :=
    joined_tree_prunes_in_turn hv ho hn byTime own c "ConfigMap" (hkind.symm ▸ hperm)
  exact ⟨hv, hw, hnoise, hmore hnoise, hperm, hprune, by decide +kernel⟩

end ClusterHerald
