import ClusterHerald.Proofs.Location
import Mathlib.Data.Finset.Lattice.Fold

/-!
# Joined trees of ignored fields

A joined tree says of an attribute what its two trees say together (`Rule.get?_merge`), so the laws
of `merge` are those of `Rule.both`, which come by induction on rules (`Rule.inductionOn`).  They
make trees a semilattice with the empty tree as its least element, and `merge` the supremum.

Everything else that builds a tree is a join:

* `IgnoredFields.redact_eq_merge` : redacting an attribute joins a chain of one name;
* `IgnoredFields.insertPath_eq_merge` : a path joins the chain of its names;
* `IgnoredFields.ofPaths_eq_sup` : a list of paths gives the supremum of their chains, so neither
  order nor repetition counts.

The names of a path are what stands between its dots, as far as it is not empty
(`IgnoredFields.segments_append`, `IgnoredFields.segments_of_not_mem`).
-/

namespace ClusterHerald

/-- Giving a name the value that it has changes nothing. -/
theorem Entries.Ordered.insert_of_get? {α : Type} {es : Entries α} (h : Ordered es) {name : String}
    {value : α} (hv : Entries.get? es name = some value) : Entries.insert name value es = es := by
  refine ext_get? (h.insert name value) h fun other => ?_
  rw [get?_insert]
  split
  · next hn => rw [← hn, hv]
  · rfl

namespace Rule

/-- Induction on rules: for a nested entry the property may be used of every rule within it. -/
@[elab_as_elim]
theorem inductionOn {P : Rule → Prop} (r : Rule) (redacted : P .redacted)
    (nested : ∀ es, (∀ name s, Entries.get? es name = some s → P s) → P (.nested es)) : P r :=
  @Rule.rec P (fun es => ∀ e ∈ es, P e.2) (fun e => P e.2) redacted
    (fun es h => nested es fun _ _ hs => h _ (Entries.mem_of_get? hs)) nofun
    (fun _ _ he hes => List.forall_mem_cons.2 ⟨he, hes⟩) (fun _ _ h => h) r

/-! ### One attribute of two trees -/

/-- What two trees say together of an attribute. -/
def both (old : Option Rule) : Option Rule → Option Rule
  | none => old
  | some r => some (join old r)

variable {es fs ds : Entries Rule} {name : String}

theorem join_none (r : Rule) : join none r = r := by
  cases r <;> rfl

theorem both_none_left (x : Option Rule) : both none x = x := by
  cases x with
  | none => rfl
  | some r => rw [both, join_none]

/-- A joined tree says of an attribute what its two trees say together. -/
theorem get?_merge (fs : Entries Rule) (h : Entries.Ordered es) (name : String) :
    Entries.get? (merge fs es) name = both (Entries.get? fs name) (Entries.get? es name) := by
  induction es generalizing fs with
  | nil => rfl
  | cons e es ih =>
    obtain ⟨n, r⟩ := e
    rw [merge, ih _ (List.pairwise_cons.1 h).2, Entries.get?_insert, Entries.get?_cons]
    by_cases hn : n = name
    · subst hn
      -- no later entry has the same name
      rw [h.get?_tail (String.lt_irrefl n), if_pos rfl, if_pos rfl]
      rfl
    · rw [if_neg hn, if_neg hn]

theorem merge_nil_left (h : OrderedTree es) : merge [] es = es :=
  Entries.ext_get? (orderedTree_merge orderedTree_nil h.2).1 h.1 fun name => by
    rw [get?_merge [] h.1, Entries.get?_nil, both_none_left]

/-! ### Laws of joining -/

theorem join_comm (r : Rule) {s : Rule} (hr : Ordered r) (hs : Ordered s) :
    join (some r) s = join (some s) r := by
  induction r using inductionOn generalizing s with
  | redacted => cases s <;> rfl
  | nested fs ih =>
    cases s with
    | redacted => rfl
    | nested es =>
      have hf := ordered_nested.1 hr
      have he := ordered_nested.1 hs
      refine congrArg nested (Entries.ext_get? (orderedTree_merge hf he.2).1
        (orderedTree_merge he hf.2).1 fun name => ?_)
      rw [get?_merge fs he.1, get?_merge es hf.1]
      cases hx : Entries.get? fs name with
      | none => exact both_none_left _
      | some x =>
        cases hy : Entries.get? es name with
        | none => exact (both_none_left _).symm
        | some y => exact congrArg some (ih name x hx (hf.get? hx) (he.get? hy))

theorem join_assoc (r : Rule) {s t : Rule} (hr : Ordered r) (hs : Ordered s) (ht : Ordered t) :
    join (some (join (some r) s)) t = join (some r) (join (some s) t) := by
  induction r using inductionOn generalizing s t with
  | redacted => cases s <;> cases t <;> rfl
  | nested fs ih =>
    cases s with
    | redacted => cases t <;> rfl
    | nested es =>
      cases t with
      | redacted => rfl
      | nested ds =>
        have hf := ordered_nested.1 hr
        have he := ordered_nested.1 hs
        have hd := ordered_nested.1 ht
        have hfe := orderedTree_merge hf he.2
        have hed := orderedTree_merge he hd.2
        refine congrArg nested (Entries.ext_get? (orderedTree_merge hfe hd.2).1
          (orderedTree_merge hf hed.2).1 fun name => ?_)
        rw [get?_merge _ hd.1, get?_merge fs he.1, get?_merge fs hed.1, get?_merge es hd.1]
        cases hx : Entries.get? fs name with
        | none => rw [both_none_left, both_none_left]
        | some x =>
          cases hy : Entries.get? es name with
          | none => rw [both_none_left, both]
          | some y =>
            cases hz : Entries.get? ds name with
            | none => rfl
            | some z =>
              exact congrArg some (ih name x hx (hf.get? hx) (he.get? hy) (hd.get? hz))

theorem join_self (r : Rule) (hr : Ordered r) : join (some r) r = r := by
  induction r using inductionOn with
  | redacted => rfl
  | nested es ih =>
    have he := ordered_nested.1 hr
    refine congrArg nested (Entries.ext_get? (orderedTree_merge he he.2).1 he.1 fun name => ?_)
    rw [get?_merge es he.1]
    cases hx : Entries.get? es name with
    | none => rfl
    | some x => exact congrArg some (ih name x hx (he.get? hx))

/-- Redaction on either side wins, and nothing else redacts. -/
theorem both_eq_redacted_iff {x y : Option Rule} :
    both x y = some .redacted ↔ x = some .redacted ∨ y = some .redacted := by
  rcases x with _ | _ | fs <;> rcases y with _ | _ | es <;> simp [both, join]

/-! ### Covered locations -/

/-- What a tree covers below an attribute follows from what it says of the attribute. -/
theorem covers_cons_congr {rest : List String} (h : Entries.get? es name = Entries.get? fs name) :
    Covers es (name :: rest) ↔ Covers fs (name :: rest) := by
  cases hf : Entries.get? fs name with
  | none => exact iff_of_false (not_covers_of_none (h.trans hf)) (not_covers_of_none hf)
  | some r =>
    cases r with
    | redacted => exact iff_of_true (covers_of_redacted (h.trans hf)) (covers_of_redacted hf)
    | nested sub => rw [covers_of_nested (h.trans hf), covers_of_nested hf]

/-- Joined trees cover what either of them covers. -/
theorem covers_merge {p : List String} (hf : OrderedTree fs) (he : OrderedTree es) :
    Covers (merge fs es) p ↔ Covers fs p ∨ Covers es p := by
  induction p generalizing fs es with
  | nil => exact iff_of_false not_covers_nil fun h => h.elim not_covers_nil not_covers_nil
  | cons name rest ih =>
    have hget := get?_merge fs he.1 name
    cases hx : Entries.get? fs name with
    | none =>
      rw [hx, both_none_left] at hget
      rw [covers_cons_congr hget, or_iff_right (not_covers_of_none hx)]
    | some x =>
      cases hy : Entries.get? es name with
      | none =>
        rw [hx, hy] at hget
        rw [covers_cons_congr (hget.trans hx.symm), or_iff_left (not_covers_of_none hy)]
      | some y =>
        rw [hx, hy] at hget
        cases x with
        | redacted =>
          rw [both_eq_redacted_iff.2 (.inl rfl)] at hget
          exact iff_of_true (covers_of_redacted hget) (.inl (covers_of_redacted hx))
        | nested f =>
          cases y with
          | redacted =>
            exact iff_of_true (covers_of_redacted hget) (.inr (covers_of_redacted hy))
          | nested e =>
            rw [covers_of_nested hx, covers_of_nested hy, covers_of_nested hget]
            exact ih (ordered_nested.1 (hf.get? hx)) (ordered_nested.1 (he.get? hy))

end Rule

namespace IgnoredFields

variable {s t : IgnoredFields}

/-- What a tree says of an attribute. -/
def get? (t : IgnoredFields) (name : String) : Option Rule :=
  Entries.get? t.entries name

theorem ext_get? (h : ∀ name, s.get? name = t.get? name) : s = t :=
  ext (Entries.ext_get? s.ordered.1 t.ordered.1 h)

theorem get?_merge (s t : IgnoredFields) (name : String) :
    (s.merge t).get? name = Rule.both (s.get? name) (t.get? name) :=
  Rule.get?_merge s.entries t.ordered.1 name

/-! ### The semilattice of trees -/

theorem merge_comm (s t : IgnoredFields) : s.merge t = t.merge s :=
  ext <| Rule.nested.inj <| Rule.join_comm (.nested s.entries)
    (Rule.ordered_nested.2 s.ordered) (Rule.ordered_nested.2 t.ordered)

theorem merge_assoc (s t u : IgnoredFields) : (s.merge t).merge u = s.merge (t.merge u) :=
  ext <| Rule.nested.inj <| Rule.join_assoc (.nested s.entries)
    (Rule.ordered_nested.2 s.ordered) (Rule.ordered_nested.2 t.ordered)
    (Rule.ordered_nested.2 u.ordered)

theorem merge_self (t : IgnoredFields) : t.merge t = t :=
  ext <| Rule.nested.inj <| Rule.join_self (.nested t.entries) (Rule.ordered_nested.2 t.ordered)

theorem merge_empty (t : IgnoredFields) : t.merge empty = t := rfl

theorem empty_merge (t : IgnoredFields) : empty.merge t = t :=
  ext (Rule.merge_nil_left t.ordered)

instance : Max IgnoredFields := ⟨merge⟩

instance : SemilatticeSup IgnoredFields :=
  SemilatticeSup.mk' merge_comm merge_assoc merge_self

instance : OrderBot IgnoredFields where
  bot := empty
  bot_le := empty_merge

theorem sup_eq_merge (s t : IgnoredFields) : s ⊔ t = s.merge t := rfl

/-- Joined trees leave nothing where either of them leaves nothing. -/
theorem covers_merge (s t : IgnoredFields) (p : List String) :
    (s.merge t).Covers p ↔ s.Covers p ∨ t.Covers p :=
  Rule.covers_merge s.ordered t.ordered

/-! ### Chains -/

/-- The tree of a chain of names: the last one is redacted within the others. -/
def chain : List String → IgnoredFields
  | [] => empty
  | [last] => ⟨[(last, .redacted)], Rule.orderedTree_nil.insert last trivial⟩
  | name :: next :: rest => single name (chain (next :: rest))

theorem insertChain_eq_merge (names : List String) {es : Entries Rule}
    (h : Rule.OrderedTree es) :
    Rule.insertChain names es = Rule.merge es (chain names).entries := by
  induction names generalizing es with
  | nil => rfl
  | cons name rest ih =>
    cases rest with
    | nil => rfl
    | cons next rest =>
      have hmerge : Rule.merge es (chain (name :: next :: rest)).entries =
          Entries.insert name (Rule.join (Entries.get? es name)
            (.nested (chain (next :: rest)).entries)) es := rfl
      rw [hmerge, Rule.insertChain]
      cases hx : Entries.get? es name with
      | none => simp only [ih Rule.orderedTree_nil, Rule.merge_nil_left (chain _).ordered,
          Rule.join]
      | some x =>
        cases x with
        | redacted => exact (h.1.insert_of_get? hx).symm
        | nested sub => simp only [ih (Rule.ordered_nested.1 (h.get? hx)), Rule.join]

/-- A path joins the chain of its names. -/
theorem insertPath_eq_merge (t : IgnoredFields) (path : String) :
    t.insertPath path = t.merge (chain (segments path)) :=
  ext (insertChain_eq_merge _ t.ordered)

/-- Redacting an attribute joins a chain of one name. -/
theorem redact_eq_merge (t : IgnoredFields) (name : String) :
    t.redact name = t.merge (chain [name]) :=
  ext rfl

/-- The tree of a list of paths is the supremum of their chains. -/
theorem ofPaths_eq_sup (paths : List String) :
    ofPaths paths = paths.toFinset.sup fun path => chain (segments path) := by
  have hfold (t : IgnoredFields) : paths.foldl insertPath t =
      t ⊔ paths.toFinset.sup fun path => chain (segments path) := by
    induction paths generalizing t with
    | nil => exact (sup_bot_eq t).symm
    | cons path paths ih =>
      rw [List.foldl_cons, ih, List.toFinset_cons, Finset.sup_insert, insertPath_eq_merge,
        ← sup_assoc, sup_eq_merge t]
  exact (hfold ⊥).trans (bot_sup_eq _)

/-! ### The names of a path -/

theorem splitDots_append (a b : List Char) :
    splitDots (a ++ '.' :: b) = splitDots a ++ splitDots b := by
  induction a with
  | nil => rfl
  | cons c a ih =>
    simp only [List.cons_append, splitDots]
    split
    · rw [ih, List.cons_append]
    · rw [ih]
      cases ha : splitDots a with
      | nil =>
        -- there is always a first part
        cases a with
        | nil => cases ha
        | cons d a =>
          simp only [splitDots] at ha
          split at ha
          · cases ha
          · split at ha <;> cases ha
      | cons part parts => rfl

theorem splitDots_of_not_mem {s : List Char} (h : '.' ∉ s) : splitDots s = [s] := by
  induction s with
  | nil => rfl
  | cons c s ih =>
    obtain ⟨hc, hs⟩ : '.' ≠ c ∧ '.' ∉ s := by simpa using h
    rw [splitDots, if_neg (Ne.symm hc), ih hs]

/-- A dot parts the names of a path. -/
theorem segments_append (a b : String) : segments (a ++ "." ++ b) = segments a ++ segments b := by
  have htext : (a ++ "." ++ b).toList = a.toList ++ '.' :: b.toList := by simp
  rw [segments, htext, splitDots_append, List.filter_append, List.map_append]
  rfl

/-- Without a dot a path is one name, or none if it is empty. -/
theorem segments_of_not_mem {name : String} (h : '.' ∉ name.toList) :
    segments name = if name = "" then [] else [name] := by
  rw [segments, splitDots_of_not_mem h]
  by_cases hn : name = ""
  · subst hn
    rfl
  · have hne : name.toList ≠ [] := by simpa using hn
    simp [hn, hne]

/-! ### The laws together -/

/-- **Trees form a semilattice, and all that builds a tree is a join.**  Joining is commutative,
associative and idempotent, and the empty tree is its identity.  An attribute is redacted in a
joined tree iff it is in one of the two, and nothing is left of a location iff one of the two
leaves nothing there.  A path joins the chain of its names, which are what stands between its dots
and is not empty; so the tree of a list of paths depends on which paths there are alone, and more
paths join their tree.  To redact or to nest joins a tree of one entry. -/
theorem built_by_joins :
    (∀ s t : IgnoredFields, s.merge t = t.merge s) ∧
    (∀ s t u : IgnoredFields, (s.merge t).merge u = s.merge (t.merge u)) ∧
    (∀ t : IgnoredFields, t.merge t = t ∧ t.merge empty = t ∧ empty.merge t = t) ∧
    (∀ (s t : IgnoredFields) (name : String), (s.merge t).get? name = some .redacted ↔
      s.get? name = some .redacted ∨ t.get? name = some .redacted) ∧
    (∀ (s t : IgnoredFields) (p : List String),
      (s.merge t).Covers p ↔ s.Covers p ∨ t.Covers p) ∧
    (∀ (t : IgnoredFields) (path : String),
      t.insertPath path = t.merge (chain (segments path))) ∧
    (∀ a b : String, segments (a ++ "." ++ b) = segments a ++ segments b) ∧
    (∀ name : String, '.' ∉ name.toList →
      segments name = if name = "" then [] else [name]) ∧
    (∀ xs ys : List String, (∀ path, path ∈ xs ↔ path ∈ ys) → ofPaths xs = ofPaths ys) ∧
    (∀ xs ys : List String, ofPaths (xs ++ ys) = (ofPaths xs).merge (ofPaths ys)) ∧
    (∀ (t : IgnoredFields) (name : String), t.redact name = t.merge (chain [name])) ∧
    (∀ (t : IgnoredFields) (name : String) (sub : IgnoredFields),
      t.nest name sub = t.merge (single name sub)) := by
  have hpaths (xs ys : List String) (h : ∀ path, path ∈ xs ↔ path ∈ ys) :
      ofPaths xs = ofPaths ys := by
    have hset : xs.toFinset = ys.toFinset := by
      ext path
      simp only [List.mem_toFinset, h path]
    rw [ofPaths_eq_sup, ofPaths_eq_sup, hset]
  have happend (xs ys : List String) :
      ofPaths (xs ++ ys) = (ofPaths xs).merge (ofPaths ys) := by
    rw [← sup_eq_merge, ofPaths_eq_sup, ofPaths_eq_sup, ofPaths_eq_sup, List.toFinset_append,
      Finset.sup_union]
  refine ⟨merge_comm, merge_assoc, fun t => ⟨merge_self t, merge_empty t, empty_merge t⟩,
    fun s t name => ?_, covers_merge, insertPath_eq_merge, segments_append,
    fun name => segments_of_not_mem, hpaths, happend, redact_eq_merge, fun t name sub => rfl⟩
  rw [get?_merge, Rule.both_eq_redacted_iff]

/-- A path that is given again, or lies below another one, adds nothing. -/
theorem status_in_any_order :
    (∀ path, path ∈ ["status", "data.time", "status.phase"] ↔
      path ∈ ["status.phase", "status", "data.time", "status"]) ∧
    ofPaths ["status", "data.time", "status.phase"] =
      ofPaths ["status.phase", "status", "data.time", "status"] ∧
    ofPaths ["status", "data.time", "status.phase"] =
      (single "data" (empty.redact "time")).redact "status" := by
  have h : ∀ path, path ∈ ["status", "data.time", "status.phase"] ↔
      path ∈ ["status.phase", "status", "data.time", "status"] := by
    intro path
    simp only [List.mem_cons, List.not_mem_nil, or_false]
    tauto
  obtain ⟨-, -, -, -, -, -, -, -, hpaths, -⟩ := built_by_joins
  exact ⟨h, hpaths _ _ h, ext (by rfl)⟩

end IgnoredFields

end ClusterHerald
