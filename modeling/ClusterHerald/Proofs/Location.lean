import ClusterHerald.Proofs.Difference

/-!
# Documents location by location

A location is a list of names that leads from a document through its objects (`Json.at?`); arrays
are not entered.  A tree of ignored fields covers a location if the first names of it lead through
nested entries to a redacted one (`IgnoredFields.Covers`).

Pruning takes away what is at covered locations, and leaves an object or the very value at all
others (`Json.at?_pruneBy_of_covers`, `Json.at?_pruneBy`).  Two documents are the same iff they
agree at every location (`Json.same_iff_agree`).

So an update is noise iff its documents agree wherever the tree does not cover them
(`noise_iff_agree_where_uncovered`).
-/

namespace ClusterHerald

theorem Entries.Ordered.get?_of_mem {α : Type} {es : Entries α} (h : Entries.Ordered es)
    {e : String × α} (he : e ∈ es) : Entries.get? es e.1 = some e.2 := by
  induction es with
  | nil => cases he
  | cons x es ih =>
    obtain ⟨n, v⟩ := x
    obtain ⟨hlt, hes⟩ := List.pairwise_cons.1 h
    rw [get?_cons]
    rcases List.mem_cons.1 he with rfl | he
    · rw [if_pos rfl]
    · rw [if_neg (ne_of_name_lt (hlt e he)), ih hes he]

/-! ### Locations -/

namespace Json

/-- The value at a location. -/
def at? (v : Json) : List String → Option Json
  | [] => some v
  | name :: rest => (v.get? name).bind fun w => w.at? rest

/-- What may be found at one location of two documents that agree there: nothing, two objects, or
two equal values that are no objects. -/
inductive Agree : Option Json → Option Json → Prop
  | absent : Agree none none
  | objects (ms ns : Entries Json) : Agree (some (.object ms)) (some (.object ns))
  | values {v w : Json} (hv : v.members? = none) (hw : w.members? = none)
    (h : same v w = true) : Agree (some v) (some w)

theorem not_agree_none_some (w : Json) : ¬ Agree none (some w) := nofun

theorem not_agree_some_none (v : Json) : ¬ Agree (some v) none := nofun

theorem agree_some_iff {v w : Json} :
    Agree (some v) (some w) ↔
      v.members?.isSome = true ∧ w.members?.isSome = true ∨
        v.members? = none ∧ w.members? = none ∧ same v w = true := by
  constructor
  · rintro (_ | _ | ⟨hv, hw, h⟩)
    · exact .inl ⟨rfl, rfl⟩
    · exact .inr ⟨hv, hw, h⟩
  · rintro (⟨hv, hw⟩ | ⟨hv, hw, h⟩)
    · cases v <;> cases hv
      cases w <;> cases hw
      exact .objects _ _
    · exact .values hv hw h

end Json

namespace Rule

/-- The names lead through nested entries to a redacted one. -/
inductive LeadsToRedacted : Entries Rule → List String → Prop
  | redacted {es : Entries Rule} {name : String} (h : Entries.get? es name = some .redacted) :
    LeadsToRedacted es [name]
  | nested {es sub : Entries Rule} {name : String} {rest : List String}
    (h : Entries.get? es name = some (.nested sub)) (hrest : LeadsToRedacted sub rest) :
    LeadsToRedacted es (name :: rest)

/-- The first names of the location lead to a redacted entry. -/
def Covers (es : Entries Rule) (location : List String) : Prop :=
  ∃ names, names <+: location ∧ LeadsToRedacted es names

variable {es : Entries Rule} {name : String} {rest : List String}

theorem not_covers_nil : ¬ Covers es [] := by
  rintro ⟨names, hp, h⟩
  rw [List.prefix_nil.1 hp] at h
  cases h

theorem covers_of_redacted (h : Entries.get? es name = some .redacted) :
    Covers es (name :: rest) :=
  ⟨[name], List.cons_prefix_cons.2 ⟨rfl, List.nil_prefix⟩, .redacted h⟩

theorem covers_of_nested {sub : Entries Rule} (h : Entries.get? es name = some (.nested sub)) :
    Covers es (name :: rest) ↔ Covers sub rest := by
  constructor
  · rintro ⟨names, hp, hlead⟩
    cases hlead with
    | redacted hr =>
      rw [(List.cons_prefix_cons.1 hp).1, h] at hr
      cases hr
    | nested hr hlead =>
      obtain ⟨rfl, hrest⟩ := List.cons_prefix_cons.1 hp
      cases h.symm.trans hr
      exact ⟨_, hrest, hlead⟩
  · rintro ⟨names, hp, hlead⟩
    exact ⟨name :: names, List.cons_prefix_cons.2 ⟨rfl, hp⟩, .nested h hlead⟩

theorem not_covers_of_none (h : Entries.get? es name = none) : ¬ Covers es (name :: rest) := by
  rintro ⟨names, hp, hlead⟩
  cases hlead with
  | redacted hr | nested hr _ =>
    rw [(List.cons_prefix_cons.1 hp).1, h] at hr
    cases hr

end Rule

/-- The tree leaves nothing at the location. -/
def IgnoredFields.Covers (t : IgnoredFields) (location : List String) : Prop :=
  Rule.Covers t.entries location

/-! ### What pruning leaves -/

/-- The document without what the entries redact. -/
def Json.pruneBy (es : Entries Rule) : Json → Json
  | .object ms => .object (Rule.actAll ms es)
  | v => v

theorem Json.prune_eq_pruneBy (v : Json) (ignored : IgnoredFields) :
    v.prune ignored = v.pruneBy ignored.entries := by
  cases v <;> rfl

namespace Rule

/-- What a rule leaves of a value. -/
def leave? : Rule → Json → Option Json
  | .redacted, _ => none
  | .nested es, v => some (v.pruneBy es)

theorem get?_act (name : String) (ms : Entries Json) (r : Rule) (other : String) :
    Entries.get? (act name ms r) other =
      if name = other then (Entries.get? ms other).bind r.leave? else Entries.get? ms other := by
  cases r with
  | redacted =>
    rw [act, Entries.get?_erase]
    cases Entries.get? ms other <;> rfl
  | nested es =>
    rw [act]
    by_cases hn : name = other
    · subst hn
      rw [if_pos rfl]
      split
      · next sub hsub => simp [hsub, leave?, Json.pruneBy]
      · next hno =>
        -- only objects are entered
        cases hv : Entries.get? ms name with
        | none => rfl
        | some v =>
          cases v with
          | object sub => exact absurd hv (hno sub)
          | _ => rfl
    · rw [if_neg hn]
      split
      · simp [Entries.get?_insert, hn]
      · rfl

/-- Of every member the rule of its name, if there is one, leaves what it may. -/
theorem get?_actAll {es : Entries Rule} (h : Entries.Ordered es) (ms : Entries Json)
    (name : String) :
    Entries.get? (actAll ms es) name =
      match Entries.get? es name with
      | some r => (Entries.get? ms name).bind r.leave?
      | none => Entries.get? ms name := by
  induction es generalizing ms with
  | nil => rfl
  | cons e es ih =>
    obtain ⟨n, r⟩ := e
    rw [actAll, ih (List.pairwise_cons.1 h).2, get?_act, Entries.get?_cons]
    by_cases hn : n = name
    · subst hn
      -- no later entry has the same name
      rw [h.get?_tail (String.lt_irrefl n), if_pos rfl, if_pos rfl]
    · rw [if_neg hn, if_neg hn]

end Rule

namespace Json

theorem pruneBy_nil (v : Json) : v.pruneBy [] = v := by
  cases v <;> rfl

theorem get?_pruneBy {es : Entries Rule} (h : Entries.Ordered es) (v : Json) (name : String) :
    (v.pruneBy es).get? name =
      match Entries.get? es name with
      | some r => (v.get? name).bind r.leave?
      | none => v.get? name := by
  cases v with
  | object ms => exact Rule.get?_actAll h ms name
  | _ => cases Entries.get? es name <;> rfl

variable {es : Entries Rule} {p : List String}

/-- Nothing is left at a covered location. -/
theorem at?_pruneBy_of_covers (h : Rule.OrderedTree es) (hp : Rule.Covers es p) (v : Json) :
    (v.pruneBy es).at? p = none := by
  induction p generalizing v es with
  | nil => exact absurd hp Rule.not_covers_nil
  | cons name rest ih =>
    rw [at?, get?_pruneBy h.1]
    cases hr : Entries.get? es name with
    | none => exact absurd hp (Rule.not_covers_of_none hr)
    | some r =>
      cases r with
      | redacted => cases v.get? name <;> rfl
      | nested sub =>
        have hsub := ih (Rule.ordered_nested.1 (h.get? hr)) ((Rule.covers_of_nested hr).1 hp)
        cases v.get? name with
        | none => rfl
        | some w => exact hsub w

/-- At any other location the value is pruned by what the tree says below it. -/
theorem at?_pruneBy (h : Rule.OrderedTree es) (hp : ¬ Rule.Covers es p) :
    ∃ below, ∀ v : Json, (v.pruneBy es).at? p = (v.at? p).map (pruneBy below) := by
  induction p generalizing es with
  | nil => exact ⟨es, fun v => rfl⟩
  | cons name rest ih =>
    cases hr : Entries.get? es name with
    | none =>
      refine ⟨[], fun v => ?_⟩
      have hid : pruneBy [] = id := funext pruneBy_nil
      rw [at?, at?, get?_pruneBy h.1, hr, hid, Option.map_id]
      rfl
    | some r =>
      cases r with
      | redacted => exact absurd (Rule.covers_of_redacted hr) hp
      | nested sub =>
        obtain ⟨below, hbelow⟩ := ih (Rule.ordered_nested.1 (h.get? hr))
          fun hsub => hp ((Rule.covers_of_nested hr).2 hsub)
        refine ⟨below, fun v => ?_⟩
        rw [at?, at?, get?_pruneBy h.1, hr]
        cases v.get? name with
        | none => rfl
        | some w => exact hbelow w

theorem members?_pruneBy (es : Entries Rule) (v : Json) :
    (v.pruneBy es).members? = v.members?.map (Rule.actAll · es) := by
  cases v <;> rfl

theorem pruneBy_of_members? (es : Entries Rule) {v : Json} (h : v.members? = none) :
    v.pruneBy es = v := by
  cases v with
  | object ms => cases h
  | _ => rfl

/-- Pruning does not turn what is no object into one, or the other way round. -/
theorem agree_pruneBy (es : Entries Rule) (x y : Option Json) :
    Agree (x.map (pruneBy es)) (y.map (pruneBy es)) ↔ Agree x y := by
  cases x with
  | none =>
    cases y with
    | none => rfl
    | some w => exact iff_of_false (not_agree_none_some _) (not_agree_none_some w)
  | some v =>
    cases y with
    | none => exact iff_of_false (not_agree_some_none _) (not_agree_some_none v)
    | some w =>
      rw [Option.map_some, Option.map_some, agree_some_iff, agree_some_iff]
      simp only [members?_pruneBy, Option.isSome_map, Option.map_eq_none_iff]
      refine or_congr Iff.rfl (and_congr_right fun hv => and_congr_right fun hw => ?_)
      rw [pruneBy_of_members? es hv, pruneBy_of_members? es hw]

/-! ### Documents that agree everywhere -/

/-- Of two values that are the same both are objects, or none is. -/
theorem members?_of_same {v w : Json} (h : same v w = true) :
    v.members?.isSome = w.members?.isSome := by
  cases v <;> cases w <;> first | rfl | simp [same] at h

/-- What is no object has a value only where it stands itself. -/
theorem same_iff_agree_of_members? {v w : Json} (hv : v.members? = none) :
    same v w = true ↔ ∀ p, Agree (v.at? p) (w.at? p) := by
  constructor
  · intro h p
    have hw : w.members? = none := by
      have := members?_of_same h
      rw [hv] at this
      exact Option.not_isSome_iff_eq_none.1 (this ▸ nofun)
    cases p with
    | nil => exact .values hv hw h
    | cons name rest =>
      have hnone {u : Json} (hu : u.members? = none) : u.at? (name :: rest) = none := by
        cases u with
        | object ms => cases hu
        | _ => rfl
      rw [hnone hv, hnone hw]
      exact .absent
  · intro h
    obtain ⟨hobj, -⟩ | ⟨-, -, h⟩ := agree_some_iff.1 (h [])
    · rw [hv] at hobj
      cases hobj
    · exact h

mutual

/-- Ordered documents are the same iff they agree at every location. -/
theorem same_iff_agree :
    ∀ {a b : Json}, a.Ordered → b.Ordered →
      (same a b = true ↔ ∀ p, Agree (a.at? p) (b.at? p))
  | .object as, .object bs, ha, hb => by
    rw [same, sameMembers_iff ha.1 hb.1]
    constructor
    · rintro ⟨has, hbs⟩ p
      cases p with
      | nil => exact .objects as bs
      | cons name rest =>
        simp only [at?, get?]
        cases hv : Entries.get? as name with
        | some v =>
          have hmem := Entries.mem_of_get? hv
          obtain ⟨w, hw, hvw⟩ := has _ hmem
          have hwo := orderedMembers_iff.1 hb.2 _ (Entries.mem_of_get? hw)
          rw [hw]
          exact (same_iff_agree_of_mem ha.2 hmem hwo).1 hvw rest
        | none =>
          cases hw : Entries.get? bs name with
          | none => exact .absent
          | some w =>
            have hhas := hbs _ (Entries.mem_of_get? hw)
            rw [Entries.has, hv] at hhas
            cases hhas
    · intro h
      -- what stands at a member and below it
      have hmember (name : String) (rest : List String) :
          Agree ((Entries.get? as name).bind (·.at? rest))
            ((Entries.get? bs name).bind (·.at? rest)) := h (name :: rest)
      refine ⟨fun m hm => ?_, fun m hm => ?_⟩
      · have hget := Entries.Ordered.get?_of_mem ha.1 hm
        cases hw : Entries.get? bs m.1 with
        | none =>
          have := hmember m.1 []
          rw [hget, hw] at this
          exact absurd this (not_agree_some_none _)
        | some w =>
          have hwo := orderedMembers_iff.1 hb.2 _ (Entries.mem_of_get? hw)
          refine ⟨w, rfl, (same_iff_agree_of_mem ha.2 hm hwo).2 fun rest => ?_⟩
          simpa only [hget, hw, Option.bind_some] using hmember m.1 rest
      · have hget := Entries.Ordered.get?_of_mem hb.1 hm
        cases hv : Entries.get? as m.1 with
        | none =>
          have := hmember m.1 []
          rw [hget, hv] at this
          exact absurd this (not_agree_none_some _)
        | some v => rw [Entries.has, hv]; rfl
  | .null, b, _, _ | .bool _, b, _, _ | .number _, b, _, _ | .string _, b, _, _
  | .array _, b, _, _ => same_iff_agree_of_members? rfl
  | .object _, .null, _, _ | .object _, .bool _, _, _ | .object _, .number _, _, _
  | .object _, .string _, _, _ | .object _, .array _, _, _ =>
    iff_of_false nofun fun h => nomatch h []

theorem same_iff_agree_of_mem :
    ∀ {ms : List (String × Json)}, OrderedMembers ms → ∀ {m}, m ∈ ms → ∀ {w : Json}, w.Ordered →
      (same m.2 w = true ↔ ∀ p, Agree (m.2.at? p) (w.at? p))
  | (n, v) :: ms, h, m, hm, w, hw => by
    rcases List.mem_cons.1 hm with rfl | hm
    · exact same_iff_agree h.1 hw
    · exact same_iff_agree_of_mem h.2 hm hw

end

/-- Pruned documents agree at every covered location, and at any other one iff the documents do. -/
theorem agree_prune_iff (ignored : IgnoredFields) (v w : Json) (p : List String) :
    Agree ((v.prune ignored).at? p) ((w.prune ignored).at? p) ↔
      (¬ ignored.Covers p → Agree (v.at? p) (w.at? p)) := by
  rw [prune_eq_pruneBy, prune_eq_pruneBy]
  by_cases hp : ignored.Covers p
  · rw [at?_pruneBy_of_covers ignored.ordered hp, at?_pruneBy_of_covers ignored.ordered hp]
    exact iff_of_true .absent fun h => absurd hp h
  · obtain ⟨below, hbelow⟩ := at?_pruneBy ignored.ordered hp
    rw [hbelow, hbelow, agree_pruneBy]
    exact ⟨fun h _ => h, fun h => h hp⟩

end Json

/-! ### Noise -/

/-- **An update is noise iff its documents agree wherever the tree does not cover them.**  Some
field has to be ignored and both documents known.  At every location that is not covered, the root
among them, neither document has a value, or both have an object, or both have equal values that
are no objects. -/
theorem noise_iff_agree_where_uncovered {old new : Option Json} (ho : ∀ v ∈ old, v.Ordered)
    (hn : ∀ w ∈ new, w.Ordered) (ignored : IgnoredFields) :
    isNoise old new ignored = true ↔
      ignored.entries ≠ [] ∧ ∃ v w, old = some v ∧ new = some w ∧
        ∀ p, ¬ ignored.Covers p → Json.Agree (v.at? p) (w.at? p) := by
  cases old with
  | none => exact iff_of_false nofun fun ⟨_, _, _, hv, _⟩ => nomatch hv
  | some v =>
    cases new with
    | none => exact iff_of_false nofun fun ⟨_, _, _, _, hw, _⟩ => nomatch hw
    | some w =>
      have hv := ho v rfl
      have hw := hn w rfl
      have hempty : ignored.isEmpty = false ↔ ignored.entries ≠ [] := by
        rw [IgnoredFields.isEmpty, List.isEmpty_eq_false_iff]
      rw [isNoise_iff hv hw, hempty, Json.same_iff_agree (hv.prune ignored) (hw.prune ignored)]
      simp only [Json.agree_prune_iff, Option.some.injEq, exists_and_left, exists_eq_left']

/-- A timestamp goes, and a status takes another form; both are ignored. -/
theorem lost_timestamp_is_noise :
    let ignored := (IgnoredFields.single "data" (.redact .empty "timestamp")).redact "status"
    let old : Json := .object [
      ("data", .object [("timestamp", .string "1")]), ("items", .array [.int 1]),
      ("status", .object [("phase", .string "Running")])]
    let new : Json := .object [
      ("data", .object []), ("items", .array [.int 1]), ("status", .null)]
    old.Ordered ∧ new.Ordered ∧ isNoise (some old) (some new) ignored = true ∧
      ∀ p, ¬ ignored.Covers p → Json.Agree (old.at? p) (new.at? p) := by
  intro ignored old new
  have ho : old.Ordered := by decide
  have hn : new.Ordered := by decide
  have hnoise : isNoise (some old) (some new) ignored = true := by decide
  obtain ⟨-, v, w, hv, hw, hagree⟩ := (noise_iff_agree_where_uncovered
    (fun _ h => Option.some.inj h ▸ ho) (fun _ h => Option.some.inj h ▸ hn) ignored).1 hnoise
  cases hv
  cases hw
  exact ⟨ho, hn, hnoise, hagree⟩

end ClusterHerald
