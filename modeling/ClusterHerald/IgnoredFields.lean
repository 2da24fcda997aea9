import ClusterHerald.Json.Basic

/-!
# Ignored fields

A tree of attribute names says what an update may change without being worth a notice.  An entry
either redacts its attribute or is nested: then the names below it apply within the attribute.

Trees are built from dotted paths (`insertPath`), by single entries (`redact`, `nest`), or from
documents in which null redacts (`ofJson?`), and are joined by `merge`.  Where two trees name one
attribute, redaction wins over a nested entry.

Every tree carries the proof that names increase at every level, so equal trees are equal values.
-/

namespace ClusterHerald

/-- What becomes of an attribute. -/
inductive Rule where
  /-- The attribute is left out. -/
  | redacted
  /-- The entries apply within the attribute. -/
  | nested (entries : List (String × Rule))
deriving Repr, Inhabited

namespace Rule

mutual

/-- Whether names increase at every level of a rule. -/
def Ordered : Rule → Prop
  | .redacted => True
  | .nested es => Entries.Ordered es ∧ OrderedValues es

/-- Whether the rule of every entry is ordered. -/
def OrderedValues : List (String × Rule) → Prop
  | [] => True
  | (_, r) :: es => Ordered r ∧ OrderedValues es

end

theorem orderedValues_iff {es : Entries Rule} : OrderedValues es ↔ ∀ e ∈ es, Ordered e.2 := by
  induction es with
  | nil => simp [OrderedValues]
  | cons e es ih => obtain ⟨n, r⟩ := e; simp [OrderedValues, ih]

/-- Whether names increase at every level of a list of entries. -/
def OrderedTree (es : Entries Rule) : Prop :=
  Entries.Ordered es ∧ OrderedValues es

theorem orderedTree_nil : OrderedTree [] :=
  ⟨List.Pairwise.nil, trivial⟩

theorem ordered_nested {es : Entries Rule} : Ordered (.nested es) ↔ OrderedTree es := by
  simp [Ordered, OrderedTree]

theorem OrderedTree.get? {es : Entries Rule} (h : OrderedTree es) {name : String} {r : Rule}
    (hr : Entries.get? es name = some r) : Ordered r := by
  have hv := orderedValues_iff.1 h.2
  clear h
  induction es with
  | nil => simp at hr
  | cons e es ih =>
    obtain ⟨n, s⟩ := e
    rw [Entries.get?_cons] at hr
    split at hr
    · cases hr
      exact hv _ List.mem_cons_self
    · exact ih hr fun e he => hv e (by simp [he])

theorem OrderedTree.insert {es : Entries Rule} (h : OrderedTree es) (name : String) {r : Rule}
    (hr : Ordered r) : OrderedTree (Entries.insert name r es) := by
  refine ⟨h.1.insert name r, orderedValues_iff.2 fun e he => ?_⟩
  rcases Entries.mem_insert he with rfl | he
  · exact hr
  · exact orderedValues_iff.1 h.2 e he

/-! ### Joining -/

mutual

/-- The rule that joins an earlier rule, if any, with a later one.  Redaction on either side
wins. -/
def join (old : Option Rule) : Rule → Rule
  | .redacted => .redacted
  | .nested es =>
    match old with
    | none => .nested es
    | some .redacted => .redacted
    | some (.nested fs) => .nested (merge fs es)

/-- Joins later entries into earlier ones. -/
def merge (fs : Entries Rule) : List (String × Rule) → Entries Rule
  | [] => fs
  | (n, r) :: es => merge (Entries.insert n (join (Entries.get? fs n) r) fs) es

end

mutual

theorem ordered_join {old : Option Rule} (hold : ∀ r, old = some r → Ordered r) :
    ∀ {r : Rule}, Ordered r → Ordered (join old r)
  | .redacted, _ => by simp [join, Ordered]
  | .nested es, h => by
    cases old with
    | none => simpa [join] using h
    | some s =>
      cases s with
      | redacted => simp [join, Ordered]
      | nested fs =>
        rw [join, ordered_nested]
        exact orderedTree_merge (ordered_nested.1 (hold _ rfl)) (ordered_nested.1 h).2

theorem orderedTree_merge {fs : Entries Rule} (hfs : OrderedTree fs) :
    ∀ {es : List (String × Rule)}, OrderedValues es → OrderedTree (merge fs es)
  | [], _ => by simpa [merge] using hfs
  | (n, r) :: es, h => by
    rw [merge]
    rw [OrderedValues] at h
    exact orderedTree_merge (hfs.insert n (ordered_join (fun s hs => hfs.get? hs) h.1)) h.2

end

/-! ### Paths -/

/-- Adds a chain of names that ends in a redacted attribute.  Below an attribute that is redacted
already nothing is added. -/
def insertChain : List String → Entries Rule → Entries Rule
  | [], es => es
  | [last], es => Entries.insert last .redacted es
  | name :: next :: rest, es =>
    match Entries.get? es name with
    | some .redacted => es
    | some (.nested sub) => Entries.insert name (.nested (insertChain (next :: rest) sub)) es
    | none => Entries.insert name (.nested (insertChain (next :: rest) [])) es

theorem orderedTree_insertChain (chain : List String) {es : Entries Rule} (h : OrderedTree es) :
    OrderedTree (insertChain chain es) := by
  induction chain generalizing es with
  | nil => exact h
  | cons name rest ih =>
    cases rest with
    | nil => exact h.insert name (by simp [Ordered])
    | cons next rest =>
      rw [insertChain]
      split
      · exact h
      · next sub hsub =>
        exact h.insert name (ordered_nested.2 (ih (ordered_nested.1 (h.get? hsub))))
      · exact h.insert name (ordered_nested.2 (ih orderedTree_nil))

/-! ### Documents -/

mutual

/-- Reads a rule: null redacts, an object is nested. -/
def ofJson? : Json → Option Rule
  | .null => some .redacted
  | .object ms => (entriesOfMembers? ms).map .nested
  | _ => none

/-- Reads the members of an object as entries. -/
def entriesOfMembers? : List (String × Json) → Option (Entries Rule)
  | [] => some []
  | (n, v) :: ms => (ofJson? v).bind fun r => (entriesOfMembers? ms).map (Entries.insert n r)

end

mutual

theorem ordered_ofJson? : ∀ {v : Json} {r : Rule}, ofJson? v = some r → Ordered r
  | .null, _, h => by simp [ofJson?] at h; subst h; simp [Ordered]
  | .object ms, _, h => by
    simp only [ofJson?, Option.map_eq_some_iff] at h
    obtain ⟨es, hes, rfl⟩ := h
    exact ordered_nested.2 (orderedTree_entriesOfMembers? hes)
  | .bool _, _, h | .number _, _, h | .string _, _, h | .array _, _, h => by simp [ofJson?] at h

theorem orderedTree_entriesOfMembers? : ∀ {ms : List (String × Json)} {es : Entries Rule},
    entriesOfMembers? ms = some es → OrderedTree es
  | [], _, h => by simp [entriesOfMembers?] at h; subst h; exact orderedTree_nil
  | (n, v) :: ms, _, h => by
    simp only [entriesOfMembers?, Option.bind_eq_some_iff, Option.map_eq_some_iff] at h
    obtain ⟨r, hr, es, hes, rfl⟩ := h
    exact (orderedTree_entriesOfMembers? hes).insert n (ordered_ofJson? hr)

end

mutual

/-- A rule as a document: null for a redacted attribute, an object for a nested entry. -/
def toJson : Rule → Json
  | .redacted => .null
  | .nested es => .object (membersOfEntries es)

/-- Entries as the members of an object. -/
def membersOfEntries : List (String × Rule) → List (String × Json)
  | [] => []
  | (n, r) :: es => (n, toJson r) :: membersOfEntries es

end

end Rule

/-- A tree of ignored attributes. -/
structure IgnoredFields where
  entries : Entries Rule
  ordered : Rule.OrderedTree entries

namespace IgnoredFields

/-- The tree that ignores nothing. -/
def empty : IgnoredFields := ⟨[], Rule.orderedTree_nil⟩

instance : Inhabited IgnoredFields := ⟨empty⟩

/-- Two trees with the same entries are equal. -/
theorem ext {s t : IgnoredFields} (h : s.entries = t.entries) : s = t := by
  obtain ⟨es, hes⟩ := s
  obtain ⟨fs, hfs⟩ := t
  cases h
  rfl

/-- Whether the tree has no entry. -/
def isEmpty (t : IgnoredFields) : Bool :=
  t.entries.isEmpty

/-- Joins two trees. -/
def merge (s t : IgnoredFields) : IgnoredFields :=
  ⟨Rule.merge s.entries t.entries, Rule.orderedTree_merge s.ordered t.ordered.2⟩

/-- Redacts an attribute, whatever is known about it. -/
def redact (t : IgnoredFields) (name : String) : IgnoredFields :=
  ⟨Entries.insert name .redacted t.entries, t.ordered.insert name (by simp [Rule.Ordered])⟩

/-- The tree whose one entry is nested. -/
def single (name : String) (sub : IgnoredFields) : IgnoredFields :=
  ⟨[(name, .nested sub.entries)],
    Rule.orderedTree_nil.insert name (Rule.ordered_nested.2 sub.ordered)⟩

/-- Joins a tree into the entry of an attribute. -/
def nest (t : IgnoredFields) (name : String) (sub : IgnoredFields) : IgnoredFields :=
  t.merge (single name sub)

/-- The parts of a text between dots. -/
def splitDots : List Char → List (List Char)
  | [] => [[]]
  | c :: cs =>
    if c = '.' then [] :: splitDots cs
    else match splitDots cs with
      | [] => [[c]]
      | part :: parts => (c :: part) :: parts

/-- The names of a dotted path; empty ones do not count. -/
def segments (path : String) : List String :=
  ((splitDots path.toList).filter (· ≠ [])).map String.ofList

/-- Adds a dotted path. -/
def insertPath (t : IgnoredFields) (path : String) : IgnoredFields :=
  ⟨Rule.insertChain (segments path) t.entries, Rule.orderedTree_insertChain _ t.ordered⟩

/-- The tree of a list of dotted paths. -/
def ofPaths (paths : List String) : IgnoredFields :=
  paths.foldl insertPath empty

/-- Reads a tree: an object whose members are objects and null. -/
def ofJson? (v : Json) : Option IgnoredFields :=
  match v with
  | .object ms =>
    match h : Rule.entriesOfMembers? ms with
    | some es => some ⟨es, Rule.orderedTree_entriesOfMembers? h⟩
    | none => none
  | _ => none

/-- The tree as a document. -/
def toJson (t : IgnoredFields) : Json :=
  .object (Rule.membersOfEntries t.entries)

end IgnoredFields

end ClusterHerald
