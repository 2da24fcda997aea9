import ClusterHerald.Table

/-!
# Which names a table has

Whether a name has a value, after an insertion and after a removal.  A `NameSet` is a table
without values of interest, so its membership follows the same laws.

Entries that are made from a list are a permutation of it as long as its names differ
(`Entries.perm_ofList`), and the list itself if it is ordered already (`Entries.ofList_of_ordered`).

`Table.map` keeps the names and changes the values.  In a list of pairs whose keys differ, every
pair is found by its key (`lookup_of_mem`).
-/

namespace ClusterHerald

universe u v

namespace Entries

variable {α : Type u} {es pairs : Entries α} {name : String}

/-! ### Entries of a list -/

theorem insert_of_lt (h : ∀ e ∈ es, name < e.1) (value : α) :
    insert name value es = (name, value) :: es := by
  cases es with
  | nil => rfl
  | cons e es => rw [insert, if_pos (h e List.mem_cons_self)]

theorem insert_of_gt (h : ∀ e ∈ es, e.1 < name) (value : α) :
    insert name value es = es ++ [(name, value)] := by
  induction es with
  | nil => rfl
  | cons e es ih =>
    have he : e.1 < name := h e List.mem_cons_self
    rw [insert, if_neg (String.lt_asymm he), if_neg (ne_of_name_lt he),
      ih fun e' he' => h e' (List.mem_cons_of_mem _ he'), List.cons_append]

/-- Ordered entries stay as they are. -/
theorem ofList_of_ordered (h : Ordered pairs) : ofList pairs = pairs := by
  have hfold (es : Entries α) (hes : Ordered (es ++ pairs)) :
      pairs.foldl (fun es p => insert p.1 p.2 es) es = es ++ pairs := by
    clear h
    induction pairs generalizing es with
    | nil => exact (List.append_nil es).symm
    | cons p pairs ih =>
      have hp : ∀ e ∈ es, e.1 < p.1 := fun e he =>
        (List.pairwise_append.1 hes).2.2 e he p List.mem_cons_self
      rw [List.append_cons] at hes ⊢
      rw [List.foldl_cons, insert_of_gt hp, ih _ hes]
  exact hfold [] h

theorem perm_insert (h : name ∉ names es) (value : α) :
    (insert name value es).Perm ((name, value) :: es) := by
  induction es with
  | nil => exact .refl _
  | cons e es ih =>
    obtain ⟨hne, hout⟩ : name ≠ e.1 ∧ name ∉ names es := by simpa [names] using h
    rw [insert]
    split
    · exact .refl _
    · rw [if_neg (Ne.symm hne)]
      exact ((ih hout).cons e).trans (.swap ..)

/-- Pairs with different names are only reordered. -/
theorem perm_ofList (h : (names pairs).Nodup) : (ofList pairs).Perm pairs := by
  have hfold (es : Entries α) (hes : (names pairs ++ names es).Nodup) :
      (pairs.foldl (fun es p => insert p.1 p.2 es) es).Perm (pairs ++ es) := by
    clear h
    induction pairs generalizing es with
    | nil => exact .refl _
    | cons p pairs ih =>
      obtain ⟨hout, hrest⟩ := List.nodup_cons.1 hes
      have hp : (insert p.1 p.2 es).Perm (p :: es) :=
        perm_insert (fun hmem => hout (List.mem_append_right _ hmem)) p.2
      have hnext : (names pairs ++ names (insert p.1 p.2 es)).Nodup := by
        have hnames := (hp.map Prod.fst).append_left (names pairs)
        exact (hnames.trans List.perm_middle).nodup_iff.2 hes
      exact ((ih _ hnext).trans (hp.append_left pairs)).trans List.perm_middle
  have hperm := hfold [] (by simpa [names] using h)
  rwa [List.append_nil] at hperm

end Entries

/-- Under different keys every pair is found. -/
theorem lookup_of_mem {κ : Type u} {α : Type v} [BEq κ] [LawfulBEq κ] {es : List (κ × α)}
    {e : κ × α} (hd : (es.map Prod.fst).Nodup) (he : e ∈ es) : es.lookup e.1 = some e.2 := by
  induction es with
  | nil => cases he
  | cons e' es ih =>
    obtain ⟨hout, hrest⟩ := List.nodup_cons.1 hd
    obtain rfl | he := List.mem_cons.1 he
    · exact List.lookup_cons_self
    · have hne : (e.1 == e'.1) = false :=
        beq_eq_false_iff_ne.2 fun heq => hout (heq ▸ List.mem_map.2 ⟨e, he, rfl⟩)
      rw [List.lookup_cons, hne]
      exact ih hrest he

namespace Table

variable {α : Type u} {β : Type v}

theorem has_iff {t : Table α} {name : String} :
    t.has name = true ↔ ∃ value, t.get? name = some value :=
  Option.isSome_iff_exists

theorem has_of_get? {t : Table α} {name : String} {value : α} (h : t.get? name = some value) :
    t.has name = true :=
  has_iff.2 ⟨value, h⟩

theorem has_eq_false_iff {t : Table α} {name : String} :
    t.has name = false ↔ t.get? name = none := by
  simp [has]

theorem ofList_entries (t : Table α) : ofList t.entries = t := by
  obtain ⟨es, hes⟩ := t
  simp only [ofList, Entries.ofList_of_ordered hes]

theorem eq_empty_of_isEmpty {t : Table α} (h : t.isEmpty = true) : t = empty := by
  obtain ⟨entries, hordered⟩ := t
  obtain rfl : entries = [] := List.isEmpty_iff.1 h
  rfl

@[simp] theorem has_empty (name : String) : (empty : Table α).has name = false := rfl

theorem has_insert (t : Table α) (name other : String) (value : α) :
    (t.insert name value).has other = (decide (name = other) || t.has other) := by
  by_cases h : name = other <;> simp [has, get?_insert, h]

theorem has_erase (t : Table α) (name other : String) :
    (t.erase name).has other = (!decide (name = other) && t.has other) := by
  by_cases h : name = other <;> simp [has, get?_erase, h]

/-- The names increase, so the first with a property is the least one. -/
theorem find?_names_eq_some_iff {t : Table α} {p : String → Bool} {name : String} :
    t.names.find? p = some name ↔
      name ∈ t.names ∧ p name = true ∧ ∀ other ∈ t.names, p other = true → name ≤ other := by
  have hsorted : t.names.Pairwise (· < ·) := List.pairwise_map.2 t.ordered
  have hleast {first : String} (h : t.names.find? p = some first) :
      ∀ other ∈ t.names, p other = true → first ≤ other := by
    obtain ⟨-, before, after, hnames, hbefore⟩ := List.find?_eq_some_iff_append.1 h
    rw [hnames] at hsorted ⊢
    intro other hmem hp
    rcases List.mem_append.1 hmem with hmem | hmem
    · have hnot := hbefore other hmem
      simp [hp] at hnot
    · obtain rfl | hmem := List.mem_cons.1 hmem
      · exact String.le_refl other
      · have hlt := (List.pairwise_cons.1 (List.pairwise_append.1 hsorted).2.1).1 other hmem
        exact String.not_lt.1 (String.lt_asymm hlt)
  constructor
  · exact fun h => ⟨List.mem_of_find?_eq_some h, List.find?_some h, hleast h⟩
  · rintro ⟨hmem, hp, hle⟩
    cases hfind : t.names.find? p with
    | none => exact absurd hp (List.find?_eq_none.1 hfind name hmem)
    | some first =>
      have hfirst := hle first (List.mem_of_find?_eq_some hfind) (List.find?_some hfind)
      rw [String.le_antisymm (hleast hfind name hmem hp) hfirst]

/-! ### Other values for the same names -/

/-- Changes every value. -/
def map (f : α → β) (t : Table α) : Table β :=
  ⟨t.entries.map fun e => (e.1, f e.2), by
    have := t.ordered
    simpa only [Entries.Ordered, List.pairwise_map] using this⟩

@[simp] theorem get?_map (f : α → β) (t : Table α) (name : String) :
    (t.map f).get? name = (t.get? name).map f := by
  obtain ⟨es, hes⟩ := t
  simp only [map, get?]
  clear hes
  induction es with
  | nil => rfl
  | cons e es ih =>
    obtain ⟨n, v⟩ := e
    rw [List.map_cons, Entries.get?_cons, Entries.get?_cons, ih]
    split <;> rfl

@[simp] theorem has_map (f : α → β) (t : Table α) (name : String) :
    (t.map f).has name = t.has name := by
  simp [has]

@[simp] theorem map_empty (f : α → β) : (empty : Table α).map f = empty := rfl

theorem map_insert (f : α → β) (t : Table α) (name : String) (value : α) :
    (t.insert name value).map f = (t.map f).insert name (f value) := by
  refine ext_get? fun other => ?_
  simp only [get?_map, get?_insert]
  split <;> rfl

theorem map_erase (f : α → β) (t : Table α) (name : String) :
    (t.erase name).map f = (t.map f).erase name := by
  refine ext_get? fun other => ?_
  simp only [get?_map, get?_erase]
  split <;> rfl

end Table

namespace NameSet

@[simp] theorem contains_empty (name : String) : contains Table.empty name = false := rfl

theorem contains_add (s : NameSet) (name other : String) :
    (s.add name).contains other = (decide (name = other) || s.contains other) :=
  Table.has_insert s name other ()

theorem contains_erase (s : NameSet) (name other : String) :
    NameSet.contains (s.erase name) other = (!decide (name = other) && s.contains other) :=
  Table.has_erase s name other

end NameSet

end ClusterHerald
