/-!
# Entries and tables

A finite map from names is a list of entries in increasing order of names.  `Entries` are the
bare lists, for use inside recursive types; a `Table` carries the proof that its entries are
ordered, so two tables that answer every look-up alike are equal (`Table.ext_get?`).

Names are ordered by their characters, which is also the order of their UTF-8 bytes.

The laws of look-up (`Entries.get?_insert`, `Entries.get?_erase`) hold for any list of entries;
only uniqueness of the representation needs the order (`Entries.ext_get?`).
-/

namespace ClusterHerald

universe u v

/-- Names with their values. -/
abbrev Entries (α : Type u) := List (String × α)

namespace Entries

variable {α : Type u}

/-- The value of `name`, if there is one. -/
def get? : Entries α → String → Option α
  | [], _ => none
  | (n, v) :: rest, name => if n = name then some v else get? rest name

/-- Gives `name` the value `value`, in the place where its name belongs. -/
def insert (name : String) (value : α) : Entries α → Entries α
  | [] => [(name, value)]
  | (n, v) :: rest =>
    if name < n then (name, value) :: (n, v) :: rest
    else if n = name then (name, value) :: rest
    else (n, v) :: insert name value rest

/-- Removes `name`. -/
def erase (name : String) (es : Entries α) : Entries α :=
  es.filter fun e => e.1 ≠ name

/-- The names, in the order of the entries. -/
def names (es : Entries α) : List String :=
  es.map Prod.fst

/-- Whether `name` has a value. -/
def has (es : Entries α) (name : String) : Bool :=
  (get? es name).isSome

/-- The ordered entries of a list of pairs; of two pairs with one name the later counts. -/
def ofList (pairs : List (String × α)) : Entries α :=
  pairs.foldl (fun es p => insert p.1 p.2 es) []

/-- Names increase strictly. -/
def Ordered (es : Entries α) : Prop :=
  es.Pairwise fun a b => a.1 < b.1

/-! ### Look-up -/

@[simp] theorem get?_nil (name : String) : get? ([] : Entries α) name = none := rfl

theorem get?_cons (n name : String) (v : α) (rest : Entries α) :
    get? ((n, v) :: rest) name = if n = name then some v else get? rest name := rfl

theorem get?_insert (es : Entries α) (name other : String) (value : α) :
    get? (insert name value es) other = if name = other then some value else get? es other := by
  induction es with
  | nil => rfl
  | cons e rest ih =>
    obtain ⟨n, v⟩ := e
    simp only [insert]
    split
    · simp [get?_cons]
    · split
      · next h => subst h; simp only [get?_cons]; split <;> rfl
      · next h =>
        simp only [get?_cons, ih]
        split
        · next h' => subst h'; simp [Ne.symm h]
        · rfl

@[simp] theorem get?_insert_self (es : Entries α) (name : String) (value : α) :
    get? (insert name value es) name = some value := by
  simp [get?_insert]

theorem get?_erase (es : Entries α) (name other : String) :
    get? (erase name es) other = if name = other then none else get? es other := by
  induction es with
  | nil => simp [erase]
  | cons e rest ih =>
    obtain ⟨n, v⟩ := e
    simp only [erase, ne_eq, decide_not] at ih ⊢
    rw [List.filter_cons]
    by_cases h : n = name
    · subst h
      simp only [decide_true, Bool.not_true, Bool.false_eq_true, if_false, ih, get?_cons]
      split <;> rfl
    · simp only [h, decide_false, Bool.not_false, if_true, get?_cons, ih]
      split
      · next h' => subst h'; simp [Ne.symm h]
      · rfl

theorem get?_eq_none_of_lt {es : Entries α} {name : String} (h : ∀ e ∈ es, name < e.1) :
    get? es name = none := by
  induction es with
  | nil => rfl
  | cons e rest ih =>
    obtain ⟨n, v⟩ := e
    have hn : name < n := h (n, v) (by simp)
    rw [get?_cons, if_neg, ih fun e he => h e (by simp [he])]
    rintro rfl
    exact String.lt_irrefl _ hn

/-! ### Order -/

theorem ne_of_name_lt {a b : String} (h : a < b) : a ≠ b := by
  rintro rfl
  exact String.lt_irrefl _ h

theorem mem_insert {es : Entries α} {name : String} {value : α} {e : String × α}
    (h : e ∈ insert name value es) : e = (name, value) ∨ e ∈ es := by
  induction es with
  | nil => simpa [insert] using h
  | cons x rest ih =>
    obtain ⟨n, v⟩ := x
    simp only [insert] at h
    split at h
    · simpa using h
    · split at h
      · simp only [List.mem_cons] at h ⊢; exact h.imp_right Or.inr
      · simp only [List.mem_cons] at h ⊢
        rcases h with h | h
        · exact Or.inr (Or.inl h)
        · exact (ih h).imp_right Or.inr

theorem Ordered.insert {es : Entries α} (h : Ordered es) (name : String) (value : α) :
    Ordered (insert name value es) := by
  induction es with
  | nil => simp [Entries.insert, Ordered]
  | cons x rest ih =>
    obtain ⟨n, v⟩ := x
    have hx := List.pairwise_cons.1 h
    simp only [Entries.insert]
    split
    · next hlt =>
      refine List.pairwise_cons.2 ⟨fun e he => ?_, h⟩
      rcases List.mem_cons.1 he with rfl | he
      · exact hlt
      · exact String.lt_trans hlt (hx.1 e he)
    · next hlt =>
      split
      · next heq => subst heq; exact List.pairwise_cons.2 ⟨hx.1, hx.2⟩
      · next hne =>
        refine List.pairwise_cons.2 ⟨fun e he => ?_, ih hx.2⟩
        rcases mem_insert he with rfl | he
        · exact (Std.lt_trichotomy name n).elim (fun hl => absurd hl hlt)
            (fun ht => ht.elim (fun heq => absurd heq.symm hne) id)
        · exact hx.1 e he

theorem Ordered.erase {es : Entries α} (h : Ordered es) (name : String) :
    Ordered (erase name es) :=
  List.Pairwise.filter _ h

theorem ordered_foldl_insert (pairs : List (String × α)) {es : Entries α} (h : Ordered es) :
    Ordered (pairs.foldl (fun es p => Entries.insert p.1 p.2 es) es) := by
  induction pairs generalizing es with
  | nil => exact h
  | cons p pairs ih => exact ih (h.insert p.1 p.2)

theorem ordered_ofList (pairs : List (String × α)) : Ordered (ofList pairs) :=
  ordered_foldl_insert pairs List.Pairwise.nil

/-- Ordered entries are determined by their look-ups. -/
theorem ext_get? {es fs : Entries α} (hes : Ordered es) (hfs : Ordered fs)
    (h : ∀ name, get? es name = get? fs name) : es = fs := by
  induction es generalizing fs with
  | nil =>
    cases fs with
    | nil => rfl
    | cons y fs => have := h y.1; simp [get?] at this
  | cons x es ih =>
    obtain ⟨n, v⟩ := x
    have hx := List.pairwise_cons.1 hes
    cases fs with
    | nil => have := h n; simp [get?] at this
    | cons y fs =>
      obtain ⟨m, w⟩ := y
      have hy := List.pairwise_cons.1 hfs
      have hnm : n = m := by
        rcases Std.lt_trichotomy n m with hlt | heq | hgt
        · have h1 := h n
          rw [get?_cons, if_pos rfl, get?_cons, if_neg (ne_of_name_lt hlt).symm,
            get?_eq_none_of_lt fun e he => String.lt_trans hlt (hy.1 e he)] at h1
          cases h1
        · exact heq
        · have h1 := h m
          rw [get?_cons, if_neg (ne_of_name_lt hgt).symm, get?_cons, if_pos rfl,
            get?_eq_none_of_lt fun e he => String.lt_trans hgt (hx.1 e he)] at h1
          cases h1
      subst hnm
      have hvw : v = w := by
        have h1 := h n
        simpa [get?_cons] using h1
      subst hvw
      congr 1
      refine ih hx.2 hy.2 fun name => ?_
      by_cases hn : n = name
      · subst hn
        rw [get?_eq_none_of_lt hx.1, get?_eq_none_of_lt hy.1]
      · have h1 := h name
        simpa [get?_cons, hn] using h1

end Entries

/-- A finite map from names. -/
structure Table (α : Type u) where
  /-- The entries, by name. -/
  entries : Entries α
  ordered : Entries.Ordered entries

namespace Table

variable {α : Type u} {β : Type v}

/-- The table without entries. -/
def empty : Table α := ⟨[], List.Pairwise.nil⟩

instance : Inhabited (Table α) := ⟨empty⟩

/-- The value of `name`, if there is one. -/
def get? (t : Table α) (name : String) : Option α :=
  Entries.get? t.entries name

/-- Gives `name` the value `value`. -/
def insert (t : Table α) (name : String) (value : α) : Table α :=
  ⟨Entries.insert name value t.entries, t.ordered.insert name value⟩

/-- Removes `name`. -/
def erase (t : Table α) (name : String) : Table α :=
  ⟨Entries.erase name t.entries, t.ordered.erase name⟩

/-- Whether `name` has a value. -/
def has (t : Table α) (name : String) : Bool :=
  (t.get? name).isSome

/-- The names, in increasing order. -/
def names (t : Table α) : List String :=
  Entries.names t.entries

/-- Whether no name has a value. -/
def isEmpty (t : Table α) : Bool :=
  t.entries.isEmpty

/-- The table of a list of pairs; of two pairs with one name the later counts. -/
def ofList (pairs : List (String × α)) : Table α :=
  ⟨Entries.ofList pairs, Entries.ordered_ofList pairs⟩

@[simp] theorem get?_empty (name : String) : (empty : Table α).get? name = none := rfl

theorem get?_insert (t : Table α) (name other : String) (value : α) :
    (t.insert name value).get? other = if name = other then some value else t.get? other :=
  Entries.get?_insert t.entries name other value

@[simp] theorem get?_insert_self (t : Table α) (name : String) (value : α) :
    (t.insert name value).get? name = some value :=
  Entries.get?_insert_self t.entries name value

theorem get?_insert_ne (t : Table α) {name other : String} (h : name ≠ other) (value : α) :
    (t.insert name value).get? other = t.get? other := by
  simp [get?_insert, h]

theorem get?_erase (t : Table α) (name other : String) :
    (t.erase name).get? other = if name = other then none else t.get? other :=
  Entries.get?_erase t.entries name other

@[simp] theorem get?_erase_self (t : Table α) (name : String) :
    (t.erase name).get? name = none := by
  simp [get?_erase]

theorem get?_erase_ne (t : Table α) {name other : String} (h : name ≠ other) :
    (t.erase name).get? other = t.get? other := by
  simp [get?_erase, h]

/-- Two tables that answer every look-up alike are equal. -/
theorem ext_get? {s t : Table α} (h : ∀ name, s.get? name = t.get? name) : s = t := by
  obtain ⟨es, hes⟩ := s
  obtain ⟨fs, hfs⟩ := t
  congr 1
  exact Entries.ext_get? hes hfs h

end Table

/-- A finite set of names. -/
abbrev NameSet := Table Unit

namespace NameSet

/-- Adds `name`. -/
def add (s : NameSet) (name : String) : NameSet := s.insert name ()

/-- Whether `name` belongs to the set. -/
def contains (s : NameSet) (name : String) : Bool := s.has name

end NameSet

/-! ### Pairs that are not ordered -/

/-- Leaving out some keys of a list of pairs does not change what the others have. -/
theorem lookup_filter_key {κ : Type u} {α : Type v} [BEq κ] [LawfulBEq κ] (p : κ → Bool)
    (es : List (κ × α)) (k : κ) :
    (es.filter fun e => p e.1).lookup k = if p k then es.lookup k else none := by
  induction es with
  | nil => simp
  | cons e es ih =>
    obtain ⟨k', value⟩ := e
    rw [List.filter_cons]
    by_cases hk : k = k'
    · subst hk
      cases hp : p k <;> simp [hp, ih]
    · have hne : (k == k') = false := beq_eq_false_iff_ne.2 hk
      cases hp : p k' <;> simp [hne, ih, List.lookup_cons]

end ClusterHerald
