import ClusterHerald.Key

/-!
# The store of a kind

The store holds the objects of one kind as the watch has shown them.  An object is stored by its
reference: its namespace and its name as they are given, so that an empty namespace differs from
none.  `Objects` is a collection with one object for each reference.

A listing collects its objects on the side (`Store.listing`) and takes the place of the stored
objects when it is complete; live events change the stored objects at once.

An object without a name has no reference, so it can neither be stored nor be looked for
(`Nameless`).
-/

namespace ClusterHerald

/-- Where an object is stored. -/
structure Ref where
  namespaceName : Option String
  name : String
deriving Repr, DecidableEq

/-- An object without a name cannot be referred to. -/
structure Nameless where
deriving Repr, DecidableEq

/-- The text of a missing name. -/
def Nameless.message (_ : Nameless) : String := ".metadata.name missing"

/-- The reference of an object. -/
def Object.ref (o : Object) : Except Nameless Ref :=
  match o.metadata.name with
  | some name => .ok ⟨o.metadata.namespaceName, name⟩
  | none => .error ⟨⟩

/-! ### Objects by reference -/

/-- Objects, one for each reference. -/
structure Objects where
  entries : List (Ref × Object)
  nodup : (entries.map Prod.fst).Nodup

namespace Objects

/-- No objects. -/
def empty : Objects := ⟨[], List.nodup_nil⟩

instance : Inhabited Objects := ⟨empty⟩

/-- The object at a reference. -/
def get? (os : Objects) (r : Ref) : Option Object :=
  os.entries.lookup r

/-- Takes away the object at a reference. -/
def erase (os : Objects) (r : Ref) : Objects :=
  ⟨os.entries.filter fun e => e.1 ≠ r, by
    have := os.nodup
    exact (List.filter_sublist.map Prod.fst).nodup this⟩

/-- Puts an object at a reference. -/
def insert (os : Objects) (r : Ref) (o : Object) : Objects :=
  ⟨(r, o) :: (os.erase r).entries, by
    have h : r ∉ (os.erase r).entries.map Prod.fst := by
      simp [erase]
    exact List.nodup_cons.2 ⟨h, (os.erase r).nodup⟩⟩

/-- All objects. -/
def toList (os : Objects) : List Object :=
  os.entries.map Prod.snd

@[simp] theorem get?_empty (r : Ref) : empty.get? r = none := rfl

theorem get?_erase (os : Objects) (r s : Ref) :
    (os.erase r).get? s = if s = r then none else os.get? s := by
  rw [get?, erase, lookup_filter_key (· ≠ r)]
  simp [get?, ite_not]

theorem get?_insert (os : Objects) (r s : Ref) (o : Object) :
    (os.insert r o).get? s = if s = r then some o else os.get? s := by
  by_cases h : s = r
  · subst h
    simp [get?, insert]
  · have hb : (s == r) = false := by simp [h]
    have := get?_erase os r s
    simp only [get?, h, if_false] at this
    simp only [get?, insert, List.lookup_cons, hb, h, if_false]
    exact this

/-- The object at a reference, or at its name alone. -/
def find? (os : Objects) (r : Ref) : Option Object :=
  match os.get? r with
  | some o => some o
  | none => os.get? { r with namespaceName := none }

end Objects

/-! ### Watch events -/

/-- What a watch shows. -/
inductive WatchEvent where
  /-- A listing begins; one that was not complete is given up. -/
  | listing
  /-- An object of the listing. -/
  | listed (object : Object)
  /-- The listing is complete. -/
  | complete
  /-- An object was created or changed. -/
  | applied (object : Object)
  /-- An object was deleted. -/
  | deleted (object : Object)

/-- The object that an event is about. -/
def WatchEvent.object? : WatchEvent → Option Object
  | .listed o | .applied o | .deleted o => some o
  | .listing | .complete => none

/-! ### The store -/

/-- The objects of one kind. -/
structure Store where
  objects : Objects
  /-- The objects of the listing so far. -/
  listed : Objects
  /-- A listing was complete. -/
  ready : Bool

namespace Store

/-- The store before the first event. -/
def empty : Store := ⟨.empty, .empty, false⟩

instance : Inhabited Store := ⟨empty⟩

/-- Applies an event. -/
def apply (s : Store) : WatchEvent → Except Nameless Store
  | .listing => .ok { s with listed := .empty }
  | .listed o => do return { s with listed := s.listed.insert (← o.ref) o }
  | .complete => .ok ⟨s.listed, .empty, true⟩
  | .applied o => do return { s with objects := s.objects.insert (← o.ref) o }
  | .deleted o => do return { s with objects := s.objects.erase (← o.ref) }

/-- The stored object that an object takes the place of. -/
def predecessor? (s : Store) (o : Object) : Except Nameless (Option Object) := do
  return s.objects.find? (← o.ref)

/-- The stored object of a key. -/
def lookup (s : Store) (key : String) : Except LookupError (Option Object) := do
  let (namespaceName, name) ← Key.parse key
  return s.objects.find? ⟨namespaceName, name⟩

end Store

end ClusterHerald
