import ClusterHerald.IgnoredFields

/-!
# Sources of settings

Settings are read from places of a document.  What a place gives depends on the kind of document
and on what is asked for: a plain `true` of a YAML text is a text where a text belongs, and a truth
value where one belongs.  So `Source` has one question for every kind of setting, and a reader of
settings is written once for all kinds of documents.

The members of a record are known by name (`knownMembers`).  A member may have an older name; it
may be missing, but not be there twice.

JSON values are a source.
-/

namespace ClusterHerald

/-- What stands where a record belongs. -/
inductive RecordForm (δ : Type) where
  /-- Members by name, in the order of the document. -/
  | named (members : List (String × δ))
  /-- Members by position. -/
  | listed (items : List δ)

/-- Places `δ` of documents, which are read in `m`. -/
class Source (δ : Type) (m : outParam (Type → Type)) where
  text : δ → m String
  flag : δ → m Bool
  count : δ → m UInt64
  /-- The place itself, unless it says that nothing is set. -/
  optional : δ → m (Option δ)
  items : δ → m (List δ)
  /-- The members of a table, in the order of the document. -/
  members : δ → m (List (String × δ))
  record : δ → m (RecordForm δ)
  tree : δ → m IgnoredFields
  /-- Refuses what stands at a place. -/
  reject : {α : Type} → δ → m α

/-! ### Records -/

/-- A member of a record. -/
structure Member where
  name : String
  /-- Older names that mean the same. -/
  older : List String
deriving Repr, DecidableEq

namespace Member

/-- The member that a name means. -/
def find? (known : List Member) (name : String) : Option Member :=
  known.find? fun k => k.name = name || name ∈ k.older

end Member

section Reading

variable {δ : Type} {m : Type → Type} [Monad m] [Source δ m] {α : Type}

/-- Adds members to those that were found before.  Names that mean nothing do not count; a member
that is there twice is an error. -/
def addMembers (known : List Member) (found : Entries δ) :
    List (String × δ) → Option (Entries δ)
  | [] => some found
  | (name, place) :: rest =>
    match Member.find? known name with
    | none => addMembers known found rest
    | some k =>
      if Entries.has found k.name then none
      else addMembers known (Entries.insert k.name place found) rest

/-- The members of a record by name. -/
def RecordForm.entries? (known : List Member) : RecordForm δ → Option (Entries δ)
  | .named ms => addMembers known [] ms
  | .listed items =>
    if items.length ≤ known.length then
      addMembers known [] ((known.map Member.name).zip items)
    else none

/-- The members of a record that are there, by name. -/
def knownMembers (known : List Member) (place : δ) : m (Entries δ) := do
  match (← Source.record place).entries? known with
  | some es => pure es
  | none => Source.reject place

/-- A member of a record, or what is meant if it is missing. -/
def memberOr (es : Entries δ) (name : String) (read : δ → m α) (missing : α) : m α :=
  match Entries.get? es name with
  | some place => read place
  | none => pure missing

/-- A member of the record at a place, which may not be missing. -/
def memberOf (place : δ) (es : Entries δ) (name : String) (read : δ → m α) : m α :=
  match Entries.get? es name with
  | some place => read place
  | none => Source.reject place

/-- A setting that may be left open. -/
def readOptional (read : δ → m α) (place : δ) : m (Option α) := do
  match ← Source.optional place with
  | some place => return some (← read place)
  | none => return none

/-- The settings of a list. -/
def readItems (read : δ → m α) (place : δ) : m (List α) := do
  (← Source.items place).mapM read

/-- The settings of a table. -/
def readTable (read : δ → m α) (place : δ) : m (Table α) := do
  let pairs ← (← Source.members place).mapM fun (name, place) => do return (name, ← read place)
  return Table.ofList pairs

end Reading

/-! ### JSON -/

/-- The value of an integer of 64 bits without sign. -/
def Json.count? (v : Json) : Option UInt64 := do
  let n ← v.int?
  if 0 ≤ n ∧ n < UInt64.size then some (UInt64.ofNat n.toNat) else none

instance : Source Json Option where
  text := Json.string?
  flag := Json.bool?
  count := Json.count?
  optional v := match v with
    | .null => some none
    | v => some (some v)
  items := Json.items?
  members := Json.members?
  record v := match v with
    | .object ms => some (.named ms)
    | .array items => some (.listed items)
    | _ => none
  tree := IgnoredFields.ofJson?
  reject _ := none

end ClusterHerald
