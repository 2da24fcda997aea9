import ClusterHerald.Table
import ClusterHerald.Json.Binary64

/-!
# JSON values

Documents of the cluster and of the notifications.  The members of an object are entries in
increasing order of names (`Json.Ordered`); an object that is built by `Json.object` is ordered.

A number is an integer or a binary floating-point number, and an integer never equals a
floating-point number (`Number.same`).  `Json.same` compares whole documents.
-/

namespace ClusterHerald

/-- A number of a document. -/
inductive Number where
  | integer (value : Int)
  | real (value : Binary64)
deriving DecidableEq, Repr, Inhabited

/-- Equality of numbers; the two zeros are equal, an integer and a real are not. -/
def Number.same : Number → Number → Bool
  | .integer a, .integer b => a = b
  | .real a, .real b => a.same b
  | _, _ => false

/-- A JSON value. -/
inductive Json where
  | null
  | bool (value : Bool)
  | number (value : Number)
  | string (value : String)
  | array (items : List Json)
  | object (members : List (String × Json))
deriving Repr, Inhabited

namespace Json

/-- The integer `n`. -/
def int (n : Int) : Json := .number (.integer n)

/-- The object of a list of members; of two with one name the later counts. -/
def ofMembers (members : List (String × Json)) : Json :=
  .object (Entries.ofList members)

/-- A text, or null. -/
def ofOption : Option String → Json
  | some s => .string s
  | none => .null

/-- The member `name` of an object. -/
def get? : Json → String → Option Json
  | .object members, name => Entries.get? members name
  | _, _ => none

/-- The text of a string. -/
def string? : Json → Option String
  | .string s => some s
  | _ => none

/-- The value of an integer. -/
def int? : Json → Option Int
  | .number (.integer n) => some n
  | _ => none

/-- The value of a truth value. -/
def bool? : Json → Option Bool
  | .bool b => some b
  | _ => none

/-- The items of an array. -/
def items? : Json → Option (List Json)
  | .array items => some items
  | _ => none

/-- The members of an object. -/
def members? : Json → Option (Entries Json)
  | .object members => some members
  | _ => none

/-! ### Equality of documents -/

mutual

/-- Whether two values are equal, numbers by `Number.same`. -/
def same : Json → Json → Bool
  | .null, .null => true
  | .bool a, .bool b => a = b
  | .number a, .number b => a.same b
  | .string a, .string b => a = b
  | .array a, .array b => sameItems a b
  | .object a, .object b => sameMembers a b
  | _, _ => false

/-- Whether two lists of values are equal item by item. -/
def sameItems : List Json → List Json → Bool
  | [], [] => true
  | a :: as, b :: bs => same a b && sameItems as bs
  | _, _ => false

/-- Whether two lists of members are equal member by member. -/
def sameMembers : List (String × Json) → List (String × Json) → Bool
  | [], [] => true
  | (m, a) :: as, (n, b) :: bs => m = n && same a b && sameMembers as bs
  | _, _ => false

end

/-! ### Order of members -/

mutual

/-- Whether the members of every object within the value increase strictly by name. -/
def Ordered : Json → Prop
  | .array items => OrderedItems items
  | .object members => Entries.Ordered members ∧ OrderedMembers members
  | _ => True

/-- Whether every value of a list is ordered. -/
def OrderedItems : List Json → Prop
  | [] => True
  | v :: vs => Ordered v ∧ OrderedItems vs

/-- Whether the value of every member is ordered. -/
def OrderedMembers : List (String × Json) → Prop
  | [] => True
  | (_, v) :: ms => Ordered v ∧ OrderedMembers ms

end

theorem orderedMembers_iff {ms : List (String × Json)} :
    OrderedMembers ms ↔ ∀ m ∈ ms, Ordered m.2 := by
  induction ms with
  | nil => simp [OrderedMembers]
  | cons m ms ih => obtain ⟨n, v⟩ := m; simp [OrderedMembers, ih]

theorem orderedItems_iff {vs : List Json} : OrderedItems vs ↔ ∀ v ∈ vs, Ordered v := by
  induction vs with
  | nil => simp [OrderedItems]
  | cons v vs ih => simp [OrderedItems, ih]

end Json

end ClusterHerald
