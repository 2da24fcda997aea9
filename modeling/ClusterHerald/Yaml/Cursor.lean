import ClusterHerald.Config.Source
import ClusterHerald.Yaml.Node

/-!
# YAML documents as a source of settings

A cursor is a place in a YAML document.  A scalar has no type of its own: what is asked for decides
what it gives.

Following aliases may lead in circles, or to very much from very little.  So a cursor knows how
many collections it may still enter, and `Reading` counts how many aliases may still be followed.
-/

namespace ClusterHerald.Yaml

open Text (hexValue?)

/-- A place in a document. -/
structure Cursor where
  /-- The nodes that aliases stand for. -/
  targets : List (Nat × Node)
  /-- The node; none if nothing is written. -/
  node : Option Node
  /-- How many collections may be entered. -/
  depth : Nat

/-- Reading of settings; the state is how many aliases may be followed. -/
abbrev Reading := StateT Nat Option

/-- How deep collections may lie within each other. -/
def maxDepth : Nat := 128

/-- How many aliases may be followed for every mark of a document. -/
def aliasesPerMark : Nat := 100

/-! ### Scalars -/

/-- The tag of a standard type. -/
def standardTag (name : String) : Octets :=
  octetsOf ("tag:yaml.org,2002:" ++ name).toList

/-- Whether a text says that there is no value. -/
def isNullText (text : String) : Bool :=
  text ∈ ["null", "Null", "NULL", "~"]

/-- The truth value that a text says. -/
def flagOf? (text : String) : Option Bool :=
  if text ∈ ["true", "True", "TRUE"] then some true
  else if text ∈ ["false", "False", "FALSE"] then some false
  else none

/-- The value of digits to a base. -/
def digitsOf? (base : Nat) (digits : List Char) : Option Nat :=
  if digits = [] then none
  else digits.foldlM (fun n c => do
    let d ← hexValue? c
    if d < base then some (n * base + d) else none) 0

/-- A number within 64 bits. -/
def word? (n : Nat) : Option UInt64 :=
  if n < UInt64.size then some (UInt64.ofNat n) else none

/-- The digits of a number after its sign. -/
def unsignedOf? : List Char → Option Nat
  | '0' :: 'x' :: digits => digitsOf? 16 digits
  | '0' :: 'o' :: digits => digitsOf? 8 digits
  | '0' :: 'b' :: digits => digitsOf? 2 digits
  | digits =>
    if digits.length > 1 && digits.head? = some '0' then none else digitsOf? 10 digits

/-- The number without sign that a text says: after a plus sign, if there is one, digits to the
base 16, 8, 2 or 10.  A decimal number does not begin with a zero unless it is zero. -/
def countOf? (text : String) : Option UInt64 := do
  let digits := match text.toList with
    | '+' :: digits => digits
    | digits => digits
  word? (← unsignedOf? digits)

/-- Whether a scalar may stand for a value of a type: if it is plain, or a literal block with the
tag of the type. -/
def mayStandFor (type : String) (tag : Option Octets) (style : Style) : Bool :=
  style = .plain || (style = .literal && tag = some (standardTag type))

/-! ### Cursors -/

namespace Cursor

/-- The beginning of a document. -/
def ofDocument (d : Document) : Cursor := ⟨d.targets, d.root, maxDepth⟩

/-- The node at the cursor.  Aliases are followed. -/
def follow (c : Cursor) : Reading (Option Node) :=
  match c.node with
  | some (.alias n) => do
    match ← get, c.targets.lookup n with
    | left + 1, some target =>
      set left
      return some target
    | _, _ => failure
  | node => return node

/-- The cursor at another node. -/
def moveTo (c : Cursor) (n : Node) : Cursor := { c with node := some n }

/-- The cursor within the collection it is at. -/
def enter (c : Cursor) : Reading Cursor :=
  match c.depth with
  | 0 => failure
  | depth + 1 => return { c with depth := depth }

/-- The text of a scalar. -/
def text (c : Cursor) : Reading String := do
  match ← c.follow with
  | some (.scalar _ _ _ text) => return text
  | _ => failure

/-- A value that a scalar stands for. -/
def typed {α : Type} (type : String) (read : String → Option α) (c : Cursor) : Reading α := do
  match ← c.follow with
  | some (.scalar _ tag style text) => if mayStandFor type tag style then read text else failure
  | _ => failure

/-- Whether a scalar says that nothing is set; an error if it has to say so and does not. -/
def isUnset? (tag : Option Octets) (style : Style) (text : String) : Option Bool :=
  if style ≠ .plain then some false
  else
    match tag with
    | none => some (text = "" || isNullText text)
    | some tag =>
      if tag = standardTag "null" then if isNullText text then some true else none
      else some false

/-- The node at the cursor, unless it says that nothing is set. -/
def optional (c : Cursor) : Reading (Option Cursor) := do
  match ← c.follow with
  | none => return none
  | some (.scalar i tag style text) =>
    match isUnset? tag style text with
    | some true => return none
    | some false => return some (c.moveTo (.scalar i tag style text))
    | none => failure
  | some n => return some (c.moveTo n)

/-- Whether an empty collection may be meant by a node. -/
def isNothing : Option Node → Bool
  | none => true
  | some (.scalar _ _ style text) => style = .plain && text = ""
  | some _ => false

/-- The items of a list. -/
def items (c : Cursor) : Reading (List Cursor) := do
  match ← c.follow with
  | some (.sequence _ ns) =>
    let inner ← c.enter
    return ns.map inner.moveTo
  | node => if isNothing node then return [] else failure

/-- The members of a table or record. -/
def members (c : Cursor) : Reading (List (String × Cursor)) := do
  match ← c.follow with
  | some (.mapping _ ms) =>
    let inner ← c.enter
    ms.mapM fun (key, value) => do return (← (inner.moveTo key).text, inner.moveTo value)
  | node => if isNothing node then return [] else failure

/-- The tree of ignored fields at a place where at most `depth` collections may be entered.  Where
none may be entered, there are no members. -/
def treeJson (targets : List (Nat × Node)) (node : Option Node) : Nat → Reading Json
  | 0 => do
    let _ ← (Cursor.mk targets node 0).members
    return .object []
  | depth + 1 => do
    let ms ← (Cursor.mk targets node (depth + 1)).members
    let ms ← ms.mapM fun (name, place) => do
      match ← place.optional with
      | none => return (name, Json.null)
      | some place => return (name, ← treeJson targets place.node depth)
    return .ofMembers ms

/-- The tree of ignored fields at the cursor. -/
def tree (c : Cursor) : Reading IgnoredFields := do
  IgnoredFields.ofJson? (← treeJson c.targets c.node c.depth)

instance : Source Cursor Reading where
  text := text
  flag := typed "bool" flagOf?
  count := typed "int" countOf?
  optional := optional
  items := items
  members := members
  record c := do return .named (← c.members)
  tree := tree
  reject _ := failure

end Cursor

/-- Reads the settings of a YAML text. -/
def readText? {α : Type} (read : Cursor → Reading α) (text : String) : Option α := do
  let d ← Document.ofText? text
  let (value, _) ← (read (Cursor.ofDocument d)).run (aliasesPerMark * d.size)
  return value

end ClusterHerald.Yaml
