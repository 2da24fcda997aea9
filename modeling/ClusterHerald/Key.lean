import ClusterHerald.Object
import ClusterHerald.Text.Quoted

/-!
# Keys

Changes are queued and objects are looked up by a key: the name of the object, after its namespace
and a slash when it has one.  `Object.key?` makes the key of an object, `Key.parse` takes a key
apart.  A key with an empty part or with more than one slash is malformed.
-/

namespace ClusterHerald

/-- Why a look-up gives no answer. -/
inductive LookupError where
  /-- The key does not name an object. -/
  | malformedKey (key : String)
  /-- The cache could not be asked. -/
  | unavailable (key : String)
deriving Repr, DecidableEq

/-- The text of a failed look-up. -/
def LookupError.message : LookupError → String
  | .malformedKey key => "Cache lookup failed: malformed key " ++ Text.quoted key
  | .unavailable key => "Cache lookup failed: lookup of " ++ key ++ " failed"

namespace Key

/-- The key of a name within a namespace; an empty namespace is none. -/
def ofParts (namespaceName : Option String) (name : String) : String :=
  match namespaceName with
  | some ns => if ns = "" then name else ns ++ "/" ++ name
  | none => name

/-- The part before the first slash, if there is one, and the rest. -/
def split (key : List Char) : Option (List Char) × List Char :=
  match key.dropWhile (· ≠ '/') with
  | [] => (none, key)
  | _ :: rest => (some (key.takeWhile (· ≠ '/')), rest)

/-- The namespace and the name of a key. -/
def parse (key : String) : Except LookupError (Option String × String) :=
  let (ns, name) := split key.toList
  if name = [] ∨ '/' ∈ name ∨ ns = some [] then .error (.malformedKey key)
  else .ok (ns.map String.ofList, String.ofList name)

end Key

/-- The key of an object; an object without a name has none. -/
def Object.key? (o : Object) : Option String :=
  match o.metadata.name with
  | some name => if name = "" then none else some (Key.ofParts o.metadata.namespaceName name)
  | none => none

end ClusterHerald
