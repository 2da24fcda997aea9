import ClusterHerald.IgnoredFields

/-!
# Pruned documents

`Json.prune` leaves out of a document what a tree of ignored fields redacts.  A nested entry goes
into its attribute only if that is an object; other values, arrays among them, stay whole.
-/

namespace ClusterHerald

namespace Rule

mutual

/-- Applies the rule of the member `name` to the members of an object. -/
def act (name : String) (ms : Entries Json) : Rule → Entries Json
  | .redacted => Entries.erase name ms
  | .nested es =>
    match Entries.get? ms name with
    | some (.object sub) => Entries.insert name (.object (actAll sub es)) ms
    | _ => ms

/-- Applies every entry to the members of an object, one after the other. -/
def actAll (ms : Entries Json) : List (String × Rule) → Entries Json
  | [] => ms
  | (n, r) :: es => actAll (act n ms r) es

end

end Rule

/-- The document without what the tree redacts. -/
def Json.prune (v : Json) (ignored : IgnoredFields) : Json :=
  match v with
  | .object ms => .object (Rule.actAll ms ignored.entries)
  | v => v

end ClusterHerald
