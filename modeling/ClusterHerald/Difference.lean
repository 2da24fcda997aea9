import ClusterHerald.Prune

/-!
# Differences of documents

`Json.differences` lists where two documents differ, as texts of positions such as
`spec.containers[0].image`: first along the members of the old document, then the members that
only the new one has.  Objects and arrays of equal length are entered, everything else is compared
whole, and a difference of the documents themselves is written as a point.

An update is noise (`isNoise`) when some field is ignored, both snapshots are known, and they do
not differ once pruned.
-/

namespace ClusterHerald

namespace Json

/-- The text of a member below the text of its object. -/
def joinPath (path name : String) : String :=
  if path = "" then name else path ++ "." ++ name

/-- The text of an item below the text of its array. -/
def indexPath (path : String) (i : Nat) : String :=
  path ++ "[" ++ toString i ++ "]"

mutual

/-- Where two values that stand at `path` differ. -/
def differencesAt (path : String) : Json → Json → List String
  | .object a, .object b =>
    memberDifferences path b a ++
      ((b.filter fun m => !Entries.has a m.1).map fun m => joinPath path m.1)
  | .array a, .array b =>
    if a.length = b.length then itemDifferences path 0 a b
    else [if path = "" then "." else path]
  | a, b => if same a b then [] else [if path = "" then "." else path]

/-- Where the members of an old object differ from those of the new one. -/
def memberDifferences (path : String) (b : Entries Json) : List (String × Json) → List String
  | [] => []
  | (n, v) :: ms =>
    (match Entries.get? b n with
      | some w => differencesAt (joinPath path n) v w
      | none => [joinPath path n]) ++ memberDifferences path b ms

/-- Where two lists of items differ, from index `i` on. -/
def itemDifferences (path : String) (i : Nat) : List Json → List Json → List String
  | v :: vs, w :: ws =>
    differencesAt (indexPath path i) v w ++ itemDifferences path (i + 1) vs ws
  | _, _ => []

end

/-- Where two documents differ. -/
def differences (old new : Json) : List String :=
  differencesAt "" old new

end Json

/-- Whether an update shows nothing but ignored changes. -/
def isNoise (old new : Option Json) (ignored : IgnoredFields) : Bool :=
  match old, new with
  | some old, some new =>
    !ignored.isEmpty && (Json.differences (old.prune ignored) (new.prune ignored)).isEmpty
  | _, _ => false

end ClusterHerald
