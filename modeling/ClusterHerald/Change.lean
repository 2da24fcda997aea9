import ClusterHerald.Key

/-!
# Changes

A change says what was observed of one object: that it was created, updated or deleted, with the
snapshots on which the change will be judged.
-/

namespace ClusterHerald

/-- The transition that was observed. -/
inductive ChangeType where
  | create
  | update
  | delete
deriving Repr, DecidableEq

namespace ChangeType

/-- The word for a change in logs and counters. -/
def label : ChangeType → String
  | .create => "create"
  | .update => "update"
  | .delete => "delete"

/-- The change that a word stands for. -/
def ofLabel? : String → Option ChangeType
  | "create" => some .create
  | "update" => some .update
  | "delete" => some .delete
  | _ => none

theorem ofLabel?_label (t : ChangeType) : ofLabel? t.label = some t := by
  cases t <;> rfl

end ChangeType

/-- A change of one object, queued by key. -/
structure Change where
  key : String
  type : ChangeType
  /-- The display name of the kind. -/
  kind : String
  apiVersion : String
  /-- The snapshot that was observed; none of a deleted object. -/
  object : Option Object
  /-- The snapshot before; only an update has one. -/
  previous : Option Object
  /-- A finer kind, such as a node that is not ready. -/
  subtype : Option String
deriving Repr

end ClusterHerald
