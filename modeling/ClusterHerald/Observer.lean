import ClusterHerald.Kind.Watched
import ClusterHerald.Log
import ClusterHerald.Notice
import ClusterHerald.Store

/-!
# From watch events to changes

An observer compares the events of one kind with the store as it was before the event:

* a live event is a create without a stored predecessor, else an update;
* an object of the first listing is a create;
* an object of a later listing is a create without a predecessor, an update if its resource
  version moved, and else no change;
* an object that a later listing lacks, and one that a live event deletes, is a delete.

An object without a key gives no change.
-/

namespace ClusterHerald

/-- The kind whose reasons refine the kind of a notice. -/
def eventKindName : String := "Event"

/-- What an event shows about one object. -/
structure Finding where
  type : ChangeType
  object : Object
  previous : Option Object

/-- What is known of a kind while its events come in. -/
structure Observer where
  kind : WatchedKind
  /-- The first listing was complete. -/
  listed : Bool
  /-- The keys of the current listing, if it is not the first. -/
  relisted : NameSet

namespace Observer

/-- Before the first event of a kind. -/
def start (kind : WatchedKind) : Observer :=
  ⟨kind, false, .empty⟩

/-- The subtype of an object. -/
def subtype? (w : Observer) (o : Object) : Option String :=
  if w.kind.name = eventKindName then
    ((Entries.get? o.data "reason").bind Json.string?).bind eventSubtype?
  else none

/-- The change of an object with the given key. -/
def changeAt (w : Observer) (f : Finding) (key : String) : Change where
  key := key
  type := f.type
  kind := w.kind.name
  apiVersion := w.kind.apiVersion
  object := if f.type = .delete then none else some f.object
  previous := f.previous
  subtype := w.subtype? f.object

/-- The change that a finding stands for, unless its object has no key. -/
def change? (w : Observer) (f : Finding) : Option Change :=
  f.object.key?.map (w.changeAt f)

/-- The stored objects that the listing lacks, by key. -/
def vanished (w : Observer) (s : Store) : List Finding :=
  let gone := s.objects.toList.filter fun o =>
    match o.key? with
    | some key => !w.relisted.contains key
    | none => false
  -- the store has no order, so the keys give one
  (gone.mergeSort fun a b => a.key?.getD "" ≤ b.key?.getD "").map fun o => ⟨.delete, o, none⟩

/-- What an event shows, against the store before the event. -/
def findings (w : Observer) (s : Store) : WatchEvent → Except Nameless (List Finding)
  | .listing => .ok []
  | .listed o =>
    if !w.listed then .ok [⟨.create, o, none⟩]
    else do
      match ← s.predecessor? o with
      | none => return [⟨.create, o, none⟩]
      | some old =>
        if old.metadata.resourceVersion = o.metadata.resourceVersion then return []
        else return [⟨.update, o, some old⟩]
  | .complete => .ok (if w.listed then w.vanished s else [])
  | .applied o => do
    match ← s.predecessor? o with
    | none => return [⟨.create, o, none⟩]
    | some old => return [⟨.update, o, some old⟩]
  | .deleted o => .ok [⟨.delete, o, none⟩]

/-- The state after an event. -/
def next (w : Observer) : WatchEvent → Observer
  | .listing => { w with relisted := .empty }
  | .listed o =>
    match w.listed, o.key? with
    | true, some key => { w with relisted := w.relisted.add key }
    | _, _ => w
  | .complete => { w with listed := true, relisted := .empty }
  | .applied _ | .deleted _ => w

/-- What an event comes to. -/
structure Observed where
  changes : List Change
  log : List LogRecord
  next : Observer

/-- The changes that an event shows.  The store is the one before the event. -/
def observe (w : Observer) (s : Store) (e : WatchEvent) : Except Nameless Observed := do
  let found ← w.findings s e
  let skipped := found.filter fun f => f.object.key?.isNone
  return ⟨found.filterMap w.change?, skipped.map fun _ => .skippedNameless w.kind.name, w.next e⟩

end Observer

end ClusterHerald
