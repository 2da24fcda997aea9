import ClusterHerald.Change
import ClusterHerald.Table

/-!
# Counters

How many changes of each kind and type were observed.  Counters only grow, and a change counts as
soon as it is observed, whatever becomes of it later.

`Counters.render` is the text in which they are collected: after a heading one line for each kind
and type that was observed, by type and then by kind.
-/

namespace ClusterHerald

/-- The observed changes by kind, for each type. -/
structure Counters where
  created : Table Nat
  updated : Table Nat
  deleted : Table Nat

namespace Counters

/-- Nothing was observed. -/
def zero : Counters := ⟨.empty, .empty, .empty⟩

instance : Inhabited Counters := ⟨zero⟩

/-- The counters of one type by kind. -/
def ofType (c : Counters) : ChangeType → Table Nat
  | .create => c.created
  | .update => c.updated
  | .delete => c.deleted

/-- How many changes of a kind and type were observed. -/
def count (c : Counters) (kind : String) (type : ChangeType) : Nat :=
  ((c.ofType type).get? kind).getD 0

/-- Counts one change. -/
def observe (c : Counters) (kind : String) (type : ChangeType) : Counters :=
  let table := (c.ofType type).insert kind (c.count kind type + 1)
  match type with
  | .create => { c with created := table }
  | .update => { c with updated := table }
  | .delete => { c with deleted := table }

/-- Counts changes. -/
def observeAll (c : Counters) (changes : List Change) : Counters :=
  changes.foldl (fun c change => c.observe change.kind change.type) c

theorem count_observe (c : Counters) (kind other : String) (type type' : ChangeType) :
    (c.observe kind type).count other type' =
      c.count other type' + if kind = other ∧ type = type' then 1 else 0 := by
  cases type <;> cases type' <;> by_cases h : kind = other <;>
    simp [observe, count, ofType, Table.get?_insert, h]

/-! ### Text -/

/-- A label value with backslashes, quotes and line ends escaped. -/
def escapeLabel (value : String) : String :=
  String.join <| value.toList.map fun c =>
    match c with
    | '\\' => "\\\\"
    | '"' => "\\\""
    | '\n' => "\\n"
    | c => c.toString

/-- The line of a counter. -/
def line (type : ChangeType) (kind : String) (count : Nat) : String :=
  "changewatch_events_total\x7beventType=\"" ++ type.label ++ "\",resourceType=\"" ++
    escapeLabel kind ++ "\"\x7d " ++ count.repr ++ "\n"

/-- The lines of the counters of one type. -/
def lines (c : Counters) (type : ChangeType) : List String :=
  (c.ofType type).entries.map fun (kind, count) => line type kind count

/-- The lines above the counters. -/
def heading : String :=
  "# HELP changewatch_events_total Total number of observed resource changes\n" ++
    "# TYPE changewatch_events_total counter\n"

/-- The counters as text; without any there is no text. -/
def render (c : Counters) : String :=
  match c.lines .create ++ c.lines .delete ++ c.lines .update with
  | [] => ""
  | lines => heading ++ String.join lines

end Counters

end ClusterHerald
