import ClusterHerald.Store
import ClusterHerald.Sync
import ClusterHerald.Table

/-!
# A cache in memory

A cache that stands in for the store of a kind.  It keeps objects by key, counts look-ups, and can
be told to fail: always, or for a number of look-ups.
-/

namespace ClusterHerald

/-- Which look-ups fail. -/
inductive Outage where
  | always
  /-- The next ones, if any. -/
  | next (count : Nat)
deriving Repr, DecidableEq

namespace Outage

/-- Whether the next look-up fails. -/
def isOn : Outage → Bool
  | .always => true
  | .next count => 0 < count

/-- After one look-up. -/
def pass : Outage → Outage
  | .always => .always
  | .next count => .next (count - 1)

end Outage

/-- A cache in memory. -/
structure MemoryCache where
  objects : Table Object
  outage : Outage
  lookups : Nat
  /-- What waiting for the cache comes to. -/
  wait : SyncWait

namespace MemoryCache

/-- A cache without objects. -/
def start (outage : Outage) (wait : SyncWait) : MemoryCache :=
  ⟨.empty, outage, 0, wait⟩

/-- Keeps an object, if it has a key. -/
def insert? (c : MemoryCache) (o : Object) : Option MemoryCache :=
  o.key?.map fun key => { c with objects := c.objects.insert key o }

/-- The answer to the next look-up. -/
def answer (c : MemoryCache) (key : String) : Except LookupError (Option Object) :=
  if c.outage.isOn then .error (.unavailable key)
  else (Key.parse key).map fun _ => c.objects.get? key

/-- Looks a key up. -/
def lookup (c : MemoryCache) (key : String) : Except LookupError (Option Object) × MemoryCache :=
  (c.answer key, { c with outage := c.outage.pass, lookups := c.lookups + 1 })

end MemoryCache

end ClusterHerald
