/-!
# Waits on the clock

The clock counts milliseconds.  A wait is thirty years at most: whatever is to happen after a
longer one happens then (`endOfWait`).
-/

namespace ClusterHerald

/-- The longest wait, thirty years of 365 days. -/
def longestWait : Nat := 30 * 365 * 24 * 60 * 60 * 1000

/-- The instant at which a wait of `ms` milliseconds ends. -/
def endOfWait (now ms : Nat) : Nat :=
  now + min ms longestWait

end ClusterHerald
