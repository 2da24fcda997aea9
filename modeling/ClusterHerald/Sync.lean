import ClusterHerald.Clock
import ClusterHerald.Store

/-!
# Waiting for the first listing

Before a worker takes its first change, its cache has to be filled.  `SyncWait` is what waiting
for a cache comes to; `SyncWait.endedBy` is how the wait ends for a worker that is told to stop.
A wait whose limit is over at the moment of the stop has failed by itself.
-/

namespace ClusterHerald

/-- Why a cache is not filled. -/
inductive SyncError where
  | timedOut (seconds : Nat)
  /-- Nobody fills the store any more. -/
  | abandoned
  /-- The worker was told to stop. -/
  | shutDown
  /-- The cache refuses. -/
  | refused
deriving Repr, DecidableEq

/-- The text of a failed wait. -/
def SyncError.message (e : SyncError) : String :=
  "Cache sync failed: " ++
    match e with
    | .timedOut seconds => "timed out after " ++ seconds.repr ++ "s"
    | .abandoned => "writer was dropped before store became ready"
    | .shutDown => "shut down before cache synced"
    | .refused => "cache never synced"

/-- What waiting for a cache comes to. -/
inductive SyncWait where
  /-- The cache is filled. -/
  | filled
  /-- The cache fails at once. -/
  | fails (e : SyncError)
  /-- The wait is given up after a number of seconds. -/
  | givesUp (seconds : Nat)
  /-- The wait has no end. -/
  | endless
deriving Repr, DecidableEq

namespace SyncWait

/-- How a wait ends that is cut off after a number of milliseconds, or before it began. -/
def endedBy (wait : SyncWait) : Option Nat → Except SyncError Unit
  | some stop =>
    match wait with
    | .filled => .ok ()
    | .fails e => .error e
    | .givesUp seconds =>
      if endOfWait 0 (seconds * 1000) ≤ stop then .error (.timedOut seconds)
      else .error .shutDown
    | .endless => .error .shutDown
  | none =>
    match wait with
    | .filled => .ok ()
    | _ => .error .shutDown

/-- What a wait comes to if nobody fills the store any more once it has begun.  A wait without
time is over before that. -/
def abandon : SyncWait → SyncWait
  | .filled => .filled
  | .fails e => .fails e
  | .givesUp 0 => .givesUp 0
  | .givesUp _ | .endless => .fails .abandoned

end SyncWait

/-- What waiting for a store comes to, within a number of seconds if it is limited.  An abandoned
store is not filled any more. -/
def Store.wait (s : Store) (abandoned : Bool) (limit : Option Nat) : SyncWait :=
  if s.ready then .filled
  else if abandoned then .fails .abandoned
  else
    match limit with
    | some seconds => .givesUp seconds
    | none => .endless

end ClusterHerald
