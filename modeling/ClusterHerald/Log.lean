import ClusterHerald.Change

/-!
# The log

What the pipeline reports about itself.  A record is a cause with what it is about;
`LogRecord.level`, `LogRecord.message` and `LogRecord.fields` say how it is written.
-/

namespace ClusterHerald

/-- How important a record is. -/
inductive LogLevel where
  | info
  | warn
  | error
deriving Repr, DecidableEq

/-- The word for a level. -/
def LogLevel.label : LogLevel → String
  | .info => "INFO"
  | .warn => "WARN"
  | .error => "ERROR"

/-- What is reported. -/
inductive LogRecord where
  /-- An object without a name was passed over. -/
  | skippedNameless (kind : String)
  /-- The worker waits for the first listing. -/
  | awaitingSync
  /-- The first listing did not come. -/
  | syncFailed (fault : String)
  /-- The first listing is there. -/
  | synced
  /-- The worker has ended. -/
  | workerStopped
  /-- A change could not be processed and comes back. -/
  | retrying (attempt : Nat) (type : ChangeType) (key fault : String)
  /-- A change could not be processed and is given up. -/
  | dropped (type : ChangeType) (key kind fault : String) (retries : Nat)
  /-- An update changed nothing relevant. -/
  | irrelevant (type : ChangeType) (key : String)
  /-- A sink did not take a notice. -/
  | undelivered (key kind sink fault : String)
  /-- A receiver took a notice. -/
  | posted (url : String)
  /-- A part of the pipeline of a kind has ended with an error. -/
  | halted (part fault : String)
  /-- A notice that is only written to the log. -/
  | notice (message kind namespaceName name status : String)
deriving Repr, DecidableEq

namespace LogRecord

/-- How important the record is. -/
def level : LogRecord → LogLevel
  | .skippedNameless .. | .retrying .. => .warn
  | .syncFailed .. | .dropped .. | .undelivered .. | .halted .. => .error
  | .awaitingSync | .synced | .workerStopped | .irrelevant .. | .posted _ | .notice .. => .info

/-- The text of the record. -/
def message : LogRecord → String
  | .skippedNameless _ => "Skipping object without a name"
  | .awaitingSync => "Waiting for cache sync"
  | .syncFailed fault => "Failed to sync cache: " ++ fault
  | .synced => "Cache synced, processing changes"
  | .workerStopped => "Worker stopped"
  | .retrying _ _ _ fault => "Error processing change, retrying: " ++ fault
  | .dropped _ _ _ fault retries =>
    "Dropping change after " ++ retries.repr ++ " retries: " ++ fault
  | .irrelevant .. => "Ignoring update with no relevant changes"
  | .undelivered _ _ _ fault => "Failed to deliver notification: " ++ fault
  | .posted url => "Message successfully sent to " ++ url
  | .halted part fault => "Kind " ++ part ++ " halted: " ++ fault
  | .notice message .. => message

/-- What the record is about. -/
def fields : LogRecord → List (String × String)
  | .skippedNameless kind => [("kind", kind)]
  | .awaitingSync | .syncFailed _ | .synced | .workerStopped | .posted _ | .halted .. => []
  | .retrying attempt type key _ =>
    [("attempt", attempt.repr), ("event_type", type.label), ("key", key)]
  | .dropped type key kind _ _ => [("event_type", type.label), ("key", key), ("kind", kind)]
  | .irrelevant type key => [("event_type", type.label), ("key", key)]
  | .undelivered key kind sink _ => [("key", key), ("kind", kind), ("sink", sink)]
  | .notice _ kind namespaceName name status =>
    [("kind", kind), ("name", name), ("namespace", namespaceName), ("status", status)]

end LogRecord

end ClusterHerald
