import ClusterHerald.Http.Target
import ClusterHerald.Store

/-!
# The feed of a watch

How a watch learns of the objects of one kind.  It lists them, page by page; when the listing is
complete it follows the live events, and asks for more of them whenever they end.  A listing that
fails, or that has no resource version to go on from, is begun again, and so is one that a live
event declares out of date.  A follow-up that fails is asked for again.

`feed` gives all that a watch asks and learns while the server answers with the given replies, and
then no more.
-/

namespace ClusterHerald

/-- What a watch asks the server. -/
inductive Query where
  /-- A page of the listing. -/
  | list
  /-- The live events. -/
  | follow
deriving Repr, DecidableEq

/-- The target of a query for the objects that are found at `path`. -/
def Query.target (path : String) : Query → String
  | .list => path ++ "?"
  | .follow => path ++ "?&watch=true"

/-- What the server makes of a target: the query and the path.  A path that contains a mark of a
target is cut there, and may take the query with it. -/
def Query.ofTarget? (target : String) : Option (Query × String) :=
  (Target.parse? target).map fun t =>
    (if t.queryItems.contains "watch=true" then .follow else .list, t.path)

/-- What the server answers. -/
inductive ApiReply where
  | failure
  | document (body : Json)
  /-- Documents one after the other; then the connection ends, or stays open without a word. -/
  | stream (lines : List Json) (ends : Bool)

/-- What happens to a watch. -/
inductive FeedStep where
  | asked (query : Query)
  | learned (event : WatchEvent)
  /-- Something went wrong; the watch goes on. -/
  | fault

namespace Feed

/-! ### Documents of the server -/

/-- A text that is present and not empty. -/
def filledText? (members : Entries Json) (name : String) : Option (Option String) :=
  (Object.optional Json.string? members name).map fun text => text.filter (· ≠ "")

/-- A page of a listing. -/
structure Page where
  objects : List Object
  /-- The version from which live events are followed. -/
  version : Option String
  /-- Where the next page begins. -/
  rest : Option String

/-- Whether the parts of a listing's metadata that are of no use here have the right form. -/
def hasForm (metadata : Entries Json) : Bool :=
  (Object.optional Object.long? metadata "remainingItemCount").isSome &&
    (Object.optional Json.string? metadata "selfLink").isSome

/-- Reads a page. -/
def Page.ofJson? (v : Json) : Option Page := do
  let ms ← v.members?
  let metadata ← match Entries.get? ms "metadata" with
    | none => some []
    | some m => m.members?.filter hasForm
  let objects ← match ← Entries.get? ms "items" with
    | .null => some []
    | items => Object.list? Object.ofJson? items
  return ⟨objects, ← filledText? metadata "resourceVersion", ← filledText? metadata "continue"⟩

/-- What one live event means. -/
inductive Live where
  | change (event : WatchEvent)
  /-- A sign of life. -/
  | bookmark
  /-- The event is of no use. -/
  | fault
  /-- The listing is out of date. -/
  | outdated

/-- A change, if its object tells its version. -/
def Live.ofObject (event : WatchEvent) (o : Object) : Live :=
  if o.metadata.resourceVersion.getD "" = "" then .outdated else .change event

/-- The member `name` of a document is a text. -/
def isText (v : Json) (name : String) : Bool :=
  (v.get? name).any (· matches .string _)

/-- The member `name` of a document is a text or missing. -/
def isTextIfAny (v : Json) (name : String) : Bool :=
  (v.get? name).all (· matches .string _)

/-- Whether a document tells that the listing is out of date: a status with its message, its reason
and the code for things that are gone, by name or in this order. -/
def isGone (v : Json) : Bool :=
  match v with
  | .array [.string _, .string _, .string _, code] => code.int? = some 410
  | _ =>
    isText v "status" && isTextIfAny v "message" && isTextIfAny v "reason" &&
      (v.get? "code").bind Json.int? = some 410

/-- Whether all values of a map are texts. -/
def isTextMap (v : Json) : Bool :=
  (Object.texts? v).isSome

/-- Whether a document is the metadata of a sign of life: a version and perhaps annotations, by
name or in this order. -/
def isMark (v : Json) : Bool :=
  match v with
  | .array [.string _] => true
  | .array [.string _, annotations] => isTextMap annotations
  | _ => isText v "resourceVersion" && (v.get? "annotations").all isTextMap

/-- Whether a document is a sign of life. -/
def isBookmark (v : Json) : Bool :=
  isText v "apiVersion" && isText v "kind" && (v.get? "metadata").any isMark

/-- Reads a live event with its type. -/
def Live.ofEvent (type : String) (object : Json) : Live :=
  match type, Object.ofJson? object with
  | "ADDED", some o | "MODIFIED", some o => .ofObject (.applied o) o
  | "DELETED", some o => .ofObject (.deleted o) o
  | "BOOKMARK", _ => if isBookmark object then .bookmark else .fault
  | "ERROR", _ => if isGone object then .outdated else .fault
  | _, _ => .fault

/-- Reads a live event, by name or as a pair. -/
def Live.ofJson (v : Json) : Live :=
  match v with
  | .array [.string type, object] => .ofEvent type object
  | _ =>
    match (v.get? "type").bind Json.string?, v.get? "object" with
    | some type, some object => .ofEvent type object
    | _, _ => .fault

/-! ### Answers -/

/-- What a watch makes of the answer to a query for a page. -/
inductive Listing where
  /-- The answer does not end. -/
  | silence
  | fault
  | page (objects : List Object) (isLast : Bool)

/-- What a page means. -/
def Listing.ofPage (p : Page) : Listing :=
  match p.rest, p.version with
  | some _, _ => .page p.objects false
  | none, some _ => .page p.objects true
  | none, none => .fault

/-- A document as the answer to a query for a page. -/
def Listing.ofDocument (body : Json) : Listing :=
  match Page.ofJson? body with
  | some p => .ofPage p
  | none => .fault

/-- The answer to a query for a page.  It is read as a whole, so it has to end. -/
def Listing.ofReply : ApiReply → Listing
  | .failure => .fault
  | .document body => .ofDocument body
  | .stream _ false => .silence
  | .stream [body] true => .ofDocument body
  | .stream _ true => .fault

/-- How a run of live events ends. -/
inductive Ending where
  /-- The connection stays open. -/
  | silence
  /-- The connection ends. -/
  | ended
  /-- The listing has to begin again. -/
  | outdated

/-- What live events say, and how they end. -/
def liveSteps (ends : Bool) : List Json → List FeedStep × Ending
  | [] => ([], if ends then .ended else .silence)
  | line :: lines =>
    match Live.ofJson line with
    | .change event =>
      let (steps, ending) := liveSteps ends lines
      (.learned event :: steps, ending)
    | .bookmark => liveSteps ends lines
    | .fault =>
      let (steps, ending) := liveSteps ends lines
      (.fault :: steps, ending)
    -- what comes after is not read
    | .outdated => ([.fault], .outdated)

/-- The answer to a query for live events. -/
def liveReply : ApiReply → List FeedStep × Ending
  | .failure => ([.fault], .ended)
  | .document body => liveSteps true [body]
  | .stream lines ends => liveSteps ends lines

/-! ### The feed -/

/-- The steps of a watch that asks `query` next. -/
def steps : Query → List ApiReply → List FeedStep
  | query, [] => [.asked query]
  | .list, reply :: replies =>
    .asked .list ::
      match Listing.ofReply reply with
      | .silence => []
      | .fault => .fault :: .learned .listing :: steps .list replies
      | .page objects false => objects.map (.learned <| .listed ·) ++ steps .list replies
      | .page objects true =>
        objects.map (.learned <| .listed ·) ++ .learned .complete :: steps .follow replies
  | .follow, reply :: replies =>
    .asked .follow ::
      match liveReply reply with
      | (learned, .silence) => learned
      | (learned, .ended) => learned ++ steps .follow replies
      | (learned, .outdated) => learned ++ .learned .listing :: steps .list replies

end Feed

/-- All that a watch asks and learns. -/
def feed (replies : List ApiReply) : List FeedStep :=
  .learned .listing :: Feed.steps .list replies

end ClusterHerald
