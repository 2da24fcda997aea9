import ClusterHerald.Address
import ClusterHerald.Counters
import ClusterHerald.Http.Target

/-!
# The endpoint for counters and health

Two pages can be read: the counters at `/metrics` and a sign of health at `/healthz`.  The page is
found by the exact path, whatever the query after it.  A page answers to `GET` and to `HEAD`,
which has no body, and refuses any other method.

`Endpoint.respond?` answers a request, unless its method or its target is none; `Endpoint.opens`
tells whether the endpoint can be opened at an address.
-/

namespace ClusterHerald

/-- What the endpoint answers. -/
structure PageReply where
  status : Nat
  contentType : Option String
  /-- The methods that the page answers to, if it was asked by another. -/
  allow : Option String
  body : String
deriving Repr, DecidableEq

namespace Endpoint

/-- The type and the text of a page. -/
def page? (counters : Counters) : String → Option (String × String)
  | "/metrics" => some ("text/plain; version=0.0.4", counters.render)
  | "/healthz" => some ("text/plain; charset=utf-8", "ok")
  | _ => none

/-- Answers a request for a path. -/
def answer (counters : Counters) (method path : String) : PageReply :=
  match page? counters path with
  | none => ⟨404, none, none, ""⟩
  | some (contentType, text) =>
    match method with
    | "GET" => ⟨200, some contentType, none, text⟩
    | "HEAD" => ⟨200, some contentType, none, ""⟩
    | _ => ⟨405, none, some "GET,HEAD", ""⟩

/-- Answers a request, if it is one. -/
def respond? (counters : Counters) (method target : String) : Option PageReply :=
  if isMethod method then
    (Target.parse? target).map fun t => answer counters method t.path
  else none

/-- Whether the endpoint can be opened at an address. -/
def opens (address : String) : Bool :=
  match Address.parse? address with
  | some a => a.host.isOwn
  | none => false

end Endpoint

end ClusterHerald
