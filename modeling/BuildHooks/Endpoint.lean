import BuildHooks.Text.Integer

/-!
Where the events are served: the root of their paths, and the base URL that the page shows.
-/

namespace BuildHooks

structure Endpoint where
  /-- The first segment of the events' paths, without slashes. -/
  root : String
  /-- The base URL to show, if it is not to be made from the address that is listened on. -/
  baseUrl : Option String
deriving DecidableEq, Repr

namespace Endpoint

def default : Endpoint :=
  ⟨"team-events", none⟩

/-- A URL with a slash at its end. -/
def closed (url : String) : String :=
  if url.toList.getLast? = some '/' then url else url ++ "/"

/-- The base URL to show when `host` and `port` are listened on. -/
def shownUrl (e : Endpoint) (host : String) (port : Nat) : String :=
  match e.baseUrl with
  | some url => closed url
  | none => s!"http://{host}:{Text.showNat port}/"

end Endpoint

end BuildHooks
