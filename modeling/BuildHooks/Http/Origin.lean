import BuildHooks.Http.Message

/-!
Which origins may read the answers, and what a browser is told when it asks beforehand. A star among the
configured origins admits any; otherwise an origin is admitted if it is spelled as configured. A
configured origin that no header could hold is left out.
-/

namespace BuildHooks.Http

inductive OriginPolicy where
  | any
  | listed (origins : List String)
deriving DecidableEq, Repr

namespace OriginPolicy

def ofConfig (origins : List String) : OriginPolicy :=
  if origins.contains "*" then .any else .listed (origins.filter isHeaderValue)

/-- The header that tells a caller from `origin` that it may read the answer. -/
def allowed (policy : OriginPolicy) (origin : Option String) : Headers :=
  match policy, origin with
  | .any, _ => [⟨"access-control-allow-origin", "*"⟩]
  | .listed origins, some o =>
    if origins.contains o then [⟨"access-control-allow-origin", o⟩] else []
  | .listed _, none => []

/-- The header that names the request headers which an answer depends on. -/
def vary : Header :=
  ⟨"vary", "origin, access-control-request-method, access-control-request-headers"⟩

/-- The headers of every answer to a request with the given headers. -/
def headers (policy : OriginPolicy) (request : Headers) : Headers :=
  vary :: policy.allowed (request.first? "origin")

/-- The headers of an answer to a browser that asks what it may send. -/
def preflightHeaders (policy : OriginPolicy) (request : Headers) : Headers :=
  policy.headers request
    ++ [⟨"access-control-allow-methods", "GET,POST"⟩, ⟨"access-control-allow-headers", "*"⟩]

end OriginPolicy

end BuildHooks.Http
