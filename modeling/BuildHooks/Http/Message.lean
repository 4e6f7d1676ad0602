import BuildHooks.Http.Target
import BuildHooks.Text.Utf8

/-!
Requests and responses. The names of headers are lower-case; their values may hold any character but
controls. A request is well-formed by construction.
-/

namespace BuildHooks.Http

structure Header where
  name : String
  value : String
deriving DecidableEq, Repr

/-- The headers of a message, in order. -/
abbrev Headers := List Header

namespace Headers

def values (headers : Headers) (name : String) : List String :=
  (headers.filter fun h => h.name == name).map Header.value

def first? (headers : Headers) (name : String) : Option String :=
  (headers.values name).head?

end Headers

/-- The characters of methods and of the names of headers. -/
def isTokenChar (c : Char) : Bool :=
  c.isAlphanum || "!#$%&'*+-.^_`|~".toList.contains c

/-- A word of one or more token characters. -/
def isToken (s : String) : Bool :=
  !s.isEmpty && s.toList.all isTokenChar

/-- A header may have this value: there are no controls in it but tabs. -/
def isHeaderValue (s : String) : Bool :=
  s.toList.all fun c => c = '\t' || (32 ≤ c.toNat && c.toNat != 127)

structure Request where
  method : String
  /-- The path as it was written, its escapes not read. -/
  path : String
  headers : Headers
  body : List UInt8
deriving DecidableEq, Repr

inductive RequestFault where
  | method
  | target (fault : TargetFault)
  | headerName
  | headerValue
deriving DecidableEq, Repr

def RequestFault.message : RequestFault → String
  | .method => "invalid HTTP method"
  | .target fault => fault.message
  | .headerName => "invalid HTTP header name"
  | .headerValue => "failed to parse header value"

/-- How long the name of a header may be. -/
def maxHeaderName : Nat := 65535

def Header.make (name value : String) : Except RequestFault Header :=
  if !isToken name || maxHeaderName < name.length then .error .headerName
  else if !isHeaderValue value then .error .headerValue
  else .ok ⟨name.map Char.toLower, value⟩

/-- The request with some parts. The method is checked first, then the target, then the headers. -/
def Request.make (method target : String) (headers : List (String × String))
    (body : List UInt8) : Except RequestFault Request := do
  if !isToken method then .error .method
  else
    let path ← (Target.path target).mapError .target
    let headers ← headers.mapM fun h => Header.make h.1 h.2
    return { method, path, headers, body }

structure Response where
  status : Nat
  headers : Headers
  body : String
deriving DecidableEq, Repr

/-- The word beside the number of a status. -/
def reason : Nat → String
  | 200 => "OK"
  | 400 => "Bad Request"
  | 404 => "Not Found"
  | 405 => "Method Not Allowed"
  | 408 => "Request Timeout"
  | 413 => "Payload Too Large"
  | 500 => "Internal Server Error"
  | 503 => "Service Unavailable"
  | _ => ""

end BuildHooks.Http
