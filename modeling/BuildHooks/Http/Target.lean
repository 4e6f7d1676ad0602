/-!
Request targets: the path of a request as its first line gives it. A target is a path with an optional
query and fragment, a whole URL, the name of a host alone, or a star.
-/

namespace BuildHooks.Http

inductive TargetFault where
  | empty
  | tooLong
  | character
  | authority
  | form
  | scheme
deriving DecidableEq, Repr

def TargetFault.message : TargetFault → String
  | .empty => "empty string"
  | .tooLong => "uri too long"
  | .character => "invalid uri character"
  | .authority => "invalid authority"
  | .form => "invalid format"
  | .scheme => "scheme too long"

namespace Target

/-- The characters that may stand in a path as they are. Braces and quotes are let through because
there are callers that send them. -/
def isPathChar (c : Char) : Bool :=
  let n := c.toNat
  n == 0x21 || n == 0x22 || (0x24 ≤ n && n ≤ 0x3B) || n == 0x3D || (0x40 ≤ n && n ≤ 0x5F)
    || (0x61 ≤ n && n != 0x7F)

/-- The characters that may stand in a query. -/
def isQueryChar (c : Char) : Bool :=
  let n := c.toNat
  n == 0x21 || (0x24 ≤ n && n ≤ 0x3B) || n == 0x3D || (0x3F ≤ n && n != 0x7F)

/-- The characters that may stand in the name of a scheme. -/
def isSchemeChar (c : Char) : Bool :=
  c.isAlphanum || c == '+' || c == '-' || c == '.'

/-- The characters that may stand in an authority besides the percent sign. -/
def isAuthorityChar (c : Char) : Bool :=
  c.isAlphanum || "-._~:/?#[]@!$&'()*+,;=".toList.contains c

/-- A query may be of any length but only of its characters, up to a fragment. -/
def checkQuery (cs : List Char) : Except TargetFault Unit :=
  if (cs.takeWhile (· ≠ '#')).all isQueryChar then .ok () else .error .character

/-- The path of a path with query and fragment. An empty path is a slash. -/
def pathPart (cs : List Char) : Except TargetFault (List Char) :=
  let path := cs.takeWhile fun c => c ≠ '?' && c ≠ '#'
  if !path.all isPathChar then .error .character
  else
    match cs.dropWhile fun c => c ≠ '?' && c ≠ '#' with
    | '?' :: query => (checkQuery query).map fun _ => path
    | _ => .ok path

/-- What was seen of an authority so far. -/
structure AuthorityScan where
  colons : Nat
  opened : Bool
  closed : Bool
  percent : Bool
  /-- The last character was an at sign. -/
  atSign : Bool

/-- Goes over one more character of an authority. Colons and percent signs in the name of a user or
between brackets do not count. -/
def AuthorityScan.next (s : AuthorityScan) (c : Char) : Except TargetFault AuthorityScan :=
  let s := { s with atSign := false }
  if c = ':' then
    if 8 ≤ s.colons then .error .authority else .ok { s with colons := s.colons + 1 }
  else if c = '[' then
    if s.percent || s.opened then .error .authority else .ok { s with opened := true }
  else if c = ']' then
    if !s.opened || s.closed then .error .authority
    else .ok { s with closed := true, colons := 0, percent := false }
  else if c = '@' then .ok { s with atSign := true, colons := 0, percent := false }
  else if c = '%' then .ok { s with percent := true }
  else if isAuthorityChar c then .ok s
  else .error .character

/-- An authority that was gone over to its end is well-formed. -/
def AuthorityScan.sound (s : AuthorityScan) : Bool :=
  s.opened == s.closed && s.colons ≤ 1 && !s.atSign && !s.percent

/-- What follows the authority at the front of a text. -/
def afterAuthority (s : AuthorityScan) : List Char → Except TargetFault (List Char)
  | [] => if s.sound then .ok [] else .error .authority
  | c :: cs =>
    if c = '/' ∨ c = '?' ∨ c = '#' then
      if s.sound then .ok (c :: cs) else .error .authority
    else
      match s.next c with
      | .error e => .error e
      | .ok s => afterAuthority s cs

/-- What follows an authority that starts here. -/
def dropAuthority (cs : List Char) : Except TargetFault (List Char) :=
  afterAuthority ⟨0, false, false, false, false⟩ cs

/-- The text after a scheme and its slashes, if there is a scheme. -/
def afterScheme? (cs : List Char) : Except TargetFault (Option (List Char)) :=
  let scheme := cs.takeWhile isSchemeChar
  match cs.dropWhile isSchemeChar with
  | ':' :: '/' :: '/' :: rest =>
    if cs.length ≤ 3 then .ok none
    else if 64 < scheme.length then .error .scheme
    else .ok (some rest)
  | _ => .ok none

/-- The path of a URL after its scheme. There has to be an authority. -/
def urlPath (cs : List Char) : Except TargetFault (List Char) := do
  if cs.isEmpty then throw .empty
  let tail ← dropAuthority cs
  if tail.length = cs.length then throw .form
  let path ← pathPart tail
  return if path.isEmpty then ['/'] else path

/-- The path of the name of a host alone, which is empty. Where something follows the name the target
has the fault `otherwise`. -/
def hostPath (otherwise : TargetFault) (cs : List Char) : Except TargetFault (List Char) := do
  let tail ← dropAuthority cs
  if tail.isEmpty then return [] else throw otherwise

/-- The path of a whole URL or of the name of a host. -/
def fullPath (cs : List Char) : Except TargetFault (List Char) := do
  match ← afterScheme? cs with
  | none => hostPath .form cs
  | some rest => urlPath rest

/-- How long a target may be, in bytes. -/
def maxLength : Nat := 65534

/-- The path of a target of any form. -/
def anyPath : List Char → Except TargetFault (List Char)
  | [] => .error .empty
  | ['*'] => .ok ['*']
  | '/' :: cs => pathPart ('/' :: cs)
  | [c] => hostPath .character [c]
  | cs => fullPath cs

def path (target : String) : Except TargetFault String :=
  if maxLength < target.utf8ByteSize then .error .tooLong
  else (anyPath target.toList).map String.ofList

end Target

end BuildHooks.Http
