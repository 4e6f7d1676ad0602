import BuildHooks.Text.Cut

/-!
Routes: which part of the host a path leads to. The root of the events may hold placeholders between
braces, each of which stands for a segment or its end; braces that are written twice stand for
themselves. A root that would take a path away from the health checks, or is badly written, is refused.
-/

namespace BuildHooks.Http

/-- A part of the host. -/
inductive Route where
  | health
  | live
  | ready
  /-- The page, at the root without a slash at its end. -/
  | page
  /-- The page and the events without a name, at the root with a slash. -/
  | root
  /-- An event, at the root with a slash and something after it. -/
  | event
deriving DecidableEq, Repr

def Route.methods : Route → List String
  | .health | .live | .ready | .page => ["GET", "HEAD"]
  | .root => ["GET", "HEAD", "POST"]
  | .event => ["POST"]

/-- A piece of a pattern for paths: a character, or a placeholder for what is left of a segment. -/
inductive Piece where
  | char (c : Char)
  | capture
deriving DecidableEq, Repr

namespace Pattern

/-- A character of a pattern, and whether it is a brace that was written twice. -/
abbrev Mark := Char × Bool

/-- Takes braces that are written twice together. -/
def unescape : List Char → List Mark
  | '{' :: '{' :: cs => ('{', true) :: unescape cs
  | '}' :: '}' :: cs => ('}', true) :: unescape cs
  | c :: cs => (c, false) :: unescape cs
  | [] => []

/-- What follows the name of a placeholder. Stars and slashes do not belong into a name. -/
def afterName? : List Mark → Option (List Mark)
  | [] => none
  | ('}', false) :: rest => some rest
  | (c, _) :: rest => if c = '*' ∨ c = '/' then none else afterName? rest

theorem afterName?_length {ms rest : List Mark} (h : afterName? ms = some rest) :
    rest.length < ms.length := by
  fun_induction afterName? ms with
  | case1 => simp at h
  | case2 r => simp_all
  | case3 => simp at h
  | case4 c e r _ _ ih =>
      have := ih h
      simp only [List.length_cons]
      omega

/-- A placeholder reaches to the end of its segment. -/
def endsSegment : List Mark → Bool
  | [] => true
  | (c, _) :: _ => c == '/'

/-- The pieces of a pattern. The first character of a placeholder's name may be any but a closing brace;
a name that starts with a star asks for several segments, which only the last placeholder of all may. -/
def pieces? : List Mark → Option (List Piece)
  | [] => some []
  | ('}', false) :: _ => none
  | ('{', false) :: (first, _) :: name =>
    if first = '*' ∨ first = '}' then none
    else
      match h : afterName? name with
      | none => none
      | some rest =>
        have := afterName?_length h
        if endsSegment rest then (pieces? rest).map (.capture :: ·) else none
  | ('{', false) :: [] => none
  | (c, _) :: rest => (pieces? rest).map (.char c :: ·)
termination_by ms => ms.length
decreasing_by all_goals simp only [List.length_cons]; omega

/-- What is left of a path after a pattern. A placeholder takes what is left of a segment, which may be
nothing before a slash but not at the end of the path. -/
def match? : List Piece → List Char → Option (List Char)
  | [], cs => some cs
  | _ :: _, [] => none
  | .char p :: ps, c :: cs => if p = c then match? ps cs else none
  | .capture :: ps, c :: cs => match? ps ((c :: cs).dropWhile (· ≠ '/'))

def maxCaptures : Nat := 25

/-- The pattern that a text writes, if it is well written. -/
def ofText? (cs : List Char) : Option (List Piece) := do
  let pieces ← pieces? (unescape cs)
  guard (pieces.count .capture ≤ maxCaptures)
  return pieces

end Pattern

def healthRoutes : List (String × Route) :=
  [("/health", .health), ("/health/live", .live), ("/health/ready", .ready)]

/-- A segment of a path starts like the placeholders of an older notation. -/
def hasOldPlaceholder (path : List Char) : Bool :=
  (Text.split '/' path).any fun segment => segment.head? = some ':' || segment.head? = some '*'

/-- The routes of a host: the pattern for the root of the events. -/
structure Routes where
  root : List Piece
deriving DecidableEq, Repr

namespace Routes

def ofRoot? (root : String) : Option Routes :=
  let path := '/' :: root.toList
  if hasOldPlaceholder path then none
  else if healthRoutes.any fun r => r.1.toList = path then none
  else (Pattern.ofText? path).map Routes.mk

/-- Which part of the root what is left of a path after it means. -/
def ofRest : List Char → Option Route
  | [] => some .page
  | ['/'] => some .root
  | '/' :: _ :: _ => some .event
  | _ => none

/-- The route of a path. The health checks come first. -/
def find? (routes : Routes) (path : String) : Option Route :=
  match healthRoutes.find? fun r => r.1 == path with
  | some r => some r.2
  | none => (Pattern.match? routes.root path.toList).bind ofRest

end Routes

end BuildHooks.Http
