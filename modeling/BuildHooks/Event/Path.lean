import BuildHooks.Text.Cut

/-!
Which event a path asks for: the segment after the root, whatever follows it.
-/

namespace BuildHooks.Event

/-- What the paths of events start with under a root. -/
def pathLead (root : String) : String :=
  "/" ++ root ++ "/"

/-- The characters before the first slash. -/
def firstSegment (cs : List Char) : List Char :=
  cs.takeWhile (· ≠ '/')

/-- The name after `lead` in a path; empty when nothing follows, none when the path starts otherwise. -/
def nameInPath? (lead path : String) : Option String :=
  (Text.dropLead? lead.toList path.toList).map fun rest => String.ofList (firstSegment rest)

end BuildHooks.Event
