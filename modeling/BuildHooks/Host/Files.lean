/-!
Why the bytes of a file cannot be had, as the system words it.
-/

namespace BuildHooks.Host

inductive FileProblem where
  | missing
  | directory
  | notPermitted
  | other (reason : String)
deriving DecidableEq, Repr

def FileProblem.message : FileProblem → String
  | .missing => "No such file or directory (os error 2)"
  | .directory => "Is a directory (os error 21)"
  | .notPermitted => "Permission denied (os error 13)"
  | .other reason => reason

/-- What looking for a file by its name gives. -/
abbrev Files := String → Except FileProblem (List UInt8)

end BuildHooks.Host
