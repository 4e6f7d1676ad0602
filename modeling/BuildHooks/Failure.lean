import BuildHooks.Text.Cut
import BuildHooks.Text.Integer

/-!
Failures: why something could not be done, from what was to be done down to the root cause. A failure is
told in one line to whoever sent a request, and in a report to whoever runs the program.
-/

namespace BuildHooks

/-- Why something failed: the messages from the outermost to the root cause, of which there is at least
the first. -/
structure Failure where
  message : String
  causes : List String
deriving DecidableEq, Repr

namespace Failure

def of (message : String) : Failure :=
  ⟨message, []⟩

/-- All messages, outermost first. -/
def chain (f : Failure) : List String :=
  f.message :: f.causes

/-- The failure seen from further out. -/
def within (context : String) (f : Failure) : Failure :=
  ⟨context, f.chain⟩

/-- All messages in one line. -/
def line (f : Failure) : String :=
  ": ".intercalate f.chain

/-- A message whose first line follows `lead`, with spaces before its further lines. -/
def indented (lead : String) (spaces : Nat) (message : String) : String :=
  lead ++ ("\n" ++ String.ofList (List.replicate spaces ' ')).intercalate (Text.splitText '\n' message)

/-- A cause among several, with its number to the width of five. -/
def numbered (n : Nat) (message : String) : String :=
  let digits := Text.showNat n
  let lead := String.ofList (List.replicate (5 - digits.length) ' ')
  indented s!"{lead}{digits}: " 7 message

/-- The causes as a report lists them, numbered from zero if there are several. -/
def causeLines (f : Failure) : List String :=
  match f.causes with
  | [] => []
  | [cause] => [indented "    " 4 cause]
  | causes => causes.zipIdx.map fun c => numbered c.2 c.1

/-- The failure as a report: the outermost message, and below it the causes. -/
def report (f : Failure) : String :=
  if f.causes.isEmpty then f.message
  else "\n".intercalate ([f.message, "", "Caused by:"] ++ f.causeLines)

end Failure

end BuildHooks
