import BuildHooks.Text.Integer
import BuildHooks.Text.Quoted

/-!
Log records: what the program says while it works. A record belongs to a part of the program, so that
the operator can ask for more or less of it, and carries named values beside its message.
-/

namespace BuildHooks.Log

inductive Level where
  | error
  | warn
  | info
  | debug
  | trace
deriving DecidableEq, Repr

/-- How much a level lets through; zero is kept for nothing at all. -/
def Level.rank : Level → Nat
  | .error => 1
  | .warn => 2
  | .info => 3
  | .debug => 4
  | .trace => 5

def Level.name : Level → String
  | .error => "error"
  | .warn => "warn"
  | .info => "info"
  | .debug => "debug"
  | .trace => "trace"

/-- A value of a record. In a line of text one kind of text is quoted and the other is not. -/
inductive Value where
  | quoted (text : String)
  | plain (text : String)
  | number (value : Int)
deriving DecidableEq, Repr

def Value.shown : Value → String
  | .quoted s => Text.quoted s
  | .plain s => s
  | .number n => Text.showInt n

/-- The part of the program that a record comes from, as the operator names it. -/
inductive Source where
  | arguments
  | jobs
  | pushEvent
  | pullRequestEvent
  | registry
  | dispatch
  | metrics
  | host
  | program
deriving DecidableEq, Repr

structure Record where
  level : Level
  source : Source
  message : String
  fields : List (String × Value)
deriving DecidableEq, Repr

/-- The record as a line of text, without level and time: the message, then the values. -/
def Record.line (r : Record) : String :=
  " ".intercalate (r.message :: r.fields.map fun f => f.1 ++ "=" ++ f.2.shown)

end BuildHooks.Log
