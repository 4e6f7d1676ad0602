import BuildHooks.Json.Printer
import BuildHooks.Log.Record

/-!
How log records are written, one to a line: as text that people read, or as documents that programs
read. Both name the level, the part of the program and the values.
-/

namespace BuildHooks.Log

inductive Format where
  | pretty
  | json
deriving DecidableEq, Repr

/-- The part of the program that a record comes from, as operators name it. -/
def Source.name : Source → String
  | .arguments => "team_events_core::args"
  | .jobs => "team_events_server::jobs"
  | .pushEvent => "team_events_server::events::git_code_pushed"
  | .pullRequestEvent => "team_events_server::events::pull_request_merge_commit_created"
  | .registry => "team_events_server::service::registry"
  | .dispatch => "team_events_server::service::dispatch"
  | .metrics => "team_events_server::service::middleware::metrics"
  | .host => "team_events_server::network::module"
  | .program => "team_events_server"

def Level.capitals (l : Level) : String :=
  l.name.map Char.toUpper

def Value.toJson : Value → Json
  | .quoted s => .string s
  | .plain s => .string s
  | .number n => Json.ofInt n

/-- The message and the values of a record, by name. -/
def Record.fieldsJson (r : Record) : Json :=
  .object (("message", .string r.message) :: r.fields.map fun f => (f.1, f.2.toJson))

def Record.toJson (r : Record) : Json :=
  .object [("level", .string r.level.capitals), ("fields", r.fieldsJson),
           ("target", .string r.source.name)]

/-- A record as text: the level to the width of the longest one, the part of the program, and what the
record says. -/
def Record.text (r : Record) : String :=
  let indent := String.ofList (List.replicate (5 - r.level.name.length) ' ')
  s!"{indent}{r.level.capitals} {r.source.name}: {r.line}"

/-- A record on a line of its own. -/
def Format.write : Format → Record → String
  | .pretty, r => r.text
  | .json, r => r.toJson.render

end BuildHooks.Log
