import BuildHooks.Dispatch.Measured
import BuildHooks.Text.Integer

/-!
Measurements as the readers of metrics get them: each metric under a line with its type, and a line for
each combination of its labels. Of the durations only their number is given.
-/

namespace BuildHooks.Metric

def dispatchedName : String := "team_events_dispatch_total"

def durationName : String := "team_events_dispatch_duration_seconds"

def name : Metric → String
  | .dispatched _ _ => dispatchedName
  | .duration _ => durationName

def labels : Metric → List (String × String)
  | .dispatched event outcome => [("event", event), ("outcome", outcome)]
  | .duration event => [("event", event)]

/-- A character inside the value of a label. -/
def labelChar (c : Char) : List Char :=
  if c = '\n' then ['\\', 'n'] else if c = '\\' ∨ c = '"' then ['\\', c] else [c]

/-- The value of a label between quotes. -/
def quotedLabel (s : String) : String :=
  "\"" ++ String.ofList (s.toList.flatMap labelChar) ++ "\""

def labelText (labels : List (String × String)) : String :=
  "\x7b" ++ ",".intercalate (labels.map fun l => l.1 ++ "=" ++ quotedLabel l.2) ++ "\x7d"

/-- The name of what is counted. -/
def countedName : Metric → String
  | .dispatched _ _ => dispatchedName
  | .duration _ => durationName ++ "_count"

/-- The line of a metric that was measured `count` times. -/
def line (m : Metric) (count : Nat) : String :=
  m.countedName ++ labelText m.labels ++ " " ++ Text.showNat count

end BuildHooks.Metric

namespace BuildHooks.Tally

/-- The lines for the metrics called `name`, which are of some type. -/
def family (t : Tally) (name type : String) : List String :=
  match t.filter fun e => e.1.name == name with
  | [] => []
  | entries => s!"# TYPE {name} {type}" :: entries.map fun e => e.1.line e.2

/-- All lines for readers of metrics. -/
def exposition (t : Tally) : List String :=
  t.family Metric.dispatchedName "counter" ++ t.family Metric.durationName "summary"

end BuildHooks.Tally
