import BuildHooks.CommandLine.Parse
import BuildHooks.Text.Styled

/-!
What the program tells about itself and its settings. The text is styled for a terminal; the values that
variables have in the environment stand in it as they are.
-/

namespace BuildHooks.CommandLine

def programName : String := "team-events-server"

def versionText : String := programName ++ " 0.1.0\n"

def Setting.valueName (s : Setting) : String :=
  s.name.map fun c => if c = '-' then '_' else c.toUpper

/-- What is told about a setting behind the description: its variable with the value that is in force,
its default and its choices. -/
def Setting.notes (s : Setting) (environment : Environment) : List String :=
  ["[env: " ++ s.envName ++ "=" ++ (environment s.envName).getD "" ++ "]"]
    ++ (s.fallback.map fun d => s!"[default: {d}]").toList
    ++ if s.choices.isEmpty then [] else ["[possible values: " ++ ", ".intercalate s.choices ++ "]"]

/-- A text on lines of its own, each of which is indented. -/
def indented (s : String) : String :=
  String.join ((Text.splitText '\n' s).map fun line => "\n          " ++ line) ++ "\n"

def Setting.help (s : Setting) (environment : Environment) : String :=
  "      " ++ Text.Styled.bold ("--" ++ s.name) ++ s!" <{s.valueName}>"
    ++ indented (" ".intercalate (s.about.toList ++ s.notes environment))

def flagHelp (letter name about : String) : String :=
  "  " ++ Text.Styled.bold letter ++ ", " ++ Text.Styled.bold name ++ indented about

/-- What is told about the program, in style. -/
def styledHelp (environment : Environment) : String :=
  "Receives TFS / Team Services events and schedules builds\n\n"
    ++ Text.Styled.title "Usage:" ++ " " ++ Text.Styled.bold programName ++ " [OPTIONS]\n\n"
    ++ Text.Styled.title "Options:" ++ "\n"
    ++ String.join (settings.map fun s => s.help environment)
    ++ flagHelp "-h" "--help" "Print help" ++ flagHelp "-V" "--version" "Print version"

def helpText (environment : Environment) : String :=
  Text.Styled.plain (styledHelp environment)

end BuildHooks.CommandLine
