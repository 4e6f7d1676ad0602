import BuildHooks.CommandLine.Settings

/-!
Reading the command line and the environment. The arguments are gone through once, from the first to the
last. The value of a setting is looked at when the next setting begins or the arguments end, so an
argument that nobody knows is reported before a bad value in front of it, and a help flag after it.
-/

namespace BuildHooks.CommandLine

abbrev Environment := String → Option String

/-- What reading a command line comes to, if not to settings. -/
inductive Stop where
  | help
  | version
  | wrong (problem : Problem)
deriving DecidableEq, Repr

/-- What an argument looks like. -/
inductive Shape where
  /-- Two dashes alone: what follows is no setting. -/
  | separator
  /-- Two dashes and a name, and a value after an equals sign if there is one. -/
  | long (name : String) (value : Option String)
  /-- A dash and letters, of which the first is given. -/
  | short (letter : Char)
  | plain

def shape (arg : String) : Shape :=
  match arg.toList with
  | ['-', '-'] => .separator
  | '-' :: '-' :: cs =>
    match Text.breakAt? ['='] cs with
    | some (name, value) => .long (String.ofList name) (some (String.ofList value))
    | none => .long (String.ofList cs) none
  | '-' :: c :: _ => .short c
  | _ => .plain

/-- Gives a setting a value. -/
def accept (setting : Setting) (draft : Draft) (value : String) : Except Stop Draft :=
  if setting.given draft && !setting.repeats then .error (.wrong .argumentConflict)
  else (setting.set draft value).mapError .wrong

/-- A setting that has begun, with its value once that was read. -/
abbrev Begun := Option (Setting × Option String)

/-- Gives the setting that has begun its value. -/
def settle (draft : Draft) : Begun → Except Stop Draft
  | none => .ok draft
  | some (_, none) => .error (.wrong .invalidValue)
  | some (setting, some value) => accept setting draft value

def settingNamed? (name : String) : Option Setting :=
  settings.find? fun s => s.name == name

/-- Stops after the setting that has begun got its value. -/
def stopAfter (draft : Draft) (begun : Begun) (stop : Stop) : Except Stop Draft := do
  let _ ← settle draft begun
  throw stop

def readArguments (draft : Draft) (begun : Begun) : List String → Except Stop Draft
  | [] => settle draft begun
  | arg :: args =>
    match shape arg with
    | .separator => if args.isEmpty then settle draft begun else .error (.wrong .unknownArgument)
    | .long name value =>
      if name = "help" ∨ name = "version" then
        if value.isSome then .error (.wrong .tooManyValues)
        else stopAfter draft begun (if name = "help" then .help else .version)
      else
        match settingNamed? name with
        | none => .error (.wrong .unknownArgument)
        | some setting => do
          let draft ← settle draft begun
          match value with
          | some v =>
            let draft ← accept setting draft v
            readArguments draft none args
          | none => readArguments draft (some (setting, none)) args
    | .short letter =>
      if letter = 'h' then stopAfter draft begun .help
      else if letter = 'V' then stopAfter draft begun .version
      else .error (.wrong .unknownArgument)
    | .plain =>
      match begun with
      | some (setting, none) => readArguments draft (some (setting, some arg)) args
      | _ => .error (.wrong .unknownArgument)

/-- Takes settings that were not given from the environment. -/
def readEnvironment (environment : Environment) (draft : Draft) : List Setting → Except Stop Draft
  | [] => .ok draft
  | setting :: rest =>
    if setting.given draft then readEnvironment environment draft rest
    else
      match environment setting.envName with
      | none => readEnvironment environment draft rest
      | some value =>
        match accept setting draft value with
        | .error e => .error e
        | .ok draft => readEnvironment environment draft rest

/-- The settings that a command line and its environment give. -/
def parse (environment : Environment) (args : List String) : Except Stop Settings := do
  let draft ← readArguments .blank none args
  let draft ← readEnvironment environment draft settings
  draft.finish.mapError .wrong

end BuildHooks.CommandLine
