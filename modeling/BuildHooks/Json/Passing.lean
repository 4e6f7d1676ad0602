import BuildHooks.Json.Reader

/-!
Passing over a value that nobody asked for. It may nest as deeply as it likes and its numbers may be
of any size; only its grammar is checked.
-/

namespace BuildHooks.Json

/-- A list or an object that has begun and not ended. -/
inductive Bracket where
  | list
  | object
deriving DecidableEq

/-- Passes over the next name of an object and its colon. -/
def passName (cs : List Char) : Except Fault (List Char) :=
  match dropGap cs with
  | [] => .error (faultAt .endInObject [])
  | '"' :: rest =>
    match passString rest with
    | .error e => .error e
    | .ok rest => readColon rest
  | c :: rest => .error (faultAt .nameNotString (c :: rest))

/-- Passes over what stands before the next value in a bracket. -/
def passLead (bracket : Bracket) (cs : List Char) : Except Fault (List Char) :=
  match bracket with
  | .list => .ok cs
  | .object => passName cs

/-- Passes over a value that does not hold others and starts with `c`. -/
def passScalar (c : Char) (cs : List Char) : Except Fault (List Char) :=
  if c = '"' then passString cs
  else if c = '-' then passNumeral cs
  else if (Text.digitValue? c).isSome then passNumeral (c :: cs)
  else if c = 'n' then readWord ['u', 'l', 'l'] cs
  else if c = 't' then readWord ['r', 'u', 'e'] cs
  else if c = 'f' then readWord ['a', 'l', 's', 'e'] cs
  else .error (faultAt .expectedValue (c :: cs))

/-- Where the passing stands: before a value, in a bracket that has just begun, or after a value. -/
inductive Stage where
  | value
  | begun (bracket : Bracket)
  | after

/-- Passes over the rest of a value; `outer` holds the brackets around the place, innermost first. -/
def passFrom : Nat → Stage → List Bracket → List Char → Except Fault (List Char)
  | 0, _, _, cs => .error (faultAt .endInValue cs)
  | steps + 1, .value, outer, cs =>
    match dropGap cs with
    | [] => .error (faultAt .endInValue [])
    | '[' :: rest => passFrom steps (.begun .list) outer rest
    | '{' :: rest => passFrom steps (.begun .object) outer rest
    | c :: rest =>
      match passScalar c rest with
      | .error e => .error e
      | .ok rest => passFrom steps .after outer rest
  | steps + 1, .begun bracket, outer, cs =>
    match bracket, dropGap cs with
    | .list, [] => .error (faultAt .endInList [])
    | .object, [] => .error (faultAt .endInObject [])
    | .list, ']' :: rest => passFrom steps .after outer rest
    | .object, '}' :: rest => passFrom steps .after outer rest
    | _, c :: rest =>
      match passLead bracket (c :: rest) with
      | .error e => .error e
      | .ok rest => passFrom steps .value (bracket :: outer) rest
  | _ + 1, .after, [], cs => .ok cs
  | steps + 1, .after, bracket :: outer, cs =>
    match bracket, dropGap cs with
    | .list, [] => .error (faultAt .endInList [])
    | .object, [] => .error (faultAt .endInObject [])
    | .list, ']' :: rest => passFrom steps .after outer rest
    | .object, '}' :: rest => passFrom steps .after outer rest
    | _, ',' :: rest =>
      match passLead bracket rest with
      | .error e => .error e
      | .ok rest => passFrom steps .value (bracket :: outer) rest
    | .list, c :: rest => .error (faultAt .expectedListCommaOrEnd (c :: rest))
    | .object, c :: rest => .error (faultAt .expectedObjectCommaOrEnd (c :: rest))

/-- Passes over one value. -/
def passValue (steps : Nat) (cs : List Char) : Except Fault (List Char) :=
  passFrom steps .value [] cs

end BuildHooks.Json
