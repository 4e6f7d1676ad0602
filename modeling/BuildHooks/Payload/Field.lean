import BuildHooks.Payload.Document
import BuildHooks.Text.Blank
import BuildHooks.Text.Cut
import BuildHooks.Text.Integer

/-!
Fields of a payload by dotted path, such as `resource.refUpdates.0.name`. A segment selects a member of
an object or, written as a number, an item of a list. A value that is absent, or null, or of the wrong
kind is reported with the path that was asked for.
-/

namespace BuildHooks.Payload

inductive Rejection where
  | missing (path : String)
  | invalid (path expected : String)
  | unsupported (message : String)
deriving DecidableEq, Repr

def Rejection.message : Rejection → String
  | .missing path => s!"missing required field '{path}'"
  | .invalid path expected => s!"field '{path}' must be {expected}"
  | .unsupported message => message

/-- The place in a list that a segment names. A plus sign and leading zeros are allowed. -/
def index? (segment : List Char) : Option Nat :=
  Text.naturalBelow? Text.wordEnd segment

/-- The value that one segment selects. -/
def step? (v : Json) (segment : List Char) : Option Json :=
  match v with
  | .object members => Json.Members.get? members (String.ofList segment)
  | .array items => (index? segment).bind fun i => items[i]?
  | _ => none

/-- The value that segments lead to, one after another. -/
def follow? : Json → List (List Char) → Option Json
  | v, [] => some v
  | v, segment :: segments => (step? v segment).bind fun w => follow? w segments

def field? (payload : Payload) (path : String) : Option Json :=
  follow? (.object payload) (Text.split '.' path.toList)

/-- The value at a path, if it is there and not null. -/
def present? (payload : Payload) (path : String) : Option Json :=
  match payload.field? path with
  | some .null => none
  | v => v

/-- A text that is not blank. -/
def requiredText (payload : Payload) (path : String) : Except Rejection String :=
  match payload.present? path with
  | none => .error (.missing path)
  | some (.string s) =>
    if Text.isAllBlank s then .error (.invalid path "a non-empty string") else .ok s
  | some _ => .error (.invalid path "a non-empty string")

/-- A text, if the field is there. -/
def optionalText (payload : Payload) (path : String) : Except Rejection (Option String) :=
  match payload.present? path with
  | none => .ok none
  | some (.string s) => .ok (some s)
  | some _ => .error (.invalid path "a string")

/-- The number in a value by `read`. -/
def numberOf? (read : Json.Number → Option α) : Json → Option α
  | .number n => read n
  | _ => none

/-- A whole number from one to below 2^64. -/
def requiredPositive (payload : Payload) (path : String) : Except Rejection Nat :=
  match payload.present? path with
  | none => .error (.missing path)
  | some v =>
    match numberOf? (fun n => n.unsigned?.filter (0 < ·)) v with
    | some n => .ok n
    | none => .error (.invalid path "a positive integer")

/-- A whole number from -2^63 to below 2^63, if the field is there. -/
def optionalInteger (payload : Payload) (path : String) : Except Rejection (Option Int) :=
  match payload.present? path with
  | none => .ok none
  | some v =>
    match numberOf? Json.Number.signed? v with
    | some n => .ok (some n)
    | none => .error (.invalid path "an integer")

end BuildHooks.Payload
