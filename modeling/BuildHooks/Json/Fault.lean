import BuildHooks.Text.Integer
import BuildHooks.Text.Quoted
import BuildHooks.Text.Utf8

/-!
What can be wrong with a JSON text, and where. A fault keeps the text that had not been read when it
was found; its line and column are counted from that.
-/

namespace BuildHooks.Json

/-- How a value differs from what its place asks for. -/
inductive Mismatch where
  /-- A value of the wrong kind; both are phrases. -/
  | kind (found expected : String)
  /-- A value of the right kind that the place does not admit. -/
  | value (found expected : String)
  | length (found : Nat) (expected : String)
  | missing (name : String)
  | repeated (name : String)
  | unknownChoice (found : String) (choices : List String)
deriving DecidableEq, Repr

/-- The choices of a member, as a phrase. -/
def Mismatch.choicePhrase : List String → String
  | [] => "there are no variants"
  | [a] => s!"expected `{a}`"
  | [a, b] => s!"expected `{a}` or `{b}`"
  | names => "expected one of " ++ ", ".intercalate (names.map fun n => s!"`{n}`")

def Mismatch.message : Mismatch → String
  | .kind found expected => s!"invalid type: {found}, expected {expected}"
  | .value found expected => s!"invalid value: {found}, expected {expected}"
  | .length found expected => s!"invalid length {Text.showNat found}, expected {expected}"
  | .missing name => s!"missing field `{name}`"
  | .repeated name => s!"duplicate field `{name}`"
  | .unknownChoice found choices =>
    s!"unknown variant `{found}`, {choicePhrase choices}"

/-- What is wrong with a text. -/
inductive Problem where
  | endInList
  | endInObject
  | endInString
  | endInValue
  | expectedColon
  | expectedListCommaOrEnd
  | expectedObjectCommaOrEnd
  | expectedWord
  | expectedValue
  | invalidEscape
  | invalidNumber
  | numberOutOfRange
  | controlInString
  | nameNotString
  | loneSurrogate
  | trailingComma
  | trailingCharacters
  | unexpectedEndOfEscape
  | tooDeep
  | mismatch (what : Mismatch)
deriving DecidableEq, Repr

def Problem.message : Problem → String
  | .endInList => "EOF while parsing a list"
  | .endInObject => "EOF while parsing an object"
  | .endInString => "EOF while parsing a string"
  | .endInValue => "EOF while parsing a value"
  | .expectedColon => "expected `:`"
  | .expectedListCommaOrEnd => "expected `,` or `]`"
  | .expectedObjectCommaOrEnd => "expected `,` or `\x7d`"
  | .expectedWord => "expected ident"
  | .expectedValue => "expected value"
  | .invalidEscape => "invalid escape"
  | .invalidNumber => "invalid number"
  | .numberOutOfRange => "number out of range"
  | .controlInString => "control character (\\u0000-\\u001F) found while parsing a string"
  | .nameNotString => "key must be a string"
  | .loneSurrogate => "lone leading surrogate in hex escape"
  | .trailingComma => "trailing comma"
  | .trailingCharacters => "trailing characters"
  | .unexpectedEndOfEscape => "unexpected end of hex escape"
  | .tooDeep => "recursion limit exceeded"
  | .mismatch what => what.message

/-- The three classes of problems: the text ends too early, it is JSON of another shape than asked
for, or it is no JSON. -/
inductive Category where
  | incomplete
  | shape
  | grammar
deriving DecidableEq, Repr

def Problem.category : Problem → Category
  | .endInList | .endInObject | .endInString | .endInValue => .incomplete
  | .mismatch _ => .shape
  | _ => .grammar

/-- A problem, the text that was left when it was found, and how many bytes of that text's first
character had been looked at and count as read. -/
structure Fault where
  problem : Problem
  rest : List Char
  ahead : Nat
deriving Repr

/-- A place in a text: a line, counted from one, and the bytes read of it. -/
structure Place where
  line : Nat
  column : Nat
deriving DecidableEq, Repr

/-- The place after one more character, of which `width` bytes count. -/
def Place.after (p : Place) (c : Char) (width : Nat) : Place :=
  if c = '\n' then ⟨p.line + 1, 0⟩ else ⟨p.line, p.column + width⟩

/-- The place at the end of a text. -/
def Place.endOf (cs : List Char) : Place :=
  cs.foldl (fun p c => p.after c c.utf8Size) ⟨1, 0⟩

/-- Where in `text` the fault was found. -/
def Fault.place (fault : Fault) (text : List Char) : Place :=
  let read := Place.endOf (text.take (text.length - fault.rest.length))
  match fault.ahead, fault.rest with
  | n + 1, c :: _ => read.after c (n + 1)
  | _, _ => read

/-- A fault as it is told to the author of the text. -/
structure Complaint where
  problem : Problem
  place : Place
deriving DecidableEq, Repr

def Complaint.message (c : Complaint) : String :=
  s!"{c.problem.message} at line {Text.showNat c.place.line} column {Text.showNat c.place.column}"

/-- A reader takes a value off the front of a text and leaves the rest, or finds a fault. -/
abbrev Scan (α : Type) := List Char → Except Fault (α × List Char)

/-- A fault found in what was read so far. -/
def faultBefore (problem : Problem) (rest : List Char) : Fault :=
  ⟨problem, rest, 0⟩

/-- A fault found by looking at the next byte, or at the end of the text. -/
def faultAt (problem : Problem) (rest : List Char) : Fault :=
  ⟨problem, rest, 1⟩

/-- The complaint about a text in which a fault was found. -/
def Fault.complaint (fault : Fault) (text : List Char) : Complaint :=
  ⟨fault.problem, fault.place text⟩

end BuildHooks.Json
