import BuildHooks.Json.Numeral
import BuildHooks.Json.StringReader

/-!
Reading JSON text. Lists and objects nest at most 127 levels deep. A name that an object repeats keeps
its first place and takes the last value. The readers of nested values count down a number of steps
which `parse` sets from the length of the text: no bracket, comma or colon takes more than two.
-/

namespace BuildHooks.Json

/-- The blank characters between the tokens of a text. -/
def isGap (c : Char) : Bool :=
  c == ' ' || c == '\n' || c == '\t' || c == '\r'

/-- What is left of a text after the blanks at its front. -/
def dropGap (cs : List Char) : List Char :=
  cs.dropWhile isGap

def readWord : List Char → List Char → Except Fault (List Char)
  | [], cs => .ok cs
  | _ :: _, [] => .error (faultAt .endInValue [])
  | w :: ws, c :: cs => if w = c then readWord ws cs else .error (faultAt .expectedWord (c :: cs))

/-- Reads a value that a word stands for, after the word's first letter. -/
def readWordAs (word : List Char) (value : Json) : Scan Json := fun cs =>
  (readWord word cs).map fun rest => (value, rest)

/-- Reads a value that does not hold others and starts with `c`. -/
def readScalar (c : Char) : Scan Json := fun cs =>
  if c = '"' then (readString cs).map fun r => (.string r.1, r.2)
  else if c = '-' then (readNumeral true cs).map fun r => (.number r.1, r.2)
  else if (Text.digitValue? c).isSome then
    (readNumeral false (c :: cs)).map fun r => (.number r.1, r.2)
  else if c = 'n' then readWordAs ['u', 'l', 'l'] .null cs
  else if c = 't' then readWordAs ['r', 'u', 'e'] (.bool true) cs
  else if c = 'f' then readWordAs ['a', 'l', 's', 'e'] (.bool false) cs
  else .error (faultAt .expectedValue (c :: cs))

inductive Onward where
  | finished (rest : List Char)
  | next (rest : List Char)

/-- How a list goes on after its bracket. -/
def listStart (cs : List Char) : Except Fault Onward :=
  match dropGap cs with
  | [] => .error (faultAt .endInList [])
  | ']' :: rest => .ok (.finished rest)
  | c :: rest => .ok (.next (c :: rest))

/-- How a list goes on after an item. -/
def listOnward (cs : List Char) : Except Fault Onward :=
  match dropGap cs with
  | [] => .error (faultAt .endInList [])
  | ']' :: rest => .ok (.finished rest)
  | ',' :: rest =>
    match dropGap rest with
    | [] => .error (faultAt .endInValue [])
    | ']' :: rest => .error (faultAt .trailingComma (']' :: rest))
    | c :: rest => .ok (.next (c :: rest))
  | c :: rest => .error (faultAt .expectedListCommaOrEnd (c :: rest))

/-- How an object goes on after its brace; the next name starts after its quote. -/
def objectStart (cs : List Char) : Except Fault Onward :=
  match dropGap cs with
  | [] => .error (faultAt .endInObject [])
  | '}' :: rest => .ok (.finished rest)
  | '"' :: rest => .ok (.next rest)
  | c :: rest => .error (faultAt .nameNotString (c :: rest))

/-- How an object goes on after a member; the next name starts after its quote. -/
def objectOnward (cs : List Char) : Except Fault Onward :=
  match dropGap cs with
  | [] => .error (faultAt .endInObject [])
  | '}' :: rest => .ok (.finished rest)
  | ',' :: rest =>
    match dropGap rest with
    | [] => .error (faultAt .endInValue [])
    | '}' :: rest => .error (faultAt .trailingComma ('}' :: rest))
    | '"' :: rest => .ok (.next rest)
    | c :: rest => .error (faultAt .nameNotString (c :: rest))
  | c :: rest => .error (faultAt .expectedObjectCommaOrEnd (c :: rest))

def readColon (cs : List Char) : Except Fault (List Char) :=
  match dropGap cs with
  | [] => .error (faultAt .endInObject [])
  | ':' :: rest => .ok rest
  | c :: rest => .error (faultAt .expectedColon (c :: rest))

mutual

/-- Reads a value in which `levels` more lists and objects may nest. -/
def readValue : Nat → Nat → Scan Json
  | 0, _, cs => .error (faultAt .endInValue cs)
  | steps + 1, levels, cs =>
    match dropGap cs with
    | [] => .error (faultAt .endInValue [])
    | '[' :: rest =>
      match levels with
      | 0 => .error (faultAt .tooDeep ('[' :: rest))
      | levels + 1 =>
        match listStart rest with
        | .error e => .error e
        | .ok (.finished rest) => .ok (.array [], rest)
        | .ok (.next rest) => readItems steps levels [] rest
    | '{' :: rest =>
      match levels with
      | 0 => .error (faultAt .tooDeep ('{' :: rest))
      | levels + 1 =>
        match objectStart rest with
        | .error e => .error e
        | .ok (.finished rest) => .ok (.object [], rest)
        | .ok (.next rest) => readMembers steps levels [] rest
    | c :: rest => readScalar c rest

/-- Reads the items of a list from the next one on; `done` holds those before it, reversed. -/
def readItems : Nat → Nat → List Json → Scan Json
  | 0, _, _, cs => .error (faultAt .endInList cs)
  | steps + 1, levels, done, cs =>
    match readValue steps levels cs with
    | .error e => .error e
    | .ok (v, rest) =>
      match listOnward rest with
      | .error e => .error e
      | .ok (.finished rest) => .ok (.array (v :: done).reverse, rest)
      | .ok (.next rest) => readItems steps levels (v :: done) rest

/-- Reads the members of an object from after the quote of the next name on; `done` holds those
before it. -/
def readMembers : Nat → Nat → Members → Scan Json
  | 0, _, _, cs => .error (faultAt .endInObject cs)
  | steps + 1, levels, done, cs =>
    match readString cs with
    | .error e => .error e
    | .ok (name, rest) =>
      match readColon rest with
      | .error e => .error e
      | .ok rest =>
        match readValue steps levels rest with
        | .error e => .error e
        | .ok (v, rest) =>
          match objectOnward rest with
          | .error e => .error e
          | .ok (.finished rest) => .ok (.object (done.put name v), rest)
          | .ok (.next rest) => readMembers steps levels (done.put name v) rest

end

/-- How many levels of lists and objects a text may nest. -/
def maxLevels : Nat := 127

/-- Steps that suffice to read a text. -/
def stepsFor (cs : List Char) : Nat :=
  2 * cs.length + 2

/-- Reads a whole text, after which only blanks may stand. -/
def readWhole (read : Scan α) (cs : List Char) : Except Fault α :=
  match read cs with
  | .error e => .error e
  | .ok (v, rest) =>
    match dropGap rest with
    | [] => .ok v
    | c :: rest => .error (faultAt .trailingCharacters (c :: rest))

/-- Reads a whole text, and says what is wrong with it otherwise. -/
def parseWith (read : Nat → Scan α) (text : String) : Except Complaint α :=
  match readWhole (read (stepsFor text.toList)) text.toList with
  | .ok v => .ok v
  | .error fault => .error (fault.complaint text.toList)

/-- The document that a text writes. -/
def parse (text : String) : Except Complaint Json :=
  parseWith (fun steps => readValue steps maxLevels) text

end BuildHooks.Json
