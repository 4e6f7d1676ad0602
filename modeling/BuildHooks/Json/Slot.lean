import BuildHooks.Json.Passing
import BuildHooks.Json.Printer

/-!
Slots: the places of a record, each admitting the values of one type. A slot reads its value off a text
or takes it from a document, and says what it found where the value does not fit.
-/

namespace BuildHooks.Json

/-- A document as a phrase in a message. -/
def phrase : Json → String
  | .null => "null"
  | .bool true => "boolean `true`"
  | .bool false => "boolean `false`"
  | .number (.integer n) => s!"integer `{Text.showInt n}`"
  | .number (.real x) => s!"floating point `{x.text}`"
  | .string s => s!"string {Text.quoted s}"
  | .array _ => "sequence"
  | .object _ => "map"

/-- A document of another kind than asked for. -/
def wrongKind (v : Json) (expected : String) : Mismatch :=
  .kind v.phrase expected

/-- The fault of a value of the wrong kind that starts with `c`. A value without others in it is read
to its end first; a list or an object is not entered. -/
def wrongKindAt (expected : String) (c : Char) (cs : List Char) : Fault :=
  if c = '[' then faultBefore (.mismatch (wrongKind (.array []) expected)) (c :: cs)
  else if c = '{' then faultBefore (.mismatch (wrongKind (.object []) expected)) (c :: cs)
  else match readScalar c cs with
    | .error e => e
    | .ok (v, rest) => faultBefore (.mismatch (wrongKind v expected)) rest

/-- A place for values of one type. The number given to `read` bounds the steps of its readers. -/
structure Slot (α : Type) where
  read : Nat → Scan α
  ofJson : Json → Except Mismatch α

/-- Reads a string where `expected` is asked for. -/
def readText (expected : String) : Scan String := fun cs =>
  match dropGap cs with
  | [] => .error (faultAt .endInValue [])
  | '"' :: rest => readString rest
  | c :: rest => .error (wrongKindAt expected c rest)

def Slot.text : Slot String where
  read _ := readText "a string"
  ofJson
    | .string s => .ok s
    | v => .error (wrongKind v "a string")

/-- A string, or null for none. -/
def Slot.optionalText : Slot (Option String) where
  read _ cs :=
    match dropGap cs with
    | 'n' :: rest => (readWord ['u', 'l', 'l'] rest).map fun rest => (none, rest)
    | cs => (readText "a string" cs).map fun r => (some r.1, r.2)
  ofJson
    | .null => .ok none
    | .string s => .ok (some s)
    | v => .error (wrongKind v "a string")

/-- The whole number in a value, if `admits` lets it in. -/
def wholeOf (admits : Int → Bool) (expected : String) : Json → Except Mismatch Int
  | .number (.integer n) =>
    if admits n then .ok n else .error (.value (phrase (.number (.integer n))) expected)
  | v => .error (wrongKind v expected)

def readWhole? (admits : Int → Bool) (expected : String) : Scan Int := fun cs =>
  match dropGap cs with
  | [] => .error (faultAt .endInValue [])
  | c :: rest =>
    if c = '-' ∨ (Text.digitValue? c).isSome then
      match readScalar c rest with
      | .error e => .error e
      | .ok (v, rest) =>
        match wholeOf admits expected v with
        | .ok n => .ok (n, rest)
        | .error e => .error (faultBefore (.mismatch e) rest)
    else .error (wrongKindAt expected c rest)

/-- A whole number from zero to below 2^64. -/
def Slot.unsigned : Slot Nat :=
  let admits : Int → Bool := fun n => 0 ≤ n && n < Text.wordEnd
  { read := fun _ cs => (readWhole? admits "u64" cs).map fun r => (r.1.toNat, r.2)
    ofJson := fun v => (wholeOf admits "u64" v).map Int.toNat }

/-- A whole number from -2^63 to below 2^63. -/
def Slot.signed : Slot Int :=
  let admits : Int → Bool := fun n => -(Text.signedEnd : Int) ≤ n && n < Text.signedEnd
  { read := fun _ => readWhole? admits "i64"
    ofJson := wholeOf admits "i64" }

/-- Reads the items of a list with `read`; `done` holds the values before, reversed. -/
def readEach (read : Nat → Scan α) : Nat → List α → Scan (List α)
  | 0, _, cs => .error (faultAt .endInList cs)
  | steps + 1, done, cs =>
    match read steps cs with
    | .error e => .error e
    | .ok (v, rest) =>
      match listOnward rest with
      | .error e => .error e
      | .ok (.finished rest) => .ok ((v :: done).reverse, rest)
      | .ok (.next rest) => readEach read steps (v :: done) rest

def readList (read : Nat → Scan α) (steps : Nat) : Scan (List α) := fun cs =>
  match dropGap cs with
  | [] => .error (faultAt .endInValue [])
  | '[' :: rest =>
    match listStart rest with
    | .error e => .error e
    | .ok (.finished rest) => .ok ([], rest)
    | .ok (.next rest) => readEach read steps [] rest
  | c :: rest => .error (wrongKindAt "a sequence" c rest)

/-- A list of values of another slot. -/
def Slot.list (item : Slot α) : Slot (List α) where
  read := readList item.read
  ofJson
    | .array items => items.mapM item.ofJson
    | v => .error (wrongKind v "a sequence")

/-- The choice with a given name. -/
def choose (choices : List (String × α)) (name : String) : Except Mismatch α :=
  match choices.find? fun c => c.1 == name with
  | some c => .ok c.2
  | none => .error (.unknownChoice name (choices.map Prod.fst))

/-- Reads the name of a choice after its opening quote. -/
def readChoiceName (choices : List (String × α)) : Scan α := fun cs =>
  match readString cs with
  | .error e => .error e
  | .ok (name, rest) =>
    match choose choices name with
    | .ok a => .ok (a, rest)
    | .error e => .error (faultBefore (.mismatch e) rest)

/-- Reads a null where nothing but the name of a choice matters. -/
def readNull (cs : List Char) : Except Fault (List Char) :=
  match dropGap cs with
  | [] => .error (faultAt .endInValue [])
  | 'n' :: rest => readWord ['u', 'l', 'l'] rest
  | c :: rest => .error (wrongKindAt "unit" c rest)

/-- Reads the rest of an object from after its name on, which stands for `a`: the value null and the
end of the object. -/
def readChoiceEnd (a : α) : Scan α := fun cs =>
  match readColon cs with
  | .error e => .error e
  | .ok rest =>
    match readNull rest with
    | .error e => .error e
    | .ok rest =>
      match dropGap rest with
      | [] => .error (faultBefore .endInObject [])
      | '}' :: rest => .ok (a, rest)
      | c :: rest => .error (faultBefore .expectedValue (c :: rest))

/-- Reads the rest of an object whose only member has the choice's name and the value null. -/
def readChoiceObject (choices : List (String × α)) : Scan α := fun cs =>
  match dropGap cs with
  | [] => .error (faultAt .endInObject [])
  | '}' :: rest => .error (faultAt .expectedValue ('}' :: rest))
  | '"' :: rest =>
    match readChoiceName choices rest with
    | .error e => .error e
    | .ok (a, rest) => readChoiceEnd a rest
  | c :: rest => .error (faultAt .nameNotString (c :: rest))

/-- One of some named values: its name as a string, or as the only name of an object. -/
def Slot.choice (choices : List (String × α)) : Slot α where
  read _ cs :=
    match dropGap cs with
    | [] => .error (faultAt .endInValue [])
    | '"' :: rest => readChoiceName choices rest
    | '{' :: rest => readChoiceObject choices rest
    | c :: rest => .error (faultAt .expectedValue (c :: rest))
  ofJson
    | .string s => choose choices s
    | .object [(name, .null)] => choose choices name
    | v => .error (wrongKind v "string or map")

end BuildHooks.Json
