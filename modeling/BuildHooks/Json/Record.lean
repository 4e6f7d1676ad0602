import BuildHooks.Json.Slot

/-!
Records: objects whose members have known names, each with a slot. The members may stand in any order
and others may stand between them. A record whose members are all read in place may also be written as
the list of its members' values.

While a record is read its values are kept in a draft, in which every member may still be absent.
-/

namespace BuildHooks.Json

/-- A member of a record whose draft is a `δ`. -/
structure Field (δ : Type) where
  name : String
  filled : δ → Bool
  read : Nat → Scan (δ → δ)
  ofJson : Json → Except Mismatch (δ → δ)

/-- The member called `name` with a slot, of which `get` and `set` are the place in the draft. -/
def Field.of (name : String) (slot : Slot α) (get : δ → Option α) (set : δ → α → δ) :
    Field δ where
  name := name
  filled draft := (get draft).isSome
  read steps cs := (slot.read steps cs).map fun r => (fun draft => set draft r.1, r.2)
  ofJson v := (slot.ofJson v).map fun a draft => set draft a

/-- A kind of record: its title in messages, its members in order, the draft to start from, how the
value of a member that it does not know is read, whether it may be written as a list, and the record
that a draft makes or the first member that it lacks. -/
structure Form (δ α : Type) where
  title : String
  fields : List (Field δ)
  blank : δ
  other : Nat → String → Scan (δ → δ)
  listed : Bool
  finish : δ → Except Mismatch α

/-- A record that passes over the members it does not know. -/
def passOther (steps : Nat) (_name : String) : Scan (δ → δ) := fun cs =>
  (passValue steps cs).map fun rest => (id, rest)

/-- What is left when a record is given up inside its object: its end is passed over if it comes
next. -/
def closeObject (cs : List Char) : List Char :=
  match dropGap cs with
  | '}' :: rest => rest
  | cs => cs

/-- Reads the value of the member called `name`. -/
def Form.readMember (form : Form δ α) (steps : Nat) (draft : δ) (name : String) :
    Scan δ := fun cs =>
  match form.fields.find? fun f => f.name == name with
  | some field =>
    if field.filled draft then
      .error (faultBefore (.mismatch (.repeated name)) (closeObject cs))
    else
      match readColon cs with
      | .error e => .error e
      | .ok rest => (field.read steps rest).map fun r => (r.1 draft, r.2)
  | none =>
    match readColon cs with
    | .error e => .error e
    | .ok rest => (form.other steps name rest).map fun r => (r.1 draft, r.2)

/-- The record of a finished draft, or a fault after the record. -/
def Form.close (form : Form δ α) (draft : δ) : Scan α := fun cs =>
  match form.finish draft with
  | .ok a => .ok (a, cs)
  | .error e => .error (faultBefore (.mismatch e) cs)

/-- Reads the members from after the quote of the next name on. -/
def Form.readMembers (form : Form δ α) : Nat → δ → Scan α
  | 0, _, cs => .error (faultAt .endInObject cs)
  | steps + 1, draft, cs =>
    match readString cs with
    | .error e => .error e
    | .ok (name, rest) =>
      match form.readMember steps draft name rest with
      | .error e => .error e
      | .ok (draft, rest) =>
        match objectOnward rest with
        | .error e => .error e
        | .ok (.finished rest) => form.close draft rest
        | .ok (.next rest) => form.readMembers steps draft rest

/-- How many values a record takes, as a phrase. -/
def Form.sizePhrase (form : Form δ α) : String :=
  s!"{form.title} with {Text.showNat form.fields.length} elements"

/-- The record of a list of `count` values that has ended. -/
def Form.closeListed (form : Form δ α) (draft : δ) (count : Nat) : Scan α := fun cs =>
  match form.finish draft with
  | .ok a => .ok (a, cs)
  | .error _ => .error (faultBefore (.mismatch (.length count form.sizePhrase)) cs)

/-- The end of a list that holds a value for each member. -/
def listEnd (cs : List Char) : Except Fault (List Char) :=
  match dropGap cs with
  | [] => .error (faultAt .endInList [])
  | ']' :: rest => .ok rest
  | ',' :: rest =>
    match dropGap rest with
    | ']' :: rest => .error (faultAt .trailingComma (']' :: rest))
    | rest => .error (faultAt .trailingCharacters rest)
  | c :: rest => .error (faultAt .trailingCharacters (c :: rest))

/-- Reads the values of a listed record for the members that are left, of which the first comes next;
`count` values were read before. -/
def Form.readListed (form : Form δ α) (steps : Nat) :
    List (Field δ) → δ → Nat → Scan α
  | [], draft, _, cs =>
    match listEnd cs with
    | .error e => .error e
    | .ok rest => form.close draft rest
  | field :: fields, draft, count, cs =>
    match field.read steps cs with
    | .error e => .error e
    | .ok (fill, rest) =>
      if fields.isEmpty then
        match listEnd rest with
        | .error e => .error e
        | .ok rest => form.close (fill draft) rest
      else
        match listOnward rest with
        | .error e => .error e
        | .ok (.finished rest) => form.closeListed (fill draft) (count + 1) rest
        | .ok (.next rest) => form.readListed steps fields (fill draft) (count + 1) rest

def Form.read (form : Form δ α) : Nat → Scan α
  | 0, cs => .error (faultAt .endInValue cs)
  | steps + 1, cs =>
    match dropGap cs with
    | [] => .error (faultAt .endInValue [])
    | '{' :: rest =>
      match objectStart rest with
      | .error e => .error e
      | .ok (.finished rest) => form.close form.blank rest
      | .ok (.next rest) => form.readMembers steps form.blank rest
    | c :: rest =>
      if c = '[' ∧ form.listed then
        match listStart rest with
        | .error e => .error e
        | .ok (.finished rest) => form.closeListed form.blank 0 rest
        | .ok (.next rest) => form.readListed steps form.fields form.blank 0 rest
      else .error (wrongKindAt form.title c rest)

/-- Fills a draft from members that were read before. Members of other names are left out. -/
def Form.fill (form : Form δ α) : δ → Members → Except Mismatch δ
  | draft, [] => .ok draft
  | draft, (name, v) :: ms =>
    match form.fields.find? fun f => f.name == name with
    | none => form.fill draft ms
    | some field =>
      if field.filled draft then .error (.repeated name)
      else
        match field.ofJson v with
        | .error e => .error e
        | .ok set => form.fill (set draft) ms

/-- The record that some members make. -/
def Form.ofMembers (form : Form δ α) (members : Members) : Except Mismatch α :=
  match form.fill form.blank members with
  | .error e => .error e
  | .ok draft => form.finish draft

end BuildHooks.Json
