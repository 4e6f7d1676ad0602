import BuildHooks.Text.Integer

/-!
Styled text, as terminals show it: an escape character begins an instruction to the terminal, which is
no part of what is read. This module marks text for emphasis, and takes the plain text out of a styled one.

An instruction may be a few characters, a control sequence with its parameters, or a whole string that
the terminal keeps for itself.
-/

namespace BuildHooks.Text.Styled

/-- The character that begins an instruction. -/
def escape : Char := '\x1b'

/-- An instruction about the looks of what follows. -/
def look (code : Nat) : String :=
  String.ofList (escape :: '[' :: (showNat code).toList ++ ['m'])

def bold (s : String) : String :=
  look 1 ++ s ++ look 0

def title (s : String) : String :=
  look 1 ++ look 4 ++ s ++ look 0

/-- Where a reader of styled text stands. -/
inductive Place where
  | text
  /-- After an escape character. -/
  | begun
  /-- In an instruction of a few characters. -/
  | short
  /-- In a control sequence. -/
  | sequence
  /-- In a string for the terminal, which a bell ends if `bell` says so. -/
  | string (bell : Bool)
deriving DecidableEq, Repr

/-- A blank that instructions do not swallow, unless they are strings. -/
def isLayout (c : Char) : Bool :=
  c == '\t' || c == '\n' || c == '\r' || c == '\x0c'

/-- Characters of plain text. -/
def isShown (c : Char) : Bool :=
  isLayout c || (0x20 ≤ c.toNat && c.toNat != 0x7F)

/-- Where an instruction is after the character `c` that follows its escape character. -/
def afterEscape (c : Char) : Place :=
  if c = '[' then .sequence
  else if c = ']' then .string true
  else if c = 'P' ∨ c = 'X' ∨ c = '^' ∨ c = '_' then .string false
  else if c.toNat < 0x20 ∨ c.toNat = 0x7F then .begun
  else if c.toNat < 0x30 then .short
  else .text

/-- Where a reader is after one more character, from which place on it is plain text again. -/
def Place.next (place : Place) (c : Char) : Place :=
  if c = escape then .begun
  else if c = '\x18' ∨ c = '\x1a' then .text
  else
    match place with
    | .text => .text
    | .begun => if isLayout c then .text else afterEscape c
    | .short => if isLayout c ∨ (0x30 ≤ c.toNat ∧ c.toNat ≠ 0x7F) then .text else .short
    | .sequence => if isLayout c ∨ (0x40 ≤ c.toNat ∧ c.toNat ≠ 0x7F) then .text else .sequence
    | .string bell =>
      if 0x80 ≤ c.toNat ∨ (bell = true ∧ c = '\x07') then .text else .string bell

/-- The character belongs to the plain text, read at this place. -/
def Place.shows (place : Place) (c : Char) : Bool :=
  match place with
  | .text => isShown c
  | .string _ => false
  | _ => isLayout c

/-- The plain text of what is left of a styled one. -/
def plainFrom : Place → List Char → List Char
  | _, [] => []
  | place, c :: cs =>
    if place.shows c then c :: plainFrom (place.next c) cs else plainFrom (place.next c) cs

def plain (s : String) : String :=
  String.ofList (plainFrom .text s.toList)

end BuildHooks.Text.Styled
