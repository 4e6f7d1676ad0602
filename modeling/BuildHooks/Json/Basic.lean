import BuildHooks.Decimal.Binary64
import BuildHooks.Text.Integer

/-!
JSON documents. The members of an object are a list in document order, and a name occurs in it once.
Whole numbers of 64 bits, signed or unsigned, keep their exact value; every other number is binary
floating point.
-/

namespace BuildHooks

inductive Json.Number where
  | integer (value : Int)
  | real (value : Binary64)
deriving DecidableEq, Repr

inductive Json where
  | null
  | bool (value : Bool)
  | number (value : Json.Number)
  | string (value : String)
  | array (items : List Json)
  | object (members : List (String × Json))
deriving Inhabited

namespace Json

/-- The members of an object, in document order. -/
abbrev Members := List (String × Json)

def Members.get? (members : Members) (name : String) : Option Json :=
  (members.find? fun m => m.1 == name).map Prod.snd

/-- Gives the member called `name` a value: in its place if there is one, else at the end. -/
def Members.put (members : Members) (name : String) (value : Json) : Members :=
  if members.any fun m => m.1 == name then
    members.map fun m => if m.1 == name then (m.1, value) else m
  else members ++ [(name, value)]

def ofNat (n : Nat) : Json :=
  .number (.integer n)

def ofInt (n : Int) : Json :=
  .number (.integer n)

/-- The value of a whole number of at most 64 bits without sign. -/
def Number.unsigned? : Number → Option Nat
  | .integer n => if 0 ≤ n then some n.toNat else none
  | .real _ => none

/-- The value of a whole number that a signed 64-bit word holds. -/
def Number.signed? : Number → Option Int
  | .integer n => if -(Text.signedEnd : Int) ≤ n ∧ n < Text.signedEnd then some n else none
  | .real _ => none

end Json

end BuildHooks
