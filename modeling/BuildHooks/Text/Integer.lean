/-!
Reading whole numbers in decimal notation, each with the range its place asks for.
-/

namespace BuildHooks.Text

/-- The first number that is too large for 64 bits. -/
def wordEnd : Nat := 18446744073709551616

/-- The first number that is too large for 64 bits of which one is the sign. -/
def signedEnd : Nat := 9223372036854775808

def digitValue? (c : Char) : Option Nat :=
  if '0' ≤ c && c ≤ '9' then some (c.toNat - 48) else none

/-- The number that decimal digits write after `value`, if they are all digits. -/
def digitsFrom? (value : Nat) : List Char → Option Nat
  | [] => some value
  | c :: cs =>
    match digitValue? c with
    | some d => digitsFrom? (value * 10 + d) cs
    | none => none

/-- The number written by one or more decimal digits. -/
def natural? (cs : List Char) : Option Nat :=
  if cs.isEmpty then none else digitsFrom? 0 cs

/-- A number with an optional plus sign, below `bound`. -/
def naturalBelow? (bound : Nat) (cs : List Char) : Option Nat :=
  let digits := match cs with
    | '+' :: rest => rest
    | _ => cs
  (natural? digits).filter (· < bound)

/-- A number with an optional sign of either kind. -/
def integer? (cs : List Char) : Option Int :=
  match cs with
  | '-' :: rest => (natural? rest).map fun n => -(n : Int)
  | '+' :: rest => (natural? rest).map fun n => (n : Int)
  | _ => (natural? cs).map fun n => (n : Int)

def showNat (n : Nat) : String :=
  Nat.repr n

def showInt (n : Int) : String :=
  if n < 0 then "-" ++ showNat n.natAbs else showNat n.natAbs

end BuildHooks.Text
