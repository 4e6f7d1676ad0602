import BuildHooks.Decimal.Shortest
import BuildHooks.Text.Integer

/-!
How a binary number is written: its shortest digits, with a point from 10^-5 up to below 10^16 and
with a signed exponent elsewhere.
-/

namespace BuildHooks.Binary64

def zeros (count : Nat) : String :=
  "".pushn '0' count

/-- A decimal whose leading digit stands for `10 ^ leading`, in positional notation. There is always a
digit on either side of the point. -/
def positional (digits : String) (leading : Int) : String :=
  let n := digits.length
  if leading < 0 then "0." ++ zeros (leading.natAbs - 1) ++ digits
  else
    let whole := leading.toNat + 1
    if n ≤ whole then digits ++ zeros (whole - n) ++ ".0"
    else
      let cs := digits.toList
      String.ofList (cs.take whole) ++ "." ++ String.ofList (cs.drop whole)

/-- The same decimal with one digit before the point and an exponent with its sign. -/
def scientific (digits : String) (leading : Int) : String :=
  let cs := digits.toList
  let fraction := if digits.length ≤ 1 then "" else "." ++ String.ofList (cs.drop 1)
  let sign := if leading < 0 then "-" else "+"
  String.ofList (cs.take 1) ++ fraction ++ "e" ++ sign ++ Text.showNat leading.natAbs

def text (x : Binary64) : String :=
  let sign := if x.negative then "-" else ""
  if x.isZero then sign ++ "0.0"
  else
    let d := x.shortest
    let digits := Text.showNat d.digits
    let leading := d.exponent + digits.length - 1
    sign ++ if -5 ≤ leading ∧ leading < 16 then positional digits leading
      else scientific digits leading

end BuildHooks.Binary64
