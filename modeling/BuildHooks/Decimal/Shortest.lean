import BuildHooks.Decimal.Binary64

/-!
The fewest decimal digits that are read back as a given binary number. Among the decimals with that
few digits the nearest one is taken, and of two equally near the one with an even last digit.
-/

namespace BuildHooks.Binary64

/-- The decimal `digits * 10 ^ exponent`. -/
structure Decimal where
  digits : Nat
  exponent : Int
deriving DecidableEq, Repr

/-- A positive number and the ends of the interval that rounds to it, all over one denominator on the
grid of multiples of a power of ten. -/
structure Neighbourhood where
  value : Nat
  low : Nat
  high : Nat
  denominator : Nat
  closed : Bool

/-- The neighbourhood of a positive number on the grid of multiples of `10 ^ j`. Below a power of two
the numbers lie twice as close. -/
def neighbourhood (x : Binary64) (j : Int) : Neighbourhood :=
  let e := x.exponent - 2
  let scale := Nat.pow 2 e.toNat * Nat.pow 10 (-j).toNat
  let below := if x.mantissa = Binary64.fullMantissa ∧ -1074 < x.exponent then 1 else 2
  { value := 4 * x.mantissa * scale
    low := (4 * x.mantissa - below) * scale
    high := (4 * x.mantissa + 2) * scale
    denominator := Nat.pow 2 (-e).toNat * Nat.pow 10 j.toNat
    closed := x.mantissa % 2 == 0 }

/-- A grid point is read back as the number. -/
def Neighbourhood.holds (n : Neighbourhood) (d : Nat) : Bool :=
  let p := d * n.denominator
  if n.closed then n.low ≤ p && p ≤ n.high else n.low < p && p < n.high

/-- The nearer of the two grid points beside the number among those that are read back as it. -/
def Neighbourhood.best? (n : Neighbourhood) : Option Nat :=
  let d := n.value / n.denominator
  let excess := n.value % n.denominator
  match n.holds d, n.holds (d + 1) with
  | true, true =>
    let lack := n.denominator - excess
    some (if excess < lack then d else if lack < excess then d + 1 else d + d % 2)
  | true, false => some d
  | false, true => some (d + 1)
  | false, false => none

/-- Looks on the grids of `10 ^ j`, `10 ^ (j - 1)`, … for the first that has a point which is read
back; `grids` bounds how many are tried. -/
def shortestFrom (x : Binary64) : Nat → Int → Decimal
  | 0, j => ⟨(x.neighbourhood j).value / (x.neighbourhood j).denominator, j⟩
  | grids + 1, j =>
    match (x.neighbourhood j).best? with
    | some d => ⟨d, j⟩
    | none => shortestFrom x grids (j - 1)

/-- The fewest digits that are read back as a positive number. Seventeen always are; the first grid
is one or two above the leading digit. -/
def shortest (x : Binary64) : Decimal :=
  let magnitude : Int := (Nat.log2 x.mantissa : Int) + x.exponent
  shortestFrom x 20 (magnitude * 30103 / 100000 + 1)

end BuildHooks.Binary64
