/-!
Finite binary floating-point numbers of 64 bits, in exact integer arithmetic: a whole mantissa times
a power of two. Every operation rounds the exact result to the nearest such number, a half to the
even mantissa, and has no answer where the result would be too large.
-/

namespace BuildHooks

/-- The number `mantissa * 2 ^ exponent`, negated if `negative`. A mantissa has at most 53 binary
digits, and exactly 53 unless the exponent is the least one, -1074. -/
structure Binary64 where
  negative : Bool
  mantissa : Nat
  exponent : Int
deriving DecidableEq, Repr

namespace Binary64

/-- The least mantissa of 53 binary digits. -/
def fullMantissa : Nat := 4503599627370496

/-- The quotient of two numbers to the nearest whole number, a half to the even one. -/
def roundQuotient (num den : Nat) : Nat :=
  let q := num / den
  let r := num % den
  if 2 * r < den then q else if den < 2 * r then q + 1 else q + q % 2

/-- Numerator and denominator of `num / den / 2 ^ e`. -/
def unscale (num den : Nat) (e : Int) : Nat × Nat :=
  (num * Nat.pow 2 (-e).toNat, den * Nat.pow 2 e.toNat)

/-- The exponent at which the quotient `num / den` has a mantissa of 53 digits, but no less than
the least exponent. -/
def exponentFor (num den : Nat) : Int :=
  let e : Int := (Nat.log2 num : Int) - Nat.log2 den - 52
  let scaled := unscale num den e
  max (if scaled.1 / scaled.2 < fullMantissa then e - 1 else e) (-1074)

/-- The number nearest to `num / den`. -/
def ofRatio? (negative : Bool) (num den : Nat) : Option Binary64 :=
  if num = 0 then some ⟨negative, 0, -1074⟩
  else
    let e := exponentFor num den
    let scaled := unscale num den e
    let m := roundQuotient scaled.1 scaled.2
    let x : Binary64 := if m = 2 * fullMantissa then ⟨negative, fullMantissa, e + 1⟩ else ⟨negative, m, e⟩
    if 971 < x.exponent then none else some x

def zero (negative : Bool) : Binary64 :=
  ⟨negative, 0, -1074⟩

def isZero (x : Binary64) : Bool :=
  x.mantissa == 0

/-- The number nearest to `mantissa * 2 ^ exponent / den`. -/
def ofScaled? (negative : Bool) (mantissa den : Nat) (exponent : Int) : Option Binary64 :=
  ofRatio? negative (mantissa * Nat.pow 2 exponent.toNat) (den * Nat.pow 2 (-exponent).toNat)

/-- The product with a number that is not negative. -/
def times? (x y : Binary64) : Option Binary64 :=
  ofScaled? x.negative (x.mantissa * y.mantissa) 1 (x.exponent + y.exponent)

/-- The quotient by a number that is greater than zero. -/
def dividedBy? (x y : Binary64) : Option Binary64 :=
  ofScaled? x.negative x.mantissa y.mantissa (x.exponent - y.exponent)

def powerOfTen? (n : Nat) : Option Binary64 :=
  ofRatio? false (Nat.pow 10 n) 1

/-- `x * 10 ^ n` by one multiplication with a rounded power of ten. -/
def timesTen? (x : Binary64) (n : Nat) : Option Binary64 :=
  (powerOfTen? n).bind x.times?

/-- `x / 10 ^ n` by one division by a rounded power of ten. -/
def overTen? (x : Binary64) (n : Nat) : Option Binary64 :=
  (powerOfTen? n).bind x.dividedBy?

/-- Divides by the largest power of ten while the exponent is below -308, then by what is left of
it; `steps` bounds the divisions, and zero stays zero. -/
def scaleDown? : Nat → Binary64 → Nat → Option Binary64
  | 0, x, n => if x.isZero then some x else x.overTen? n
  | steps + 1, x, n =>
    if n ≤ 308 then x.overTen? n
    else if x.isZero then some x
    else match x.overTen? 308 with
      | some y => scaleDown? steps y (n - 308)
      | none => none

/-- The number that a decimal with digits `digits` and exponent `exponent` is read as: the digits are
rounded first and scaled after. Three divisions take any 64-bit number to zero. -/
def ofDecimal? (negative : Bool) (digits : Nat) (exponent : Int) : Option Binary64 :=
  match ofRatio? negative digits 1 with
  | none => none
  | some x =>
    if exponent < 0 then scaleDown? 3 x exponent.natAbs
    else if exponent.toNat ≤ 308 then x.timesTen? exponent.toNat
    else if x.isZero then some x
    else none

end Binary64

end BuildHooks
