import BuildHooks.Json.Basic
import BuildHooks.Json.Fault

/-!
Numerals. The digits are gathered in a 64-bit significand as long as they fit; the rest of them only
count towards the exponent. A numeral without fraction, exponent and left-over digits is a whole
number, unless it is a minus sign before zero or before more than a signed word holds.
-/

namespace BuildHooks.Json

/-- Gathers digits onto `significand` while it stays below 2^64, and counts them. -/
def gatherDigits (significand count : Nat) : List Char → Nat × Nat × List Char
  | [] => (significand, count, [])
  | c :: cs =>
    match Text.digitValue? c with
    | none => (significand, count, c :: cs)
    | some d =>
      if significand * 10 + d < Text.wordEnd then gatherDigits (significand * 10 + d) (count + 1) cs
      else (significand, count, c :: cs)

/-- Counts digits onto `count` and leaves what follows them. -/
def countDigits (count : Nat) : List Char → Nat × List Char
  | [] => (count, [])
  | c :: cs =>
    match Text.digitValue? c with
    | none => (count, c :: cs)
    | some _ => countDigits (count + 1) cs

def startsWithDigit : List Char → Bool
  | c :: _ => (Text.digitValue? c).isSome
  | [] => false

/-- The binary number for a significand and a decimal exponent, after which `rest` is left. -/
def realNumeral (negative : Bool) (significand : Nat) (exponent : Int) :
    Scan Number := fun rest =>
  match Binary64.ofDecimal? negative significand exponent with
  | some x => .ok (.real x, rest)
  | none => .error (faultBefore .numberOutOfRange rest)

/-- Reads the further digits of an exponent. When it outgrows 32 bits the number is zero if the
exponent is negative or the significand zero, and out of range otherwise. -/
def readExponentDigits (negative : Bool) (significand : Nat) (start : Int) (shrinks : Bool)
    (value : Nat) : Scan Number
  | [] => realNumeral negative significand (if shrinks then start - value else start + value) []
  | c :: cs =>
    match Text.digitValue? c with
    | none =>
      realNumeral negative significand (if shrinks then start - value else start + value) (c :: cs)
    | some d =>
      if value * 10 + d < 2147483648 then
        readExponentDigits negative significand start shrinks (value * 10 + d) cs
      else if significand = 0 ∨ shrinks then
        .ok (.real (Binary64.zero negative), (countDigits 0 cs).2)
      else .error (faultBefore .numberOutOfRange cs)

/-- Reads the exponent after its letter. -/
def readExponent (negative : Bool) (significand : Nat) (start : Int) : Scan Number := fun cs =>
  let (shrinks, digits) := match cs with
    | '+' :: rest => (false, rest)
    | '-' :: rest => (true, rest)
    | _ => (false, cs)
  match digits with
  | [] => .error (faultAt .endInValue [])
  | c :: rest =>
    match Text.digitValue? c with
    | none => .error (faultAt .invalidNumber (c :: rest))
    | some d => readExponentDigits negative significand start shrinks d rest

/-- Reads an exponent if there is one. -/
def readScale (negative : Bool) (significand : Nat) (start : Int) : Scan Number := fun cs =>
  match cs with
  | 'e' :: rest | 'E' :: rest => readExponent negative significand start rest
  | _ => realNumeral negative significand start cs

/-- Reads the fraction after its point; `start` counts the digits before it that did not fit. -/
def readFraction (negative : Bool) (significand start : Nat) : Scan Number := fun cs =>
  let (significand, count, rest) := gatherDigits significand 0 cs
  if count = 0 ∧ !startsWithDigit rest then
    .error (faultAt (if rest.isEmpty then .endInValue else .invalidNumber) rest)
  else readScale negative significand ((start : Int) - count) (countDigits 0 rest).2

/-- The number that a sign and digits alone write. -/
def wholeNumeral (negative : Bool) (significand : Nat) : Number :=
  if !negative then .integer significand
  else if 0 < significand ∧ significand ≤ Text.signedEnd then .integer (-(significand : Int))
  else match Binary64.ofRatio? true significand 1 with
    | some x => .real x
    | none => .integer (-(significand : Int))

/-- Reads what follows the digits before a point; `dropped` of them did not fit. -/
def readNumeralRest (negative : Bool) (significand dropped : Nat) : Scan Number := fun cs =>
  match cs with
  | '.' :: rest => readFraction negative significand dropped rest
  | 'e' :: _ | 'E' :: _ => readScale negative significand dropped cs
  | _ =>
    if dropped = 0 then .ok (wholeNumeral negative significand, cs)
    else realNumeral negative significand dropped cs

/-- Reads a numeral after its sign. Only a lone zero may start with zero. -/
def readNumeral (negative : Bool) : Scan Number
  | [] => .error (faultAt .endInValue [])
  | c :: cs =>
    match Text.digitValue? c with
    | none => .error (faultAt .invalidNumber (c :: cs))
    | some 0 =>
      if startsWithDigit cs then .error (faultAt .invalidNumber cs)
      else readNumeralRest negative 0 0 cs
    | some d =>
      let (significand, _, rest) := gatherDigits d 0 cs
      let (dropped, rest) := countDigits 0 rest
      readNumeralRest negative significand dropped rest

/-- Leaves the digits at the front of a text out. -/
def dropDigits (cs : List Char) : List Char :=
  (countDigits 0 cs).2

/-- Passes over the exponent after its letter. -/
def passExponent (cs : List Char) : Except Fault (List Char) :=
  let digits := match cs with
    | '+' :: rest => rest
    | '-' :: rest => rest
    | _ => cs
  if startsWithDigit digits then .ok (dropDigits digits)
  else .error (faultAt .invalidNumber digits)

/-- Passes over an exponent if there is one. -/
def passScale (cs : List Char) : Except Fault (List Char) :=
  match cs with
  | 'e' :: rest | 'E' :: rest => passExponent rest
  | _ => .ok cs

/-- Passes over a numeral after its sign, whatever its size. -/
def passNumeral (cs : List Char) : Except Fault (List Char) :=
  if !startsWithDigit cs then .error (faultAt .invalidNumber cs)
  else
    match cs with
    | '0' :: rest =>
      if startsWithDigit rest then .error (faultAt .invalidNumber rest) else passFraction rest
    | _ => passFraction (dropDigits cs)
where
  /-- Passes over a fraction and an exponent, each if there is one. -/
  passFraction (cs : List Char) : Except Fault (List Char) :=
    match cs with
    | '.' :: rest =>
      if startsWithDigit rest then passScale (dropDigits rest)
      else .error (faultAt .invalidNumber rest)
    | _ => passScale cs

end BuildHooks.Json
