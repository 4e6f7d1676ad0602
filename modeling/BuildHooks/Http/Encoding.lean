import BuildHooks.Http.Message
import BuildHooks.Text.Blank
import BuildHooks.Text.Cut
import BuildHooks.Text.Integer

/-!
Which encoding a caller wants. A caller lists encodings with weights between 0 and 1; the heaviest that
is known is used, and of equally heavy ones the compressed one. Encodings that are not known and weights
that are badly written are passed over.
-/

namespace BuildHooks.Http

inductive Encoding where
  | identity
  | gzip
deriving DecidableEq, Repr

namespace Encoding

/-- The encoding with a name, whatever the name's case. -/
def ofName? (name : List Char) : Option Encoding :=
  let lower := String.ofList (name.map Char.toLower)
  if lower = "gzip" ∨ lower = "x-gzip" then some .gzip
  else if lower = "identity" then some .identity
  else none

/-- Adds the digits after the point of a weight, the first of which stands for `unit` thousandths. -/
def fraction? : Nat → Nat → List Char → Option Nat
  | _, value, [] => if value ≤ 1000 then some value else none
  | unit, value, c :: cs =>
    match Text.digitValue? c with
    | some d => if unit = 0 then none else fraction? (unit / 10) (value + unit * d) cs
    | none => none

/-- A weight in thousandths. -/
def weight? (cs : List Char) : Option Nat :=
  match cs with
  | q :: '=' :: digit :: rest =>
    if q ≠ 'q' ∧ q ≠ 'Q' then none
    else
      let whole := if digit = '0' then some 0 else if digit = '1' then some 1000 else none
      match whole, rest with
      | none, _ => none
      | some w, [] => some w
      | some w, '.' :: digits => fraction? 100 w digits
      | some _, _ => none
  | _ => none

/-- A text without the blanks at its ends. -/
def trim (cs : List Char) : List Char :=
  Text.dropBothWhile Text.isBlank cs

/-- One entry of a list of encodings, with its weight. -/
def entry? (cs : List Char) : Option (Encoding × Nat) :=
  match ofName? (trim (cs.takeWhile (· ≠ ';'))), cs.dropWhile (· ≠ ';') with
  | none, _ => none
  | some e, [] => some (e, 1000)
  | some e, _ :: weight => (weight? (trim weight)).map fun w => (e, w)

/-- A header value that is plain text. -/
def isPlain (value : String) : Bool :=
  value.toList.all fun c => c = '\t' || (32 ≤ c.toNat && c.toNat < 127)

/-- The encodings that a request lists, with their weights. -/
def listed (request : Headers) : List (Encoding × Nat) :=
  ((request.values "accept-encoding").filter isPlain).flatMap fun value =>
    (Text.split ',' value.toList).filterMap entry?

def outweighs (a b : Encoding × Nat) : Bool :=
  b.2 < a.2 || (a.2 == b.2 && a.1 == .gzip)

def heaviest? : List (Encoding × Nat) → Option (Encoding × Nat)
  | [] => none
  | e :: es =>
    match heaviest? es with
    | none => some e
    | some f => if outweighs e f then some e else some f

/-- The encoding that a request wants. Entries without weight are refused by the caller. -/
def wanted (request : Headers) : Encoding :=
  match heaviest? ((listed request).filter fun e => 0 < e.2) with
  | some e => e.1
  | none => .identity

/-- Bodies from this many bytes on are worth compressing. -/
def leastBytes : Nat := 32

end Encoding

end BuildHooks.Http
