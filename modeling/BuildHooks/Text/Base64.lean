/-!
Reading Base64: four characters of six bits for every three bytes, filled up with equals signs.
-/

namespace BuildHooks.Text.Base64

/-- The six bits that a character stands for. -/
def value? (c : Char) : Option Nat :=
  if 'A' ≤ c && c ≤ 'Z' then some (c.toNat - 65)
  else if 'a' ≤ c && c ≤ 'z' then some (c.toNat - 71)
  else if '0' ≤ c && c ≤ '9' then some (c.toNat + 4)
  else if c = '+' then some 62
  else if c = '/' then some 63
  else none

/-- The first `count` of the three bytes in 24 bits. -/
def bytesOf (bits count : Nat) : List UInt8 :=
  [UInt8.ofNat (bits / 65536), UInt8.ofNat (bits / 256), UInt8.ofNat bits].take count

/-- The bytes of four characters. -/
def group? (a b c d : Char) : Option (List UInt8) :=
  match value? a, value? b, value? c, value? d with
  | some a, some b, some c, some d => some (bytesOf (((a * 64 + b) * 64 + c) * 64 + d) 3)
  | some a, some b, some c, none =>
    if d = '=' then some (bytesOf (((a * 64 + b) * 64 + c) * 64) 2) else none
  | some a, some b, none, none =>
    if c = '=' ∧ d = '=' then some (bytesOf ((a * 64 + b) * 4096) 1) else none
  | _, _, _, _ => none

/-- The bytes that a text writes, unless it is badly written. -/
def decode? : List Char → Option (List UInt8)
  | [] => some []
  | a :: b :: c :: d :: rest =>
    match group? a b c d with
    | none => none
    | some bytes =>
      if d = '=' && !rest.isEmpty then none else (decode? rest).map (bytes ++ ·)
  | _ => none

end BuildHooks.Text.Base64
