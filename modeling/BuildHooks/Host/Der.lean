/-!
DER: values that carry a tag and their length. This is enough of it to find the public key in a
certificate and beside a private key.
-/

namespace BuildHooks.Host.Der

structure Value where
  tag : Nat
  content : List UInt8
deriving DecidableEq, Repr

/-- The number that some bytes write, the most significant one first. -/
def number (bytes : List UInt8) : Nat :=
  bytes.foldl (fun n b => n * 256 + b.toNat) 0

/-- The length at the front of some bytes: one byte below 128, or a count of bytes that write it. -/
def length? : List UInt8 → Option (Nat × List UInt8)
  | [] => none
  | b :: rest =>
    if b.toNat < 128 then some (b.toNat, rest)
    else
      let count := b.toNat - 128
      if count = 0 ∨ 4 < count ∨ rest.length < count then none
      else some (number (rest.take count), rest.drop count)

/-- The value at the front of some bytes, and the bytes after it. -/
def read? : List UInt8 → Option (Value × List UInt8)
  | [] => none
  | tag :: rest =>
    match length? rest with
    | none => none
    | some (count, rest) =>
      if rest.length < count then none
      else some (⟨tag.toNat, rest.take count⟩, rest.drop count)

/-- The values that some bytes hold one after another; `count` bounds how many there are. -/
def sequenceUpTo? : Nat → List UInt8 → Option (List Value)
  | _, [] => some []
  | 0, _ :: _ => none
  | count + 1, b :: bytes =>
    match read? (b :: bytes) with
    | none => none
    | some (v, rest) => (sequenceUpTo? count rest).map (v :: ·)

def sequence? (bytes : List UInt8) : Option (List Value) :=
  sequenceUpTo? bytes.length bytes

def integerTag : Nat := 0x02
def bitStringTag : Nat := 0x03
def octetStringTag : Nat := 0x04
def sequenceTag : Nat := 0x30

/-- The values in the sequence that some bytes are. -/
def inSequence? (bytes : List UInt8) : Option (List Value) :=
  match read? bytes with
  | some (v, []) => if v.tag = sequenceTag then sequence? v.content else none
  | _ => none

def Value.items? (v : Value) : Option (List Value) :=
  if v.tag = sequenceTag then sequence? v.content else none

/-- The bytes of a bit string of whole bytes. -/
def Value.bits? (v : Value) : Option (List UInt8) :=
  match v.content with
  | 0 :: bytes => if v.tag = bitStringTag then some bytes else none
  | _ => none

end BuildHooks.Host.Der
