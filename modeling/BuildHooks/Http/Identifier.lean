/-!
Identifiers for requests whose callers gave none. They are made of sixteen random bytes, in which a few
bits are kept for saying so.
-/

namespace BuildHooks.Http.Identifier

/-- A hexadecimal digit of either half of a byte. -/
def digit (n : Nat) : Char :=
  Nat.digitChar (n % 16)

def byteDigits (b : UInt8) : List Char :=
  [digit (b.toNat / 16), digit b.toNat]

/-- A byte with the mark of random identifiers in its upper half. -/
def markVersion (b : UInt8) : UInt8 :=
  b % 16 + 0x40

/-- A byte with the mark of the layout in its two uppermost bits. -/
def markLayout (b : UInt8) : UInt8 :=
  b % 64 + 0x80

def group (bytes : List UInt8) : String :=
  String.ofList (bytes.flatMap byteDigits)

/-- The identifier made of sixteen bytes. -/
def ofBytes (bytes : List UInt8) : String :=
  let marked := (bytes.modify 6 markVersion).modify 8 markLayout
  "-".intercalate
    [group (marked.take 4), group ((marked.drop 4).take 2), group ((marked.drop 6).take 2),
     group ((marked.drop 8).take 2), group ((marked.drop 10).take 6)]

end BuildHooks.Http.Identifier
