/-!
Compressed bodies. The bytes are only stored, in blocks, between the header and the trailer that callers
who asked for compression expect; the trailer holds a checksum and the length.
-/

namespace BuildHooks.Http.Gzip

/-- A number as `width` bytes, the lowest first. -/
def littleEndian : Nat → Nat → List UInt8
  | 0, _ => []
  | width + 1, n => UInt8.ofNat (n % 256) :: littleEndian width (n / 256)

/-- One step of the checksum's division, by the reversed polynomial. -/
def checksumBit (c : UInt32) : UInt32 :=
  if c % 2 = 1 then 0xEDB88320 ^^^ (c / 2) else c / 2

/-- The division of `n` bits. -/
def checksumBits : Nat → UInt32 → UInt32
  | 0, c => c
  | n + 1, c => checksumBits n (checksumBit c)

/-- The checksum after one more byte. -/
def checksumByte (c : UInt32) (b : UInt8) : UInt32 :=
  checksumBits 8 (c ^^^ b.toUInt32)

def checksum (bytes : List UInt8) : UInt32 :=
  bytes.foldl checksumByte 0xFFFFFFFF ^^^ 0xFFFFFFFF

/-- How many bytes a block may hold. -/
def maxBlock : Nat := 65535

/-- A block of stored bytes; the last one says so. -/
def block (last : Bool) (bytes : List UInt8) : List UInt8 :=
  (if last then 1 else 0) :: littleEndian 2 bytes.length ++ littleEndian 2 (maxBlock - bytes.length)
    ++ bytes

def blocks (bytes : List UInt8) : List UInt8 :=
  if _h : bytes.length ≤ maxBlock then block true bytes
  else block false (bytes.take maxBlock) ++ blocks (bytes.drop maxBlock)
termination_by bytes.length
decreasing_by
  simp only [List.length_drop, maxBlock] at *
  omega

/-- What comes before the blocks: the format, and neither name nor time. -/
def header : List UInt8 :=
  [0x1F, 0x8B, 8, 0, 0, 0, 0, 0, 0, 0xFF]

def encode (bytes : List UInt8) : List UInt8 :=
  header ++ blocks bytes ++ littleEndian 4 (checksum bytes).toNat ++ littleEndian 4 bytes.length

end BuildHooks.Http.Gzip
