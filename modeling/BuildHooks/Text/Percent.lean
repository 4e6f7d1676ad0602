import BuildHooks.Text.Utf8

/-!
Percent escapes in a path: a percent sign and two hexadecimal digits stand for one byte. A percent
sign that is followed by anything else stands for itself.
-/

namespace BuildHooks.Text.Percent

/-- The value of a hexadecimal digit of either case. -/
def hexValue? (b : UInt8) : Option UInt8 :=
  if 0x30 ≤ b && b ≤ 0x39 then some (b - 0x30)
  else if 0x61 ≤ b && b ≤ 0x66 then some (b - 0x61 + 10)
  else if 0x41 ≤ b && b ≤ 0x46 then some (b - 0x41 + 10)
  else none

/-- The byte written by two hexadecimal digits. -/
def escaped? (high low : UInt8) : Option UInt8 :=
  match hexValue? high, hexValue? low with
  | some h, some l => some (h * 16 + l)
  | _, _ => none

/-- The bytes that a path's bytes stand for, after those already in `done`, reversed. -/
def unescapeFrom (done : List UInt8) : List UInt8 → List UInt8
  | 0x25 :: high :: low :: rest =>
    match escaped? high low with
    | some b => unescapeFrom (b :: done) rest
    | none => unescapeFrom (0x25 :: done) (high :: low :: rest)
  | b :: rest => unescapeFrom (b :: done) rest
  | [] => done.reverse

/-- The bytes that a path's bytes stand for. -/
def unescape (bs : List UInt8) : List UInt8 :=
  unescapeFrom [] bs

/-- The path that a written path stands for: its escapes are read once, and when the bytes are then
not UTF-8 the path is kept as it is written. -/
def decodePath (path : String) : String :=
  match Utf8.decode? (unescape (Utf8.encode path.toList)) with
  | some cs => String.ofList cs
  | none => path

end BuildHooks.Text.Percent
