import BuildHooks.Decimal.Notation
import BuildHooks.Json.Basic
import BuildHooks.Text.Quoted

/-!
Compact JSON text. Nothing is escaped but the quote, the backslash and the controls below the space.
-/

namespace BuildHooks.Json

/-- One character inside a string. -/
def escapeChar (c : Char) : List Char :=
  if c = '"' then ['\\', '"']
  else if c = '\\' then ['\\', '\\']
  else if c.toNat < 0x20 then
    match c.toNat with
    | 8 => ['\\', 'b']
    | 9 => ['\\', 't']
    | 10 => ['\\', 'n']
    | 12 => ['\\', 'f']
    | 13 => ['\\', 'r']
    | n => ['\\', 'u', '0', '0', Nat.digitChar (n / 16), Nat.digitChar (n % 16)]
  else [c]

/-- Writes the characters of a string after `done`. -/
def writeChars (done : String) : List Char → String
  | [] => done
  | c :: cs => writeChars ((escapeChar c).foldl String.push done) cs

/-- Writes a string with its quotes after `done`. -/
def writeString (done s : String) : String :=
  (writeChars (done.push '"') s.toList).push '"'

def Number.text : Number → String
  | .integer n => Text.showInt n
  | .real x => x.text

mutual

/-- Writes a document after `done`. -/
def write (done : String) : Json → String
  | .null => done ++ "null"
  | .bool true => done ++ "true"
  | .bool false => done ++ "false"
  | .number n => done ++ n.text
  | .string s => writeString done s
  | .array [] => done ++ "[]"
  | .array (x :: xs) => (writeItems (write (done.push '[') x) xs).push ']'
  | .object [] => done ++ "\x7b\x7d"
  | .object ((name, x) :: ms) =>
    (writeMembers (write ((writeString (done.push '\x7b') name).push ':') x) ms).push '\x7d'

/-- Writes items after `done`, each after a comma. -/
def writeItems (done : String) : List Json → String
  | [] => done
  | x :: xs => writeItems (write (done.push ',') x) xs

/-- Writes members after `done`, each after a comma. -/
def writeMembers (done : String) : List (String × Json) → String
  | [] => done
  | (name, x) :: ms =>
    writeMembers (write ((writeString (done.push ',') name).push ':') x) ms

end

/-- The compact text of a document. -/
def render (v : Json) : String :=
  write "" v

end BuildHooks.Json
