import BuildHooks.Text.Lowercase
import BuildHooks.Text.VisibleTable

/-!
Quoted texts, as log fields and error messages show them: between double quotes, with an escape for
the quote, the backslash and every character that would not be visible.
-/

namespace BuildHooks.Text

/-- The hexadecimal digits of a number, lower-case, without leading zeros. -/
def hexDigits (n : Nat) : List Char :=
  Nat.toDigits 16 n

/-- A quoted text shows this character as itself. -/
def isVisible (c : Char) : Bool :=
  0x20 ≤ c.toNat && !inRanges hiddenRanges c.toNat

def quotedChar (c : Char) : List Char :=
  if c = '"' then ['\\', '"']
  else if c = '\\' then ['\\', '\\']
  else if c = '\n' then ['\\', 'n']
  else if c = '\r' then ['\\', 'r']
  else if c = '\t' then ['\\', 't']
  else if c.toNat = 0 then ['\\', '0']
  else if isVisible c then [c]
  else ['\\', 'u', '{'] ++ hexDigits c.toNat ++ ['}']

def quoted (s : String) : String :=
  "\"" ++ String.ofList (s.toList.flatMap quotedChar) ++ "\""

end BuildHooks.Text
