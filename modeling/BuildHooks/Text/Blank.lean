/-!
Blank characters, and texts without their blank ends. A required text must hold at least one
character that is not blank.
-/

namespace BuildHooks.Text

/-- The characters that count as white space: the controls from tab to carriage return, the space,
the next-line control and the spaces and separators of the other scripts. -/
def isBlank (c : Char) : Bool :=
  let n := c.toNat
  (9 ≤ n && n ≤ 13) || n == 0x20 || n == 0x85 || n == 0xA0 || n == 0x1680
    || (0x2000 ≤ n && n ≤ 0x200A) || n == 0x2028 || n == 0x2029 || n == 0x202F || n == 0x205F
    || n == 0x3000

/-- A text is blank when it holds nothing but blank characters; the empty text is. -/
def isAllBlank (s : String) : Bool :=
  s.toList.all isBlank

/-- What remains when the characters that satisfy `p` are taken off the end. -/
def dropEndWhile (p : Char → Bool) (cs : List Char) : List Char :=
  (cs.reverse.dropWhile p).reverse

/-- What remains when the characters that satisfy `p` are taken off both ends. -/
def dropBothWhile (p : Char → Bool) (cs : List Char) : List Char :=
  dropEndWhile p (cs.dropWhile p)

end BuildHooks.Text
