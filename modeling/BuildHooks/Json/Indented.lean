import BuildHooks.Json.Printer

/-!
JSON text over several lines, for people to read: every item and member stands on a line of its own,
four spaces further in than the bracket around it.
-/

namespace BuildHooks.Json

/-- A line break and the indentation of a depth. -/
def newline (depth : Nat) : String :=
  "\n" ++ "".pushn ' ' (4 * depth)

mutual

/-- Writes a document that stands at a depth. -/
def indentedAt (depth : Nat) : Json → String
  | .array (x :: xs) =>
    "[" ++ newline (depth + 1) ++ indentedAt (depth + 1) x ++ indentedItems (depth + 1) xs
      ++ newline depth ++ "]"
  | .object ((name, x) :: ms) =>
    "\x7b" ++ newline (depth + 1) ++ writeString "" name ++ ": " ++ indentedAt (depth + 1) x
      ++ indentedMembers (depth + 1) ms ++ newline depth ++ "\x7d"
  | .array [] => "[]"
  | .object [] => "\x7b\x7d"
  | .null => render .null
  | .bool b => render (.bool b)
  | .number n => render (.number n)
  | .string s => render (.string s)

/-- Writes further items, each on a line of its own. -/
def indentedItems (depth : Nat) : List Json → String
  | [] => ""
  | x :: xs => "," ++ newline depth ++ indentedAt depth x ++ indentedItems depth xs

/-- Writes further members, each on a line of its own. -/
def indentedMembers (depth : Nat) : List (String × Json) → String
  | [] => ""
  | (name, x) :: ms =>
    "," ++ newline depth ++ writeString "" name ++ ": " ++ indentedAt depth x
      ++ indentedMembers depth ms

end

def indented (v : Json) : String :=
  indentedAt 0 v

end BuildHooks.Json
