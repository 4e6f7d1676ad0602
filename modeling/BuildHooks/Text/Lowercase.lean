import BuildHooks.Text.CaseTable

/-!
Full lower-casing. Event names are compared by it, so that a name is found in any spelling. Two
characters are not mapped by the table alone: the dotted capital I becomes two characters, and a
capital sigma takes its final form at the end of a word.
-/

namespace BuildHooks.Text

/-- Whether a code point lies in one of some closed ranges. -/
def inRanges (ranges : List (Nat × Nat)) (n : Nat) : Bool :=
  ranges.any fun r => r.1 ≤ n && n ≤ r.2

/-- The run lists this code point as a capital. -/
def CaseRun.covers (run : CaseRun) (n : Nat) : Bool :=
  run.first ≤ n && n ≤ run.last && (n - run.first) % run.step == 0

/-- The lower-case partner of one character by the table, or the character itself. -/
def lowerChar (c : Char) : Char :=
  match caseRuns.find? fun run => run.covers c.toNat with
  | some run => Char.ofNat (c.toNat + run.shift).toNat
  | none => c

/-- Characters such as marks and apostrophes, which are skipped when the neighbours of a sigma
are looked up. -/
def isCaseIgnorable (c : Char) : Bool :=
  inRanges caseIgnorableRanges c.toNat

def isCased (c : Char) : Bool :=
  inRanges casedRanges c.toNat

/-- The first character that is not skipped is a letter with a case. -/
def startsCased (cs : List Char) : Bool :=
  match cs.dropWhile isCaseIgnorable with
  | c :: _ => isCased c
  | [] => false

/-- The lower-case form of `c` between the characters `before` it, nearest first, and those `after`
it. A capital sigma is final when a letter precedes it and none follows. -/
def lowerAt (before : List Char) (c : Char) (after : List Char) : List Char :=
  if c.toNat < 0x80 then [c.toLower]
  else if c = 'Σ' then
    if startsCased before && !startsCased after then ['ς'] else ['σ']
  else if c = 'İ' then ['i', Char.ofNat 0x307]
  else [lowerChar c]

/-- Lower-cases the rest of a text: `before` holds what came before it, nearest first, and `done`
its lower-case form, reversed. -/
def lowerFrom (before done : List Char) : List Char → List Char
  | [] => done.reverse
  | c :: after => lowerFrom (c :: before) ((lowerAt before c after).reverse ++ done) after

def lowercase (s : String) : String :=
  String.ofList (lowerFrom [] [] s.toList)

/-- Two texts are the same up to the case of ASCII letters. -/
def sameIgnoringAsciiCase (s t : List Char) : Bool :=
  s.map Char.toLower == t.map Char.toLower

end BuildHooks.Text
