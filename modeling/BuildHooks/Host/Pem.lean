import BuildHooks.Text.Base64
import BuildHooks.Text.Blank
import BuildHooks.Text.Cut
import BuildHooks.Text.Quoted

/-!
PEM files: blocks of Base64 between a line that names what begins and one that names what ends. Lines
outside of blocks mean nothing, and neither do blocks with a label that is not one of the known ones.
-/

namespace BuildHooks.Host.Pem

structure Block where
  label : String
  bytes : List UInt8
deriving DecidableEq, Repr

inductive Fault where
  /-- Its first line does not end with five dashes. -/
  | badStart (line : String)
  /-- It does not end. -/
  | unfinished (label : String)
  /-- It is not Base64. -/
  | notBase64
deriving DecidableEq, Repr

def endLine (label : String) : String :=
  "-----END " ++ label ++ "-----"

def Fault.message : Fault → String
  | .badStart line => "illegal section start: " ++ Text.quoted line
  | .unfinished label => "section end " ++ Text.quoted (endLine label) ++ " missing"
  | .notBase64 => "invalid base64"

/-- The labels of the blocks that are read. -/
def knownLabels : List String :=
  ["CERTIFICATE", "PUBLIC KEY", "RSA PRIVATE KEY", "PRIVATE KEY", "EC PRIVATE KEY", "X509 CRL",
    "CERTIFICATE REQUEST", "ECHCONFIG"]

/-- The label on a line that begins a block, of which the part after `-----BEGIN ` is given: what stands
before the five dashes at the end. Spaces among and behind the dashes do not count. -/
def label? (rest : List Char) : Option String :=
  let ending := (rest.reverse.takeWhile fun c => c = '-' || c = ' ').reverse
  if ending.count '-' = 5 then
    some (String.ofList (rest.take (rest.length - (ending.dropWhile (· = ' ')).length)))
  else none

/-- A line ends the block with a label. What follows the dashes does not matter. -/
def ends (label : String) (line : List Char) : Bool :=
  (endLine label).toList.isPrefixOf line

/-- The block with a label and the characters gathered for it, if the label is known. -/
def finish? (label : String) (gathered : List Char) : Option (Except Fault Block) :=
  if knownLabels.contains label then
    match Text.Base64.decode? gathered with
    | some bytes => some (.ok ⟨label, bytes⟩)
    | none => some (.error .notBase64)
  else none

/-- The blocks in some lines. Within a block, `current` has its label and the characters so far. A line
that begins a block within another one only changes the label. -/
def blocksFrom : Option (String × List Char) → List (List Char) → List (Except Fault Block)
  | none, [] => []
  | some (label, _), [] => [.error (.unfinished label)]
  | current, line :: lines =>
    match Text.dropLead? "-----BEGIN ".toList line, current with
    | some rest, _ =>
      match label? rest with
      | some label => blocksFrom (some (label, (current.map Prod.snd).getD [])) lines
      | none => .error (.badStart (String.ofList line ++ "\n")) :: blocksFrom none lines
    | none, some (label, gathered) =>
      if ends label line then (finish? label gathered).toList ++ blocksFrom none lines
      else blocksFrom (some (label, gathered ++ line.filter fun c => !Text.isBlank c)) lines
    | none, none => blocksFrom none lines

/-- The blocks of a file. A carriage return ends a line too. -/
def blocks (text : List Char) : List (Except Fault Block) :=
  blocksFrom none (Text.split '\n' (text.map fun c => if c = '\r' then '\n' else c))

end BuildHooks.Host.Pem
