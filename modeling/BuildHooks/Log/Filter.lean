import BuildHooks.Log.Format
import BuildHooks.Text.Blank
import BuildHooks.Text.Cut

/-!
Which log records are written. The operator gives directives, separated by commas: a level for all parts
of the program, the name of a part, or both with an equals sign between them. A name covers every part
whose own name starts with it, and the longest name that covers a part decides about its records.

A directive may also have brackets with the name of a span of work, and with names of values in braces.
The first kind only holds inside such a span, and no record is written inside one that has a name. The
second kind holds for the records that have all these values.
-/

namespace BuildHooks.Log

/-- How much is let through: records of a level and of those above it, or nothing. -/
abbrev Threshold := Option Level

/-- A threshold lets a level through. -/
def Threshold.admits (t : Threshold) (level : Level) : Bool :=
  t.any fun most => level.rank ≤ most.rank

def thresholds : List Threshold :=
  [none, some .error, some .warn, some .info, some .debug, some .trace]

def Threshold.word (t : Threshold) : String :=
  (t.map Level.name).getD "off"

/-- The threshold that a text names, by number or by word in any case. -/
def Threshold.named? (cs : List Char) : Option Threshold :=
  match (Text.naturalBelow? Text.wordEnd cs).bind fun n => thresholds[n]? with
  | some t => some t
  | none => thresholds.find? fun t => t.word == String.ofList (cs.map Char.toLower)

structure Directive where
  /-- How the names of the parts start that it is about. -/
  lead : String
  /-- It only holds inside a span of work. -/
  insideSpan : Bool
  /-- The values that a record must have. -/
  fields : List String
  threshold : Threshold
deriving DecidableEq, Repr

namespace Directive

/-- The directive for all parts. -/
def general (threshold : Threshold) : Directive :=
  ⟨"", false, [], threshold⟩

/-- A name may start with this character. -/
def isStart (c : Char) : Bool :=
  c.isAlphanum || c == '-' || c == ':' || c == '_' || 0x80 ≤ c.toNat

/-- The threshold at the end of a directive; none that is given lets everything through. -/
def threshold? (cs : List Char) : Option Threshold :=
  if cs.isEmpty then some (some .trace) else Threshold.named? cs

/-- What follows the brackets of a directive. -/
def tail? (tight : Bool) : List Char → Option Threshold
  | [] => some (some .trace)
  | '=' :: cs => if tight then threshold? cs else none
  | _ => none

/-- What is between the brackets, and the threshold behind them. -/
def bracketed? (tight : Bool) (lead : String) (cs : List Char) : Option Directive := do
  match cs.takeWhile (fun c => c ≠ ']' && c ≠ '{'), cs.dropWhile (fun c => c ≠ ']' && c ≠ '{') with
  | _, ']' :: rest => return ⟨lead, true, [], ← tail? tight rest⟩
  | span, '{' :: rest =>
    let (field, rest) ← Text.breakAt? ['}'] rest
    match field, rest with
    | _ :: _, ']' :: rest =>
      let insideSpan := !span.isEmpty || field.contains '='
      return ⟨lead, insideSpan, [String.ofList field], ← tail? tight rest⟩
    | _, _ => none
  | _, _ => none

/-- A name or a threshold that stands alone. -/
def alone (cs : List Char) : Directive :=
  match Threshold.named? cs with
  | some t => general t
  | none => ⟨String.ofList cs, false, [], some .trace⟩

/-- The directive that a text writes. Blanks around it do not keep it from being read, but they belong to
the name that they touch, and there is no threshold behind an equals sign unless the text is tight: free
of them. -/
def parse? (text : List Char) : Option Directive :=
  let cs := Text.dropBothWhile Text.isBlank text
  let tight := cs == text
  let isName (c : Char) : Bool := c ≠ '=' && c ≠ '['
  match cs with
  | '[' :: rest => bracketed? tight "" rest
  | c :: _ =>
    if !isStart c then none
    else match cs.takeWhile isName, cs.dropWhile isName with
      | name, '=' :: rest =>
        if tight then (threshold? rest).map fun t => ⟨String.ofList name, false, [], t⟩ else none
      | name, _ :: rest => bracketed? tight (String.ofList (text.take name.length)) rest
      | _, [] => some (alone text)
  | [] => none

def covers (d : Directive) (r : Record) : Bool :=
  !d.insideSpan && d.lead.toList.isPrefixOf r.source.name.toList
    && d.fields.all fun f => f == "message" || r.fields.any fun field => field.1 == f

/-- A directive says more about whom it covers than another one, or the same but later. Of two that ask
for different values of as many, the one with the greater name counts. -/
def overrules (d : Directive) (earlier : Directive) : Bool :=
  earlier.lead.length < d.lead.length
    || (earlier.lead.length == d.lead.length
      && (earlier.fields.length < d.fields.length
        || (earlier.fields.length == d.fields.length && !decide (d.fields < earlier.fields))))

end Directive

/-- Which records are written: those that the directives let through. -/
abbrev Filter := List Directive

namespace Filter

/-- What is let through if nothing is asked for. -/
def standard : Filter :=
  [.general (some .info)]

/-- The filter that a text writes. Of an empty text there remain the errors. -/
def parse? (text : String) : Option Filter := do
  let parts := (Text.split ',' text.toList).filter fun cs => !cs.isEmpty
  let directives ← parts.mapM Directive.parse?
  return if directives.isEmpty then [.general (some .error)] else directives

/-- The filter that an operator asked for. What cannot be read asks for nothing. -/
def ofText (text : Option String) : Filter :=
  (text.bind parse?).getD standard

/-- The directive that decides among those that cover a record. -/
def decisive? (f : Filter) (r : Record) : Option Directive :=
  (f.filter fun d => d.covers r).foldl
    (fun best d => match best with
      | none => some d
      | some b => if d.overrules b then some d else some b)
    none

def admits (f : Filter) (r : Record) : Bool :=
  (f.decisive? r).any fun d => Threshold.admits d.threshold r.level

end Filter

end BuildHooks.Log
