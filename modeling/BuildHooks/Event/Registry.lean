import BuildHooks.Event.Builtin
import BuildHooks.Text.Lowercase

/-!
The registry of events by name, whatever the case of the name. Who registers a name again, in any
spelling, replaces the factory, but the first spelling stays and the change is noted. The entries are in
the order of their lower-cased names.
-/

namespace BuildHooks.Event

/-- An event as it was registered. -/
structure Entry where
  name : String
  factory : Factory

/-- The entries by lower-cased name. -/
structure Registry where
  entries : List (String × Entry)

namespace Registry

def empty : Registry :=
  ⟨[]⟩

/-- The entry registered under `name` in any spelling. -/
def lookup? (r : Registry) (name : String) : Option Entry :=
  (r.entries.find? fun e => e.1 == Text.lowercase name).map Prod.snd

def contains (r : Registry) (name : String) : Bool :=
  (r.lookup? name).isSome

def size (r : Registry) : Nat :=
  r.entries.length

def toList (r : Registry) : List Entry :=
  r.entries.map Prod.snd

/-- Puts an entry in its place, or gives the entry that is there its factory. -/
def insert (key : String) (entry : Entry) : List (String × Entry) → List (String × Entry)
  | [] => [(key, entry)]
  | (k, e) :: rest =>
    if key = k then (k, { e with factory := entry.factory }) :: rest
    else if key < k then (key, entry) :: (k, e) :: rest
    else (k, e) :: insert key entry rest

/-- The record of a name that was registered before. -/
def repeatedRecord (name existing : String) : Log.Record :=
  { level := .warn
    source := .registry
    message := "event registered twice ignoring case, replacing earlier factory"
    fields := [("event", .quoted name), ("existing", .plain existing)] }

/-- Registers an event, and notes it if its name was registered before. -/
def register (r : Registry) (name : String) (factory : Factory) : Registry × Option Log.Record :=
  (⟨insert (Text.lowercase name) ⟨name, factory⟩ r.entries⟩,
   (r.lookup? name).map fun e => repeatedRecord name e.name)

def registerAll (r : Registry) : List (String × Factory) → Registry × List Log.Record
  | [] => (r, [])
  | (name, factory) :: rest =>
    let (r, note) := r.register name factory
    let (r, notes) := registerAll r rest
    (r, note.toList ++ notes)

/-- The registry of some events, with the notes of those registered again. -/
def ofList (events : List (String × Factory)) : Registry × List Log.Record :=
  empty.registerAll events

/-- The registry of the events that are there from the start. -/
def default : Registry :=
  (ofList builtins).1

end Registry

end BuildHooks.Event
