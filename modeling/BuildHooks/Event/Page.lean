import BuildHooks.Event.Registry

/-!
The page that documents the events: a row for each entry of the registry, put into a template. Its places
are looked for in the part of the template that is left, so what is put in is never looked at again and may
hold the names of places.
-/

namespace BuildHooks.Event

/-- A character as it is written in the text of a page. -/
def escapeHtmlChar (c : Char) : List Char :=
  if c = '&' then "&amp;".toList
  else if c = '<' then "&lt;".toList
  else if c = '>' then "&gt;".toList
  else if c = '"' then "&quot;".toList
  else if c = '\'' then "&#39;".toList
  else [c]

/-- A text as it is written in a page. -/
def escapeHtml (s : String) : String :=
  String.ofList (s.toList.flatMap escapeHtmlChar)

/-- The row of one entry: its name, its path and its sample. -/
def row (root : String) (entry : Entry) : String :=
  s!"<tr>\n<td valign='top'>{entry.name}</td>\n<td valign='top'>/{root}/{entry.name}</td>\n"
    ++ s!"<td><pre>{escapeHtml entry.factory.sample}</pre></td>\n</tr>\n"

def Registry.rows (r : Registry) (root : String) : String :=
  String.join (r.toList.map (row root))

/-- A place of a template. -/
inductive Place where
  | root
  | rows
  | baseUrl
deriving DecidableEq, Repr

namespace Place

def all : List Place :=
  [.root, .rows, .baseUrl]

def name : Place → String
  | .root => "url_name"
  | .rows => "event_rows"
  | .baseUrl => "root_url"

/-- How a place is written in a template. -/
def mark (p : Place) : List Char :=
  '{' :: p.name.toList ++ ['}']

end Place

/-- A place that was found in a text, with the text before and after it. -/
structure Found where
  before : List Char
  place : Place
  rest : List Char

/-- Where a place stands first in a text. -/
def Place.find? (p : Place) (cs : List Char) : Option Found :=
  (Text.breakAt? p.mark cs).map fun parts => ⟨parts.1, p, parts.2⟩

/-- The first of all places in a text. -/
def firstPlace? (cs : List Char) : Option Found :=
  (Place.all.filterMap fun p => p.find? cs).minOn? fun f => f.before.length

theorem firstPlace?_length {cs : List Char} {f : Found} (h : firstPlace? cs = some f) :
    f.rest.length < cs.length := by
  obtain ⟨p, _, hp⟩ := List.mem_filterMap.mp (List.minOn?_mem h)
  obtain ⟨parts, hparts, rfl⟩ := Option.map_eq_some_iff.mp hp
  have hlength := Text.breakAt?_length hparts
  have hmark : 0 < p.mark.length := by simp [Place.mark]
  simp only
  omega

/-- What is put into a template: the root of the events' paths, the rows, and the base URL. -/
structure PageValues where
  root : String
  rows : String
  baseUrl : String

namespace PageValues

/-- What a place is filled with. -/
def value (v : PageValues) : Place → String
  | .root => v.root
  | .rows => v.rows
  | .baseUrl => v.baseUrl

/-- Fills the places in the rest of a template, of which `done` was written before. -/
def fillFrom (v : PageValues) (done : String) (cs : List Char) : String :=
  match h : firstPlace? cs with
  | none => done ++ String.ofList cs
  | some f =>
    have := firstPlace?_length h
    v.fillFrom (done ++ String.ofList f.before ++ v.value f.place) f.rest
termination_by cs.length

/-- The template with all its places filled, the first one first. -/
def fill (v : PageValues) (template : String) : String :=
  v.fillFrom "" template.toList

end PageValues

end BuildHooks.Event
