import BuildHooks.Event.Page
import BuildHooks.Proofs.Dispatch.Spelling
import BuildHooks.Proofs.Event.Registered

/-! The page and the dispatcher agree. There is one row for each entry, and the path in it leads to the
entry whenever any path does: that is so unless the name is blank or holds a slash. No other event is ever
reached, so whatever a request was dispatched to has its row. -/

namespace BuildHooks

namespace Event.Registry

variable {r : Registry} {name : String} {entry : Entry}

/-- What is found by a name is listed, and is registered under that name in some spelling. -/
theorem Ordered.of_lookup? (h : r.Ordered) (hlookup : r.lookup? name = some entry) :
    entry ∈ r.toList ∧ Text.lowercase name = Text.lowercase entry.name := by
  have hmem := (lookup?_eq_some_iff h.nodup).mp hlookup
  exact ⟨List.mem_map_of_mem (f := Prod.snd) hmem, h.keyed _ hmem⟩

theorem Ordered.lookup?_name (h : r.Ordered) (hentry : entry ∈ r.toList) :
    r.lookup? entry.name = some entry := by
  obtain ⟨e, he, rfl⟩ := List.mem_map.mp hentry
  exact (h.mem_entries_iff.mp he).2

theorem Ordered.ascending_toList (h : r.Ordered) : r.toList.Pairwise fun e f =>
    (Text.lowercase e.name).toList < (Text.lowercase f.name).toList := by
  have hascending := h.ascending
  rw [← h.map_lowercase_toList] at hascending
  have hpairs := List.pairwise_map.mp hascending
  exact hpairs

/-- No two entries have one spelling. -/
theorem Ordered.nodup_names (h : r.Ordered) : (r.toList.map Entry.name).Nodup := by
  refine List.pairwise_map.mpr (h.ascending_toList.imp fun hlt heq => ?_)
  rw [heq] at hlt
  exact List.lt_irrefl _ hlt

end Event.Registry

namespace Dispatcher

open Event Dispatch

/-- The path that the row of an event prints. -/
def printedPath (root name : String) : String :=
  "/" ++ root ++ "/" ++ name

/-- The rows tell all that the dispatcher can be led to. -/
structure Documented (d : Dispatcher) (rows : String) : Prop where
  /-- There is a row for each entry, in their order. -/
  rows : rows = String.join (d.registry.toList.map fun entry =>
    "<tr>\n<td valign='top'>" ++ entry.name ++ "</td>\n<td valign='top'>"
      ++ printedPath d.root entry.name ++ "</td>\n<td><pre>"
      ++ escapeHtml entry.factory.sample ++ "</pre></td>\n</tr>\n")
  listed : ∀ entry, entry ∈ d.registry.toList ↔ d.registry.lookup? entry.name = some entry
  /-- The entries ascend by the code points of their lower-cased names, so none comes twice. -/
  ascending : d.registry.toList.Pairwise fun e f =>
    (Text.lowercase e.name).toList < (Text.lowercase f.name).toList
  /-- The printed path leads to its entry, if the name can stand in a path. -/
  resolved : ∀ entry ∈ d.registry.toList,
    d.resolve? (printedPath d.root entry.name) = some entry ↔
      Text.isAllBlank entry.name = false ∧ '/' ∉ entry.name.toList
  /-- What is posted to the printed path is answered for its entry, if the name can stand in a path. -/
  answered : ∀ entry ∈ d.registry.toList, ∀ body answer,
    ((d.dispatch (printedPath d.root entry.name) body).run answer).1.event = some entry.name ↔
      Text.isAllBlank entry.name = false ∧ '/' ∉ entry.name.toList
  /-- The event of a response stands in exactly one row, and its name can stand in a path. -/
  printed : ∀ path body answer name, ((d.dispatch path body).run answer).1.event = some name →
    (d.registry.toList.map Entry.name).count name = 1 ∧
      Text.isAllBlank name = false ∧ '/' ∉ name.toList

variable {d : Dispatcher} {path : String} {entry : Entry}

/-- What a path leads to has a name that can stand in a path. -/
theorem Reaches.name (h : d.Reaches path entry) (ordered : d.registry.Ordered) :
    Text.isAllBlank entry.name = false ∧ '/' ∉ entry.name.toList := by
  obtain ⟨segment, ⟨hslash, _⟩, hblank, hlookup⟩ := h
  have hlower := (ordered.of_lookup? hlookup).2
  constructor
  · rw [← Text.isAllBlank_lowercase, ← hlower, Text.isAllBlank_lowercase, hblank]
  · rwa [← Text.slash_mem_lowercase_iff, ← hlower, Text.slash_mem_lowercase_iff]

theorem Reaches.mem_toList (h : d.Reaches path entry) (ordered : d.registry.Ordered) :
    entry ∈ d.registry.toList := by
  obtain ⟨segment, _, _, hlookup⟩ := h
  exact (ordered.of_lookup? hlookup).1

theorem row_eq (root : String) (entry : Entry) : row root entry =
    "<tr>\n<td valign='top'>" ++ entry.name ++ "</td>\n<td valign='top'>"
      ++ printedPath root entry.name ++ "</td>\n<td><pre>"
      ++ escapeHtml entry.factory.sample ++ "</pre></td>\n</tr>\n" := by
  have hpath : "</td>\n<td valign='top'>/" = "</td>\n<td valign='top'>" ++ "/" := rfl
  have hsample : "</td>\n<td><pre>" = "</td>\n" ++ "<td><pre>" := rfl
  unfold row printedPath
  simp only [hpath, hsample, String.append_assoc, ToString.toString]

theorem resolve?_printedPath_iff (ordered : d.registry.Ordered) (hentry : entry ∈ d.registry.toList) :
    d.resolve? (printedPath d.root entry.name) = some entry ↔
      Text.isAllBlank entry.name = false ∧ '/' ∉ entry.name.toList := by
  rw [resolve?_eq_some_iff]
  constructor
  · exact fun hreaches => hreaches.name ordered
  · rintro ⟨hblank, hslash⟩
    exact ⟨entry.name, ⟨hslash, .inl rfl⟩, hblank, ordered.lookup?_name hentry⟩

/-- A response for the name of an entry is one to a path that leads to the entry. -/
theorem event_dispatch_eq_name_iff (ordered : d.registry.Ordered) (hentry : entry ∈ d.registry.toList)
    (path body : String) (answer : Call → List Log.Record × Reply) :
    ((d.dispatch path body).run answer).1.event = some entry.name ↔ d.resolve? path = some entry := by
  rw [event_dispatch, Option.map_eq_some_iff]
  constructor
  · rintro ⟨found, hfound, hname⟩
    have hlisted := ((resolve?_eq_some_iff _ path).mp hfound).mem_toList ordered
    -- No two entries have one name, so what was found is the entry.
    rw [← List.inj_on_of_nodup_map ordered.nodup_names hlisted hentry hname]
    exact hfound
  · intro hresolve
    exact ⟨entry, hresolve, rfl⟩

/-- The rows of a registry and the dispatcher over it agree, whatever was registered under whatever
root. -/
theorem rows_documented (events : List (String × Factory)) (root : String) :
    Documented ⟨(Registry.ofList events).1, root⟩ ((Registry.ofList events).1.rows root) := by
  have ordered := Registry.ordered_ofList events
  exact
    { rows := congrArg String.join (List.map_congr_left fun entry _ => row_eq root entry)
      listed := fun entry =>
        ⟨ordered.lookup?_name, fun hlookup => (ordered.of_lookup? hlookup).1⟩
      ascending := ordered.ascending_toList
      resolved := fun entry hentry => resolve?_printedPath_iff ordered hentry
      answered := by
        intro entry hentry body answer
        rw [event_dispatch_eq_name_iff ordered hentry]
        exact resolve?_printedPath_iff ordered hentry
      printed := by
        intro path body answer name hname
        rw [event_dispatch, Option.map_eq_some_iff] at hname
        obtain ⟨entry, hentry, rfl⟩ := hname
        have hreaches := (resolve?_eq_some_iff _ path).mp hentry
        have hlisted := List.mem_map_of_mem (f := Entry.name) (hreaches.mem_toList ordered)
        exact ⟨List.count_eq_one_of_mem ordered.nodup_names hlisted, hreaches.name ordered⟩ }

end Dispatcher

end BuildHooks
