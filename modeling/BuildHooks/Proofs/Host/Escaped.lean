import BuildHooks.Proofs.Dispatch.Spelling
import BuildHooks.Proofs.Event.Registered
import BuildHooks.Proofs.Host.DamagedBody
import BuildHooks.Proofs.Host.Pathless
import BuildHooks.Proofs.Host.TrailingSegments
import BuildHooks.Proofs.Text.Escapes

/-! What the escapes in a path do to a request. Two ways to write one path are decoded to that path, and
the request is handled by nothing else than what its path is decoded to, so nobody can tell how it was
written. In particular every event is reached by its name, whatever the name is made of, as long as it is
one segment and its bytes are escaped where they have to be. -/

namespace BuildHooks.Host

open Event Text.Percent

namespace Server

/-- A request is dispatched to this entry of the registry. -/
structure DispatchedTo (s : Server) (request : Http.Request) (entry : Entry) : Prop where
  resolved : s.site.dispatcher.resolve? (decodePath request.path) = some entry
  /-- The entry is given the body, and the response is measured. -/
  task : s.taskFor request =
    Task.bind (Dispatcher.perform (decodePath request.path)
      (String.ofList (Text.Utf8.decodeLenient request.body)) entry) Dispatch.Response.measured
  /-- Whatever the scheduler replies, the response is one of this event. -/
  event : ∀ answer, ((s.taskFor request).run answer).1.event = some entry.name
  /-- If the request is accepted and there are replies for it, it is answered with that response. -/
  answered : ∀ id fresh, s.Accepts request →
    s.serves s.waiting.length (s.outcomeFor request).2.calls.length →
    (s.startEvent id fresh request).2 =
      (.answered (s.due fresh request), (s.outcomeFor request).2)

/-- A request is handled by what its path is decoded to. -/
theorem startEvent_of_decodePath (s : Server) (request : Http.Request) {path : String}
    (h : decodePath path = decodePath request.path) (id : Nat) (fresh : String) :
    SameEffect (s.startEvent id fresh { request with path }) (s.startEvent id fresh request) := by
  unfold startEvent
  split
  · exact ⟨rfl, rfl⟩
  · split
    · exact ⟨rfl, rfl⟩
    · unfold startDispatch
      simp only [h]
      generalize drive _ _ _ = driven
      obtain ⟨s', stop, t⟩ := driven
      cases stop with
      | finished r => exact ⟨rfl, rfl⟩
      | waiting call next =>
          refine ⟨?_, rfl⟩
          simp only [pathless, List.map_append]
          rfl

theorem dispatchedTo_of_resolve? {s : Server} {request : Http.Request} {entry : Entry}
    (h : s.site.dispatcher.resolve? (decodePath request.path) = some entry) :
    s.DispatchedTo request entry where
  resolved := h
  task := by
    unfold taskFor Dispatcher.measured Dispatcher.dispatch
    rw [h]
    rfl
  event := by
    intro answer
    unfold taskFor
    rw [Dispatcher.run_measured]
    exact (s.site.dispatcher.event_dispatch _ _ answer).trans (by rw [h]; rfl)
  answered := by
    intro id fresh haccepts hserves
    obtain ⟨permits, hstart⟩ := startDispatch_of_serves id fresh hserves
    rw [startEvent_of_accepts id fresh haccepts, hstart]

/-- The name of an event, as one segment after the root, leads to its entry. -/
theorem resolve?_name {d : Dispatcher} {name : String} {entry : Entry}
    (hentry : d.registry.lookup? name = some entry) (hblank : Text.isAllBlank name = false)
    (hslash : '/' ∉ name.toList) : d.resolve? (pathLead d.root ++ name) = some entry := by
  have hname : nameInPath? (pathLead d.root) (pathLead d.root ++ name) = some name :=
    nameInPath?_eq_some_iff.mpr ⟨hslash, .inl rfl⟩
  unfold Dispatcher.resolve?
  rw [hname]
  simp only [hblank]
  exact hentry

/-- Every registration is found under its name. -/
theorem exists_merged? {events : List (String × Factory)} {name : String} {factory : Factory}
    (h : (name, factory) ∈ events) : ∃ entry, merged? (group events name) = some entry := by
  refine Option.ne_none_iff_exists'.mp fun hnone => ?_
  exact Registry.group_eq_nil_iff.mp (merged?_eq_none_iff.mp hnone) _ h rfl

/-- A path is decoded to the text whose bytes it stands for, or to itself if there is no such text; so
every way to write a text is decoded to it. Two requests whose paths are written in such ways are handled
alike, and nothing that happens later shows which is which. Where the root holds no percent sign, each
event is reached by its name behind the root, however the name is written. -/
theorem written_paths (s : Server) :
    (∀ path result, decodePath path = result ↔ Decodes path result) ∧
    (∀ written text, WritesText written text → decodePath written = text) ∧
    (∀ (request : Http.Request) written written' text, WritesText written text → WritesText written' text →
      ∀ id fresh,
        (s.startEvent id fresh { request with path := written' }).2 =
          (s.startEvent id fresh { request with path := written }).2 ∧
        ∀ steps, (s.startEvent id fresh { request with path := written' }).1.shows steps =
          (s.startEvent id fresh { request with path := written }).1.shows steps) ∧
    ∀ events name factory written request, s.site.registry = (Registry.ofList events).1 →
      (name, factory) ∈ events → Text.isAllBlank name = false → '/' ∉ name.toList →
      '%' ∉ s.site.endpoint.root.toList → WritesText written name →
      request.path = pathLead s.site.endpoint.root ++ written →
      ∃ entry, merged? (group events name) = some entry ∧ s.DispatchedTo request entry := by
  refine ⟨fun path result => decodePath_eq_iff, fun written text h => h.decodePath_eq, ?_, ?_⟩
  · intro request written written' text h h' id fresh
    have hpath : decodePath written' = decodePath written :=
      h'.decodePath_eq.trans h.decodePath_eq.symm
    obtain ⟨hserver, hshown⟩ :=
      s.startEvent_of_decodePath { request with path := written } hpath id fresh
    exact ⟨hshown, shows_eq_of_pathless hserver⟩
  · intro events name factory written request hregistry hmem hblank hslash hroot hwritten hpath
    obtain ⟨entry, hentry⟩ := exists_merged? hmem
    refine ⟨entry, hentry, dispatchedTo_of_resolve? ?_⟩
    have hlead : '%' ∉ (pathLead s.site.endpoint.root).toList := by
      rw [Dispatcher.toList_pathLead]
      simpa using hroot
    have hwhole : WritesText request.path (pathLead s.site.endpoint.root ++ name) := by
      rw [hpath]
      exact (writesText_self hlead).append hwritten
    rw [hwhole.decodePath_eq]
    refine resolve?_name ?_ hblank hslash
    change s.site.registry.lookup? name = some entry
    rw [hregistry, Registry.lookup?_ofList, hentry]

end Server

/-- A site with one event, whose name needs escapes. -/
def umlautSite : Site :=
  { stockSite with registry := (Registry.ofList [("ö 1%", pingFactory)]).1 }

theorem writesText_umlaut :
    WritesText "%C3%b6%201%25" "ö 1%" ∧ WritesText "%c3%B6%20%31%25" "ö 1%" := by
  have htext : Text.Utf8.encode "ö 1%".toList =
      [0xC * 16 + 3, 0xB * 16 + 6, 2 * 16 + 0, 0x31, 2 * 16 + 5] := by decide
  have htext' : Text.Utf8.encode "ö 1%".toList =
      [0xC * 16 + 3, 0xB * 16 + 6, 2 * 16 + 0, 3 * 16 + 1, 2 * 16 + 5] := by decide
  have decimal : ∀ {v : UInt8}, v < 10 → HexDigit (0x30 + v) v := .decimal
  have upper : ∀ {v : UInt8}, v < 6 → HexDigit (0x41 + v) (10 + v) := .upper
  have lower : ∀ {v : UInt8}, v < 6 → HexDigit (0x61 + v) (10 + v) := .lower
  unfold WritesText
  constructor
  · rw [htext]
    exact .escaped (@upper 2 (by decide)) (@decimal 3 (by decide)) <|
      .escaped (@lower 1 (by decide)) (@decimal 6 (by decide)) <|
      .escaped (@decimal 2 (by decide)) (@decimal 0 (by decide)) <|
      .plain (by decide) <| .escaped (@decimal 2 (by decide)) (@decimal 5 (by decide)) .nil
  · rw [htext']
    exact .escaped (@lower 2 (by decide)) (@decimal 3 (by decide)) <|
      .escaped (@upper 1 (by decide)) (@decimal 6 (by decide)) <|
      .escaped (@decimal 2 (by decide)) (@decimal 0 (by decide)) <|
      .escaped (@decimal 3 (by decide)) (@decimal 1 (by decide)) <|
      .escaped (@decimal 2 (by decide)) (@decimal 5 (by decide)) .nil

/-- Two ways to write a name with an umlaut, a space and a percent sign lead to its entry and are answered
alike. -/
theorem written_paths_umlaut :
    let s := Server.ofSite umlautSite
    decodePath "%C3%b6%201%25" = "ö 1%" ∧
    ((s.startEvent 0 "" (pingAs "%c3%B6%20%31%25")).2 = (s.startEvent 0 "" (pingAs "%C3%b6%201%25")).2 ∧
      (s.startEvent 0 "" (pingAs "%c3%B6%20%31%25")).1.shows [.drain] =
        (s.startEvent 0 "" (pingAs "%C3%b6%201%25")).1.shows [.drain]) ∧
    ∃ entry, merged? (group [("ö 1%", pingFactory)] "ö 1%") = some entry ∧
      s.DispatchedTo (pingAs "%C3%b6%201%25") entry := by
  obtain ⟨hwritten, hwritten'⟩ := writesText_umlaut
  have hlead : WritesText "/team-events/" "/team-events/" := writesText_self (by decide)
  obtain ⟨_, hdecoded, halike, hdispatched⟩ := Server.written_paths (Server.ofSite umlautSite)
  refine ⟨hdecoded _ _ hwritten, ?_, ?_⟩
  · obtain ⟨hshown, hlater⟩ := halike (pingAs "") _ _ _ (hlead.append hwritten)
      (hlead.append hwritten') 0 ""
    exact ⟨hshown, hlater [.drain]⟩
  · exact hdispatched [("ö 1%", pingFactory)] "ö 1%" pingFactory "%C3%b6%201%25"
      (pingAs "%C3%b6%201%25") rfl List.mem_cons_self (by decide) (by decide) (by decide) hwritten rfl

end BuildHooks.Host
