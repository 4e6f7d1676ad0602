import BuildHooks.Host.Server
import BuildHooks.Proofs.Dispatch.Course
import BuildHooks.Proofs.Host.Driving
import BuildHooks.Proofs.Json.Damage
import BuildHooks.Proofs.Json.RoundTrip

/-! What becomes of a request whose body is not UTF-8. Its damaged stretches are read as replacement
characters, and those are characters that a string may hold. So the damage surfaces as a malformed
payload when it stands outside of strings, and in general exactly when the text with the replacement
characters is no object; otherwise the event is dispatched with them. -/

namespace BuildHooks

open Dispatch

namespace Json

/-- The spot after a text. -/
def Spot.after (spot : Spot) (cs : List Char) : Spot :=
  cs.foldl Spot.next spot

theorem exposed_of_replacement {spot : Spot} {before after : List Char}
    (h : spot.after before = .outside) : exposed spot (before ++ replacement :: after) = true := by
  induction before generalizing spot with
  | nil =>
      cases h
      rfl
  | cons c before ih =>
      have hnext : (spot.next c).after before = .outside := h
      rw [List.cons_append, exposed, ih hnext, Bool.or_true]

end Json

namespace Text.Utf8

/-- A damaged stretch of the bytes, read as a replacement character, stands outside of the strings of a
JSON text. -/
def DamagedOutside (bytes : List UInt8) : Prop :=
  ∃ before after, pieces bytes = before ++ none :: after ∧
    Json.Spot.outside.after (before.map fun p => p.getD Json.replacement) = .outside

theorem exposed_of_damagedOutside {bytes : List UInt8} (h : DamagedOutside bytes) :
    Json.exposed .outside (decodeLenient bytes) = true := by
  obtain ⟨before, after, hpieces, hspot⟩ := h
  unfold decodeLenient
  rw [hpieces, List.map_append, List.map_cons]
  exact Json.exposed_of_replacement hspot

end Text.Utf8

theorem Payload.Malformed.isPrefix_message (what : Payload.Malformed) :
    "malformed JSON payload".toList <+: what.message.toList := by
  cases what with
  | notJson complaint =>
      refine ⟨(": " ++ complaint.message).toList, ?_⟩
      rw [← String.toList_append, ← String.append_assoc]
      rfl
  | notObject found =>
      refine ⟨(": expected an object but found " ++ kindName found).toList, ?_⟩
      rw [← String.toList_append, ← String.append_assoc]
      rfl

namespace Dispatcher

variable (d : Dispatcher) (path body : String) (answer : Call → List Log.Record × Reply)

variable {d path body}

/-- A watched factory writes its mark first of all. -/
theorem measured_watched_of_parse {entry : Event.Entry} (hentry : d.Reaches path entry)
    {payload : Payload} (hbody : Payload.parse body = .ok payload)
    (mark : Use → Option Log.Record) {record : Log.Record}
    (hmark : mark (.create entry payload) = some record) :
    ∃ next, (d.watched mark).measured path body = .note record next := by
  unfold measured dispatch
  rw [resolve?_watched, (d.resolve?_eq_some_iff path).mpr hentry]
  simp only [Option.map_some, perform, hbody]
  unfold Event.Entry.watched
  simp only [hmark]
  exact ⟨_, rfl⟩

end Dispatcher

namespace Host

namespace Server

/-- The same server with all factories of its events watched. -/
def watched (mark : Use → Option Log.Record) (s : Server) : Server :=
  { s with site := { s.site with registry := (s.site.dispatcher.watched mark).registry } }

/-- A request for an event is answered as a malformed payload, the scheduler is not asked, and watching
the factories shows nothing. -/
def Surfaces (s : Server) (id : Nat) (fresh : String) (request : Http.Request) : Prop :=
  ∃ response t, (∀ mark, ((s.watched mark).startEvent id fresh request).2 = (.answered response, t)) ∧
    response.status = 400 ∧ "malformed JSON payload".toList <+: response.body.toList ∧ t.calls = []

variable {s : Server} {id : Nat} {fresh : String} {request : Http.Request} {entry : Event.Entry}

theorem watched_none : s.watched (fun _ => none) = s := by
  unfold watched
  rw [Dispatcher.watched_none]
  rfl

/-- The dispatch for a request takes its course, and each use of a watched factory is marked. -/
theorem outcomeFor_watched {story : Story}
    (h : s.site.dispatcher.Course (Text.Percent.decodePath request.path)
      (String.ofList (Text.Utf8.decodeLenient request.body)) s.site.scheduler.answer story)
    (mark : Use → Option Log.Record) :
    (s.watched mark).outcomeFor request =
      (story.response,
        story.trace mark ++ (story.response.measured.run s.site.scheduler.answer).2) := by
  change ((s.site.dispatcher.watched mark).measured _ _).run s.site.scheduler.answer = _
  rw [Dispatcher.run_measured, h.run_watched mark]

/-- A request whose course asks the scheduler for nothing is answered with the response of the course. -/
theorem startEvent_watched (id : Nat) (fresh : String) (haccepts : s.Accepts request) {story : Story}
    (h : s.site.dispatcher.Course (Text.Percent.decodePath request.path)
      (String.ofList (Text.Utf8.decodeLenient request.body)) s.site.scheduler.answer story)
    (hcalls : (story.uses.flatMap fun use => use.2.calls) = []) (mark : Use → Option Log.Record) :
    ((s.watched mark).startEvent id fresh request).2 =
      (.answered (s.site.identified request fresh (Site.dispatched story.response)),
        story.trace mark ++ (story.response.measured.run s.site.scheduler.answer).2) := by
  have houtcome := outcomeFor_watched h mark
  have hserves : (s.watched mark).serves (s.watched mark).waiting.length
      ((s.watched mark).outcomeFor request).2.calls.length := by
    rw [houtcome, Trace.calls_append, Story.calls_trace, hcalls]
    exact .inl rfl
  have haccepts' : (s.watched mark).Accepts request := haccepts
  obtain ⟨permits, hstart⟩ := startDispatch_of_serves id fresh hserves
  rw [startEvent_of_accepts id fresh haccepts', hstart]
  simp only [due, houtcome]
  rfl

theorem surfaces_of_error (hmethod : request.method = "POST") (haccepts : s.Accepts request)
    (hentry : s.site.dispatcher.Reaches (Text.Percent.decodePath request.path) entry)
    {what : Payload.Malformed}
    (hbody : Payload.parse (String.ofList (Text.Utf8.decodeLenient request.body)) = .error what) :
    s.Surfaces id fresh request := by
  -- no factory is used on this course, so its trace is the same under every mark
  have hstart := startEvent_watched id fresh haccepts
    (.malformed entry what hentry hbody) rfl
  refine ⟨_, .ofSome (some ((Problem.malformed what).record (Text.Percent.decodePath request.path)
      (some entry.name))) ++ ((Response.measured ⟨.badRequest, what.message, some entry.name⟩).run
        s.site.scheduler.answer).2, hstart, rfl, ?_, rfl⟩
  have hbodyText : (s.site.identified request fresh
      (Site.dispatched ⟨.badRequest, what.message, some entry.name⟩)).body = what.message := by
    change Site.bodyFor request.method _ = _
    rw [hmethod]
    rfl
  rw [hbodyText]
  exact what.isPrefix_message

/-- Where the text that is dispatched is an object, watching the factories shows one at work. -/
theorem not_surfaces_of_ok (haccepts : s.Accepts request)
    (hentry : s.site.dispatcher.Reaches (Text.Percent.decodePath request.path) entry)
    {payload : Payload}
    (hbody : Payload.parse (String.ofList (Text.Utf8.decodeLenient request.body)) = .ok payload) :
    ¬s.Surfaces id fresh request := by
  rintro ⟨response, t, hstart, _⟩
  have hmarked : ∀ record : Log.Record, ∃ u, t = .ofRecord record ++ u := by
    intro record
    obtain ⟨next, hnext⟩ :=
      Dispatcher.measured_watched_of_parse hentry hbody (fun _ => some record) rfl
    have htask : (s.watched fun _ => some record).taskFor request = .note record next := hnext
    have htrace := congrArg Prod.snd (hstart fun _ => some record)
    have haccepts' : (s.watched fun _ => some record).Accepts request := haccepts
    rw [startEvent_of_accepts id fresh haccepts', trace_startDispatch, htask, drive_note] at htrace
    exact ⟨_, htrace.symm⟩
  obtain ⟨u, hu⟩ := hmarked ⟨.info, .host, "", []⟩
  obtain ⟨v, hv⟩ := hmarked ⟨.debug, .host, "", []⟩
  rw [hu] at hv
  have hrecords := congrArg Trace.records hv
  cases hrecords

/-- A request whose body is no UTF-8 is answered as a malformed payload exactly if its text with the
replacement characters is no object, and in any case if the damage stands outside of strings. -/
theorem damaged_body_surfaces (hmethod : request.method = "POST") (haccepts : s.Accepts request)
    (hentry : s.site.dispatcher.Reaches (Text.Percent.decodePath request.path) entry) :
    (s.Surfaces id fresh request ↔
      ∀ payload, Payload.parse (String.ofList (Text.Utf8.decodeLenient request.body)) ≠ .ok payload) ∧
    (Text.Utf8.DamagedOutside request.body → s.Surfaces id fresh request) := by
  have hiff : s.Surfaces id fresh request ↔
      ∀ payload, Payload.parse (String.ofList (Text.Utf8.decodeLenient request.body)) ≠
        .ok payload := by
    constructor
    · intro hsurfaces payload hbody
      exact not_surfaces_of_ok haccepts hentry hbody hsurfaces
    · intro hnone
      cases hbody : Payload.parse (String.ofList (Text.Utf8.decodeLenient request.body)) with
      | ok payload => exact absurd hbody (hnone payload)
      | error what => exact surfaces_of_error hmethod haccepts hentry hbody
  refine ⟨hiff, fun hdamaged => hiff.mpr fun payload hbody => ?_⟩
  have hexposed := Payload.not_exposed_of_parse hbody
  rw [String.toList_ofList, Text.Utf8.exposed_of_damagedOutside hdamaged] at hexposed
  cases hexposed

end Server

/-- A site as it is configured when nothing is said. -/
def stockSite : Site where
  config := .default
  endpoint := .default
  registry := .default
  scheduler := .constant .atOnce (.ok [])
  routes := ⟨"/team-events".toList.map .char⟩
  shownPort := 0

/-- The stock site can be made, with any other configuration too. -/
theorem make?_stockSite (config : Config) :
    Site.make? config .default .default (.constant .atOnce (.ok [])) 0 =
      some { stockSite with config } := by
  have hroutes : Http.Routes.ofRoot? Endpoint.default.root =
      some ⟨"/team-events".toList.map .char⟩ := by
    decide +kernel
  unfold Site.make?
  rw [hroutes]
  rfl

/-- A ping with some body. -/
def pingWith (body : List UInt8) : Http.Request :=
  ⟨"POST", "/team-events/ping", [], body⟩

theorem reaches_ping (body : List UInt8) :
    (Server.ofSite stockSite).site.dispatcher.Reaches
      (Text.Percent.decodePath (pingWith body).path) ⟨Event.ping, Event.pingFactory⟩ := by
  change stockSite.dispatcher.Reaches (Text.Percent.decodePath "/team-events/ping") _
  have hpath : Text.Percent.decodePath "/team-events/ping" = "/team-events/ping" := by
    decide +kernel
  rw [hpath]
  exact ⟨"ping", ⟨by decide, .inl (by decide)⟩, by decide, rfl⟩

theorem damaged_body_surfaces_outside :
    (Server.ofSite stockSite).Accepts (pingWith [0x7B, 0xFF, 0x7D]) ∧
    Text.Utf8.DamagedOutside (pingWith [0x7B, 0xFF, 0x7D]).body ∧
    (Server.ofSite stockSite).Surfaces 0 "" (pingWith [0x7B, 0xFF, 0x7D]) := by
  have haccepts : (Server.ofSite stockSite).Accepts (pingWith [0x7B, 0xFF, 0x7D]) := ⟨by decide, rfl⟩
  have hdamaged : Text.Utf8.DamagedOutside (pingWith [0x7B, 0xFF, 0x7D]).body :=
    ⟨[some '{'], [some '}'], by decide +kernel, rfl⟩
  exact ⟨haccepts, hdamaged,
    (Server.damaged_body_surfaces rfl haccepts (reaches_ping _)).2 hdamaged⟩

/-- An object with one string, which is a byte that no text in UTF-8 holds. -/
def damagedString : List UInt8 :=
  [0x7B, 0x22, 0x61, 0x22, 0x3A, 0x22, 0xFF, 0x22, 0x7D]

theorem parse_damagedString : Payload.parse (String.ofList (Text.Utf8.decodeLenient damagedString)) =
    .ok [("a", .string (String.ofList [Json.replacement]))] := by
  have htext : String.ofList (Text.Utf8.decodeLenient damagedString) =
      Payload.text [("a", .string (String.ofList [Json.replacement]))] := by
    decide +kernel
  rw [htext]
  refine Payload.parse_text (.object 126 _ (List.nodup_singleton _) fun m hm => ?_)
  cases List.mem_singleton.mp hm
  exact .string _ _

/-- Damage inside a string does not surface: the ping is answered as if it had not been damaged. -/
theorem damaged_string_accepted :
    Text.Utf8.decode? (pingWith damagedString).body = none ∧
    (Server.ofSite stockSite).Accepts (pingWith damagedString) ∧
    (Server.ofSite stockSite).site.dispatcher.Reaches
      (Text.Percent.decodePath (pingWith damagedString).path) ⟨Event.ping, Event.pingFactory⟩ ∧
    ¬(Server.ofSite stockSite).Surfaces 0 "" (pingWith damagedString) ∧
    ∃ response t, ((Server.ofSite stockSite).startEvent 0 "" (pingWith damagedString)).2 =
      (.answered response, t) ∧ response.status = 200 := by
  have haccepts : (Server.ofSite stockSite).Accepts (pingWith damagedString) := ⟨by decide, rfl⟩
  refine ⟨by decide +kernel, haccepts, reaches_ping _,
    Server.not_surfaces_of_ok haccepts (reaches_ping _) parse_damagedString, ?_⟩
  have hstart := Server.startEvent_watched 0 "" haccepts
    (.performed _ _ _ _ .empty .empty (reaches_ping damagedString) parse_damagedString rfl rfl) rfl
    fun _ => none
  rw [Server.watched_none] at hstart
  exact ⟨_, _, hstart, rfl⟩

end Host

end BuildHooks
