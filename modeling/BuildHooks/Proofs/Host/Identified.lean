import BuildHooks.Proofs.Host.InFlight
import BuildHooks.Proofs.Host.DamagedBody

/-! Which answers carry an identifier. The layer that copies it onto an answer is the innermost one, so an
answer has it exactly if it comes from behind that layer: from a handler, from a route without the method
or from no route at all. What the layers around it answer by themselves has none. These are the answers
to a browser that asks beforehand, and those to requests whose time is over. -/

namespace BuildHooks

namespace Http.Headers

theorem values_append (headers more : Headers) (name : String) :
    (headers ++ more).values name = headers.values name ++ more.values name := by
  unfold values
  rw [List.filter_append, List.map_append]

/-- Headers of other names have no values for a name. -/
theorem values_eq_nil {headers : Headers} {name : String} (h : ∀ h ∈ headers, h.name ≠ name) :
    headers.values name = [] := by
  unfold values
  rw [List.map_eq_nil_iff, List.filter_eq_nil_iff]
  intro header hmem
  simpa using h header hmem

end Http.Headers

open Http.Headers

namespace Host

def identifierName : String := "x-request-id"

/-- The identifier of a request: the first one that its caller gave, or else a fresh one. -/
def identity (request : Http.Request) (fresh : String) : String :=
  (request.headers.first? identifierName).getD fresh

/-- An answer to a request carries its identifier, once, unless a layer gave it that stands outside of
the one that copies identifiers. -/
structure Identified (site : Site) (request : Http.Request) (fresh : String)
    (response : Http.Response) : Prop where
  carried : request.method ≠ "OPTIONS" → response.status ≠ 408 →
    response.headers.values identifierName = [identity request fresh]
  preflight : request.method = "OPTIONS" →
    response = site.preflight request ∧ response.headers.values identifierName = []
  late : response.status = 408 →
    response = site.timedOut request ∧ response.headers.values identifierName = []

namespace Site

variable (site : Site) (request : Http.Request) (fresh : String)

theorem values_policy (headers : Http.Headers) :
    (site.policy.headers headers).values identifierName = [] := by
  refine values_eq_nil fun h hmem => ?_
  unfold Http.OriginPolicy.headers at hmem
  rcases List.mem_cons.mp hmem with rfl | hmem
  · decide
  · unfold Http.OriginPolicy.allowed at hmem
    split at hmem
    · rw [List.mem_singleton.mp hmem]
      decide
    · split at hmem
      · rw [List.mem_singleton.mp hmem]
        change "access-control-allow-origin" ≠ "x-request-id"
        decide
      · cases hmem
    · cases hmem

theorem values_preflightHeaders (headers : Http.Headers) :
    (site.policy.preflightHeaders headers).values identifierName = [] := by
  unfold Http.OriginPolicy.preflightHeaders
  rw [values_append, values_policy]
  decide

theorem values_encodingHeaders (headers : Http.Headers) (c : Content) :
    (encodingHeaders headers c).values identifierName = [] := by
  have hlength : c.lengthHeader.name ≠ identifierName := by
    change "content-length" ≠ "x-request-id"
    decide
  unfold encodingHeaders
  simp only
  split
  · exact values_eq_nil (List.forall_mem_singleton.mpr hlength)
  · split
    · decide
    · exact values_eq_nil (List.forall_mem_cons.mpr ⟨by decide, List.forall_mem_singleton.mpr hlength⟩)

theorem values_identifier : Http.Headers.values [identifier request.headers fresh] identifierName =
    [identity request fresh] :=
  rfl

/-- An answer has the identifiers of its own headers and of the marks on it. -/
theorem values_answer (marks : Http.Headers) (c : Content) :
    (site.answer request marks c).headers.values identifierName =
      c.headers.values identifierName ++ marks.values identifierName := by
  change ((c.headers ++ marks ++ _ ++ site.policy.headers request.headers).values _ = _)
  rw [values_append, values_append, values_append, values_encodingHeaders, values_policy,
    List.append_nil, List.append_nil]

theorem values_preflight : (site.preflight request).headers.values identifierName = [] := by
  have hlength : (Content.bare 200).lengthHeader.name ≠ identifierName := by decide
  have hallow : ∀ route, (allowHeader route).name ≠ identifierName := by
    intro route
    change "allow" ≠ "x-request-id"
    decide
  unfold preflight
  simp only
  rw [values_append, values_preflightHeaders, List.append_nil]
  split
  · exact values_eq_nil
      (List.forall_mem_cons.mpr ⟨hallow _, List.forall_mem_singleton.mpr hlength⟩)
  · split
    · rfl
    · exact values_eq_nil (List.forall_mem_singleton.mpr hlength)

theorem values_nowhere :
    (site.nowhere request fresh).headers.values identifierName = [identity request fresh] := by
  unfold nowhere
  simp only
  rw [values_append, values_policy, List.append_nil, ← List.singleton_append, values_append,
    values_identifier]
  split
  · rfl
  · rfl

theorem values_timedOut : (site.timedOut request).headers.values identifierName = [] := by
  unfold timedOut
  rw [values_answer]
  rfl

variable {request}

/-- An answer from behind the layer that copies identifiers. -/
theorem identified_of_values {response : Http.Response} (hmethod : request.method ≠ "OPTIONS")
    (hstatus : response.status ≠ 408)
    (hvalues : response.headers.values identifierName = [identity request fresh]) :
    Identified site request fresh response where
  carried _ _ := hvalues
  preflight h := absurd h hmethod
  late h := absurd h hstatus

theorem identified_identified (hmethod : request.method ≠ "OPTIONS") {c : Content}
    (hstatus : c.status ≠ 408) (hvalues : c.headers.values identifierName = []) :
    Identified site request fresh (site.identified request fresh c) := by
  refine site.identified_of_values fresh hmethod hstatus ?_
  unfold identified
  rw [values_answer, hvalues, values_identifier, List.nil_append]

theorem identified_preflight (hmethod : request.method = "OPTIONS") :
    Identified site request fresh (site.preflight request) where
  carried h := absurd hmethod h
  preflight _ := ⟨rfl, site.values_preflight request⟩
  late h := absurd h (by change 200 ≠ 408; decide)

theorem identified_timedOut (hmethod : request.method ≠ "OPTIONS") :
    Identified site request fresh (site.timedOut request) where
  carried _ h := absurd rfl h
  preflight h := absurd h hmethod
  late _ := ⟨rfl, site.values_timedOut request⟩

theorem identified_dispatched (hmethod : request.method ≠ "OPTIONS") (r : Dispatch.Response) :
    Identified site request fresh (site.identified request fresh (dispatched r)) := by
  refine site.identified_identified fresh hmethod ?_ rfl
  change r.status.code ≠ 408
  cases r.status <;> decide

theorem identified_look (hmethod : request.method ≠ "OPTIONS") (life : Lifecycle) (uptime : Nat)
    (route : Http.Route) :
    Identified site request fresh (site.identified request fresh (site.look life uptime route)) := by
  have hstatus : (site.look life uptime route).status ≠ 408 := by
    cases route with
    | health | page | root | live => exact (by decide : 200 ≠ 408)
    | ready =>
        change (if life.health = .ready then 200 else 503) ≠ 408
        split <;> decide
    | event => exact (by decide : 405 ≠ 408)
  refine site.identified_identified fresh hmethod hstatus ?_
  cases route <;> rfl

end Site

namespace Server

variable {s : Server}

/-- What a request is answered with when it comes in. -/
theorem start_identified {s' : Server} {id : Nat} {fresh : String} {uptime : Nat}
    {request : Http.Request} {response : Http.Response} {t : Trace}
    (h : s.start id fresh uptime request = (s', .answered response, t)) :
    Identified s.site request fresh response := by
  unfold start at h
  split at h
  · next hoptions =>
    cases h
    exact s.site.identified_preflight fresh hoptions
  · next hoptions =>
    split at h
    · cases h
      exact s.site.identified_of_values fresh hoptions (by change 404 ≠ 408; decide)
        (s.site.values_nowhere request fresh)
    · split at h
      · cases h
        exact s.site.identified_identified fresh hoptions (by change 405 ≠ 408; decide) rfl
      · split at h
        · unfold startEvent at h
          split at h
          · cases h
            exact s.site.identified_identified fresh hoptions (by decide) rfl
          · split at h
            · cases h
              exact s.site.identified_identified fresh hoptions (by decide) rfl
            · by_cases hserves : s.serves s.waiting.length (s.outcomeFor request).2.calls.length
              · obtain ⟨permits, hdispatch⟩ := startDispatch_of_serves id fresh hserves
                rw [hdispatch] at h
                cases h
                exact s.site.identified_dispatched fresh hoptions _
              · obtain ⟨permits, call, next, u, hdispatch, _⟩ :=
                  startDispatch_of_not_serves id fresh hserves
                rw [hdispatch] at h
                cases h
        · cases h
          exact s.site.identified_look fresh hoptions _ _ _

/-- What a pending request is answered with in the end. -/
theorem Sound.finish_identified (h : s.Sound) {id before : Nat} {p : Pending}
    (hpending : s.pending? id = some (before, p)) (hmethod : p.request.method ≠ "OPTIONS") :
    ∃ s' r t, s.finish id = (s', some r, t) ∧ Identified s.site p.request p.fresh r := by
  obtain ⟨s', r, t, hfinish, _, _, hdue, htimedOut⟩ := h.finish hpending
  refine ⟨s', r, t, hfinish, ?_⟩
  by_cases hreplies : s.Replies before p
  · rw [hdue hreplies]
    exact s.site.identified_dispatched p.fresh hmethod _
  · rw [htimedOut hreplies]
    exact s.site.identified_timedOut p.fresh hmethod

end Server

/-- The response that is seen of a step. -/
def Seen.response? : Seen → Option Http.Response
  | .answered response | .closed _ response => some response
  | .nothing | .opened _ | .dropped _ | .drained _ => none

/-- A step answers a request, for which a fresh identifier was at hand: the one that comes in with the
step, or one that was seen to be pending. -/
inductive Answers (opened : List Open) : Step → Seen → Http.Request → String → Http.Response → Prop where
  | handled (fresh : String) (uptime : Nat) (request : Http.Request) (response : Http.Response) :
      Answers opened (.handle fresh uptime request) (.answered response) request fresh response
  | started (fresh : String) (uptime : Nat) (request : Http.Request) (response : Http.Response) :
      Answers opened (.start fresh uptime request) (.answered response) request fresh response
  | closed (step : Step) (o : Open) (ho : o ∈ opened) (response : Http.Response) :
      Answers opened step (.closed o.id response) o.request o.fresh response

/-- The answer that a step lets be seen, if any, is identified as that of the request that comes in or of
the pending one that it ends. -/
inductive Reports (s : Server) : Step → Seen → Prop where
  | silent (step : Step) (seen : Seen) (hseen : seen.response? = none) : Reports s step seen
  | handled (fresh : String) (uptime : Nat) (request : Http.Request) (response : Http.Response)
      (h : Identified s.site request fresh response) :
      Reports s (.handle fresh uptime request) (.answered response)
  | started (fresh : String) (uptime : Nat) (request : Http.Request) (response : Http.Response)
      (h : Identified s.site request fresh response) :
      Reports s (.start fresh uptime request) (.answered response)
  | closed (step : Step) (p : Pending) (hp : p ∈ s.waiting) (response : Http.Response)
      (h : Identified s.site p.request p.fresh response) : Reports s step (.closed p.id response)

namespace Server

/-- What holds of the answers of a server at which these requests were seen to be pending, whatever
happens next. -/
structure Identifies (s : Server) (opened : List Open) : Prop where
  answered : ∀ fresh uptime request, ∃ response,
    (s.step (.handle fresh uptime request)).2.1 = .answered response
  /-- Every response that is seen answers a request. -/
  asked : ∀ step response, (s.step step).2.1.response? = some response →
    ∃ request fresh, Answers opened step (s.step step).2.1 request fresh response
  identified : ∀ step request fresh response,
    Answers opened step (s.step step).2.1 request fresh response →
      Identified s.site request fresh response

variable {s : Server}

/-- A pending request is the only one that is seen under its number. -/
theorem Sound.eq_opened (h : s.Sound) {o : Open} (ho : o ∈ s.opens) {p : Pending} (hp : p ∈ s.waiting)
    (hid : o.id = p.id) : o = p.opened := by
  obtain ⟨q, hq, rfl⟩ := List.mem_map.mp ho
  rw [List.inj_on_of_nodup_map h.nodup hq hp hid]

theorem Sound.handle_identified (h : s.Sound) (fresh : String) (uptime : Nat) (request : Http.Request) :
    Identified s.site request fresh (s.handle s.nextId fresh uptime request).2.1 := by
  obtain ⟨s', t, hfollows, ⟨r, hstart, _⟩ | ⟨hstart, htakes, _, hopens⟩⟩ :=
    h.start fresh uptime request
  · unfold Server.handle
    rw [hstart]
    exact start_identified hstart
  · have hopened : (⟨s.nextId, request, fresh⟩ : Open) ∈ s'.opens := by
      rw [hopens]
      exact List.mem_append_right _ (List.mem_singleton_self _)
    obtain ⟨p, hp, heq⟩ := List.mem_map.mp hopened
    obtain ⟨before, hpending⟩ := hfollows.sound.pending?_of_mem hp
    obtain ⟨hid, hrequest, hfresh⟩ := Open.mk.inj heq
    have hmethod : p.request.method ≠ "OPTIONS" := by
      rw [hrequest, htakes.1]
      decide
    obtain ⟨s'', r, u, hfinish, hidentified⟩ := hfollows.sound.finish_identified hpending hmethod
    rw [hrequest, hfresh, hfollows.site] at hidentified
    rw [hid] at hfinish
    unfold Server.handle
    rw [hstart]
    simp only
    rw [hfinish]
    exact hidentified

/-- One step reports as it should where the pending requests are all for events. -/
theorem Sound.reports (h : s.Sound) (hmethods : ∀ o ∈ s.opens, o.request.method = "POST") (step : Step) :
    Reports s step (s.step step).2.1 := by
  have hmethod : ∀ p ∈ s.waiting, p.request.method ≠ "OPTIONS" := by
    intro p hp
    have hpost : p.request.method = "POST" := hmethods p.opened (List.mem_map_of_mem hp)
    rw [hpost]
    decide
  cases step with
  | handle fresh uptime request =>
      exact .handled fresh uptime request _ (h.handle_identified fresh uptime request)
  | start fresh uptime request =>
      obtain ⟨s', t, _, ⟨r, hstart, _⟩ | ⟨hstart, _⟩⟩ := h.start fresh uptime request
      · unfold Server.step
        simp only
        rw [hstart]
        exact .started fresh uptime request r (start_identified hstart)
      · unfold Server.step
        simp only
        rw [hstart]
        exact .silent _ _ rfl
  | resume id =>
      unfold Server.step
      simp only
      cases hpending : s.pending? id with
      | none =>
          rw [resume_of_none hpending]
          exact .silent _ _ rfl
      | some found =>
          obtain ⟨before, p⟩ := found
          obtain ⟨hmem, hid⟩ := mem_of_pending? hpending
          by_cases hreplies : s.Replies before p
          · obtain ⟨s', t, hresume, _⟩ := h.resume_of_replies hpending hreplies
            rw [hresume, ← hid]
            exact .closed _ p hmem _ (s.site.identified_dispatched p.fresh (hmethod p hmem) _)
          · obtain ⟨s', t, q, hresume, _⟩ := h.resume_of_not_replies hpending hreplies
            rw [hresume]
            exact .silent _ _ rfl
  | finish id =>
      unfold Server.step
      simp only
      cases hpending : s.pending? id with
      | none =>
          rw [finish_of_none hpending]
          exact .silent _ _ rfl
      | some found =>
          obtain ⟨before, p⟩ := found
          obtain ⟨hmem, hid⟩ := mem_of_pending? hpending
          obtain ⟨s', r, t, hfinish, hidentified⟩ := h.finish_identified hpending (hmethod p hmem)
          rw [hfinish, ← hid]
          exact .closed _ p hmem r hidentified
  | abandon id =>
      unfold Server.step
      simp only
      split
      · exact .silent _ _ rfl
      · exact .silent _ _ rfl
  | permit | setReady | trigger | drain => exact .silent _ _ rfl

/-- What is seen of a step that reports as it should answers a request. -/
theorem Sound.answers_of_reports (h : s.Sound) {opened : List Open} (hperm : opened.Perm s.opens)
    {step : Step} {seen : Seen} (hreports : Reports s step seen) :
    (∀ response, seen.response? = some response →
      ∃ request fresh, Answers opened step seen request fresh response) ∧
    ∀ request fresh response, Answers opened step seen request fresh response →
      Identified s.site request fresh response := by
  cases hreports with
  | silent step seen hseen =>
      refine ⟨fun response hresponse => ?_, fun request fresh response hanswers => ?_⟩
      · rw [hseen] at hresponse
        cases hresponse
      · cases hanswers <;> cases hseen
  | handled fresh uptime request r hidentified =>
      refine ⟨fun response hresponse => ?_, fun request fresh response hanswers => ?_⟩
      · cases hresponse
        exact ⟨request, fresh, .handled fresh uptime request r⟩
      · cases hanswers
        exact hidentified
  | started fresh uptime request r hidentified =>
      refine ⟨fun response hresponse => ?_, fun request fresh response hanswers => ?_⟩
      · cases hresponse
        exact ⟨request, fresh, .started fresh uptime request r⟩
      · cases hanswers
        exact hidentified
  | closed step p hp r hidentified =>
      refine ⟨fun response hresponse => ?_, fun request fresh response hanswers => ?_⟩
      · cases hresponse
        exact ⟨p.request, p.fresh,
          .closed step p.opened (hperm.mem_iff.mpr (List.mem_map_of_mem hp)) r⟩
      · generalize hid : p.id = id at hanswers
        cases hanswers with
        | closed step o ho =>
            rw [h.eq_opened (hperm.mem_iff.mp ho) hp hid.symm]
            exact hidentified

theorem Sound.identifies (h : s.Sound) {opened : List Open} (hperm : opened.Perm s.opens)
    (hmethods : ∀ o ∈ opened, o.request.method = "POST") : s.Identifies opened := by
  have hreports : ∀ step, Reports s step (s.step step).2.1 :=
    h.reports fun o ho => hmethods o (hperm.mem_iff.mpr ho)
  exact
    { answered := fun fresh uptime request => ⟨_, rfl⟩
      asked := fun step => (h.answers_of_reports hperm (hreports step)).1
      identified := fun step => (h.answers_of_reports hperm (hreports step)).2 }

/-- The pending requests stay ones for events. -/
theorem methods_openAfter {s' : Server} {step : Step} {seen : Seen} (h : Effect s s' step seen)
    {opened : List Open} (hperm : opened.Perm s.opens)
    (hmethods : ∀ o ∈ opened, o.request.method = "POST") :
    ∀ o ∈ step.openAfter opened seen, o.request.method = "POST" := by
  intro o ho
  have hs' := (h.openAfter hperm).mem_iff.mp ho
  cases h with
  | kept step seen hquiet hopens =>
      exact hmethods o (hperm.mem_iff.mpr (hopens.mem_iff.mp hs'))
  | opened fresh uptime request htakes haccepts hopens =>
      rw [hopens] at hs'
      rcases List.mem_append.mp hs' with hold | hnew
      · exact hmethods o (hperm.mem_iff.mpr hold)
      · rw [List.mem_singleton.mp hnew]
        exact htakes.1
  | left step seen id hseen hmem hopens =>
      exact hmethods o (hperm.mem_iff.mpr (List.mem_of_mem_filter (hopens.mem_iff.mp hs')))

/-- In every course of things, every answer to a request whose method is not `OPTIONS` and whose time is
not over carries the identifier of its request, exactly once; the others carry none. -/
theorem course_identifies (site : Site) (steps : List Step) :
    (course (ofSite site, []) steps).1.site = site ∧
      (course (ofSite site, []) steps).1.Identifies (course (ofSite site, []) steps).2 := by
  have hcourse : ∀ (s : Server) (opened : List Open), s.Sound → opened.Perm s.opens →
      (∀ o ∈ opened, o.request.method = "POST") →
      (course (s, opened) steps).1.site = s.site ∧
        (course (s, opened) steps).1.Identifies (course (s, opened) steps).2 := by
    induction steps with
    | nil =>
        intro s opened hsound hperm hmethods
        exact ⟨rfl, hsound.identifies hperm hmethods⟩
    | cons step steps ih =>
        intro s opened hsound hperm hmethods
        obtain ⟨hfollows, heffect⟩ := hsound.step step
        obtain ⟨hsite, hrest⟩ := ih _ _ hfollows.sound (heffect.openAfter hperm)
          (methods_openAfter heffect hperm hmethods)
        exact ⟨hsite.trans hfollows.site, hrest⟩
  exact hcourse _ [] (sound_ofSite site) (.refl _) (by simp)

end Server

/-- A request with an identifier of its caller's. -/
def marked (method path : String) (body : List UInt8) : Http.Request :=
  ⟨method, path, [⟨identifierName, "delivery-42"⟩], body⟩

/-- A push with what it has to have. -/
def barePush : String :=
  Payload.text [("collectionUri", .string "c"), ("repoUri", .string "r"), ("projectId", .string "p"),
    ("repoId", .string "i"), ("commit", .string "1f")]

/-- A browser that asks beforehand is answered without the identifier that it gave, and so is a push for
which the scheduler never replies. -/
theorem unidentified_answers :
    let preflight := marked "OPTIONS" "/team-events/ping" []
    let push := marked "POST" "/team-events/gitPush" (Text.Utf8.encode barePush.toList)
    let unanswering := { stockSite with scheduler := .constant .never (.ok []) }
    ((Server.ofSite stockSite).handle 0 "" 0 preflight).2.1.headers.values identifierName ≠
        [identity preflight ""] ∧
      ((Server.ofSite unanswering).handle 0 "" 0 push).2.1.headers.values identifierName ≠
        [identity push ""] := by
  decide +kernel

end Host

end BuildHooks
