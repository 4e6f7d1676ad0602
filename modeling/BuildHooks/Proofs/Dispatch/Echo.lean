import BuildHooks.Proofs.Dispatch.DefaultCalls
import BuildHooks.Proofs.Json.TooDeep

/-! A payload goes through its text unharmed, up to the depth that the reader admits, and not beyond. A
ping is answered with the text of its payload. That payload was read, so it is not too deep, and its text
sent back as another ping brings the same text once more. -/

namespace BuildHooks

open Json

namespace Payload

variable {payload : Payload}

/-- What the text of a payload is read as, by how deep the payload nests. -/
structure Restored (payload : Payload) : Prop where
  shallow : depth (.object payload) ≤ 127 → parse payload.text = .ok payload
  deep : 127 < depth (.object payload) →
    ∃ complaint, parse payload.text = .error (.notJson complaint) ∧ complaint.problem = .tooDeep

theorem restored (named : Named (.object payload))
    (whole : ∀ n ∈ numbers (.object payload), n.Whole) : payload.Restored where
  shallow hdepth := parse_text_of_whole (named.fits whole hdepth)
  deep hdepth := parse_text_of_deep (named.fits whole (Nat.le_refl _)) hdepth

/-- What was read as a payload is read from the payload's own text too. -/
theorem parse_text_of_parse {body : String} (hbody : parse body = .ok payload)
    (whole : ∀ n ∈ numbers (.object payload), n.Whole) : parse payload.text = .ok payload := by
  obtain ⟨named, _, hdepth⟩ := fits_iff.mp (fits_of_parse hbody)
  exact (restored named whole).shallow hdepth

end Payload

namespace Dispatcher

open Event

/-- An entry that answers requests with what they carry. -/
structure Echoes (d : Dispatcher) (entry : Entry) : Prop where
  /-- Exactly the payloads are accepted. -/
  accepts : ∀ path body answer, d.Reaches path entry →
    (((d.dispatch path body).run answer).1.status.code = 200 ↔
      ∃ payload, Payload.parse body = .ok payload)
  answered : ∀ path body payload answer, d.Reaches path entry → Payload.parse body = .ok payload →
    ((d.dispatch path body).run answer).1 = ⟨.ok, payload.text, some entry.name⟩
  /-- The body of the response, sent to the entry again, is returned as it is. -/
  again : ∀ path path' body payload answer answer', d.Reaches path entry → d.Reaches path' entry →
    Payload.parse body = .ok payload → (∀ n ∈ numbers (.object payload), n.Whole) →
    ((d.dispatch path' ((d.dispatch path body).run answer).1.body).run answer').1 =
      ((d.dispatch path body).run answer).1

variable {d : Dispatcher} {path body : String} {entry : Entry}

theorem response_of_ping (hreaches : d.Reaches path entry) (hping : entry.factory = pingFactory)
    {payload : Payload} (hbody : Payload.parse body = .ok payload)
    (answer : Call → List Log.Record × Reply) :
    ((d.dispatch path body).run answer).1 = ⟨.ok, payload.text, some entry.name⟩ := by
  have hcreate : (entry.factory.create payload).run answer =
      (.ok fun given => .done (.ok given), .empty) := by
    rw [hping]
    rfl
  have hcourse : d.Course path body answer _ :=
    .performed entry payload _ payload .empty .empty hreaches hbody hcreate rfl
  rw [hcourse.run]

theorem accepts_of_ping (hreaches : d.Reaches path entry) (hping : entry.factory = pingFactory)
    (answer : Call → List Log.Record × Reply) :
    ((d.dispatch path body).run answer).1.status.code = 200 ↔
      ∃ payload, Payload.parse body = .ok payload := by
  constructor
  · intro hcode
    obtain ⟨story, hcourse⟩ := d.exists_course path body answer
    rw [hcourse.run] at hcode
    cases hcourse with
    | noEvent => cases hcode
    | malformed => cases hcode
    | rejected => cases hcode
    | failed => cases hcode
    | performed _ payload _ _ _ _ _ hbody => exact ⟨payload, hbody⟩
  · rintro ⟨payload, hbody⟩
    rw [response_of_ping hreaches hping hbody]
    rfl

theorem echoes (hping : entry.factory = pingFactory) : d.Echoes entry where
  accepts _ _ answer hreaches := accepts_of_ping hreaches hping answer
  answered _ _ _ answer hreaches hbody := response_of_ping hreaches hping hbody answer
  again _ _ _ _ _ _ hreaches hreaches' hbody whole := by
    have hagain := Payload.parse_text_of_parse hbody whole
    rw [response_of_ping hreaches hping hbody, response_of_ping hreaches' hping hagain]

/-- A payload of whole numbers is restored from its text unless it is too deep, and ping sends back what
it has answered with. -/
theorem restored_and_echoed :
    (∀ payload : Payload, Named (.object payload) → (∀ n ∈ numbers (.object payload), n.Whole) →
      payload.Restored) ∧
    ∀ (d : Dispatcher) (entry : Entry), entry.factory = pingFactory → d.Echoes entry :=
  ⟨fun _ => Payload.restored, fun _ _ => echoes⟩

/-- The negative zero and the numbers at both ends of the range, in front of an empty object under a name
outside the basic plane. -/
def boundary : Payload :=
  [("n", .array [.number .negativeZero, .number (.integer 18446744073709551615),
    .number (.integer (-9223372036854775808))]), ("😀", .object [])]

theorem named_boundary : Named (.object boundary) := by
  refine .object _ (by decide) fun m hm => ?_
  simp only [boundary, List.mem_cons, List.not_mem_nil, or_false] at hm
  rcases hm with rfl | rfl
  · refine .array _ fun x hx => ?_
    simp only [List.mem_cons, List.not_mem_nil, or_false] at hx
    rcases hx with rfl | rfl | rfl
    · exact .number _
    · exact .number _
    · exact .number _
  · exact .object [] List.nodup_nil (by simp)

theorem whole_boundary : ∀ n ∈ numbers (.object boundary), n.Whole := by
  intro n hn
  have hmem : n ∈ [Number.negativeZero, .integer 18446744073709551615,
    .integer (-9223372036854775808)] := hn
  simp only [List.mem_cons, List.not_mem_nil, or_false] at hmem
  rcases hmem with rfl | rfl | rfl
  · exact .inr rfl
  · exact .inl ⟨by decide, by decide⟩
  · exact .inl ⟨by decide, by decide⟩

theorem restored_and_echoed_boundary :
    Payload.parse boundary.text = .ok boundary ∧
    (∃ complaint, Payload.parse (Payload.text [("a", nested 127)]) = .error (.notJson complaint) ∧
      complaint.problem = .tooDeep) ∧
    ∀ answer answer', (((ofDefault "team-events").dispatch "/team-events/ping"
      (((ofDefault "team-events").dispatch "/team-events/Ping/" boundary.text).run
        answer).1.body).run answer').1 = ⟨.ok, boundary.text, some "ping"⟩ := by
  obtain ⟨hrestored, hechoes⟩ := restored_and_echoed
  have hbody : Payload.parse boundary.text = .ok boundary :=
    (hrestored boundary named_boundary whole_boundary).shallow (by decide)
  have hnamed : Named (.object [("a", nested 127)]) := by
    refine .object _ (List.nodup_singleton _) fun m hm => ?_
    rw [List.mem_singleton.mp hm]
    exact named_nested 127
  have hnumbers : numbers (.object [("a", nested 127)]) = [] := by
    rw [numbers, numbersOfMembers, numbers_nested]
    rfl
  have hdepth : depth (.object [("a", nested 127)]) = 128 := by
    rw [depth, depthOfMembers, depth_nested]
    rfl
  have hmem : (ping, pingFactory) ∈ builtins := List.mem_cons_self
  have hreaches : (ofDefault "team-events").Reaches "/team-events/Ping/" ⟨ping, pingFactory⟩ :=
    reaches_default_iff.mpr ⟨hmem, "Ping", ⟨by decide, .inr ⟨"", by decide⟩⟩, by decide⟩
  have hreaches' : (ofDefault "team-events").Reaches "/team-events/ping" ⟨ping, pingFactory⟩ :=
    reaches_default_iff.mpr ⟨hmem, "ping", ⟨by decide, .inl (by decide)⟩, rfl⟩
  have hping := hechoes (ofDefault "team-events") ⟨ping, pingFactory⟩ rfl
  refine ⟨hbody, (hrestored _ hnamed ?_).deep ?_, fun answer answer' => ?_⟩
  · rw [hnumbers]
    simp
  · rw [hdepth]
    decide
  · rw [hping.again _ _ _ _ answer answer' hreaches hreaches' hbody whole_boundary,
      hping.answered _ _ _ answer hreaches hbody]
    rfl

end Dispatcher

end BuildHooks
