import BuildHooks.Dispatch.Measured
import BuildHooks.Proofs.Dispatch.DefaultCalls
import BuildHooks.Proofs.Task.Observe

/-! What the spelling of a path decides. An event is reached by its name in any case of the ASCII letters,
and the names that are there from the start by nothing else. How the name is written, and what follows it
in the path, is never seen again: it is left in the records of requests that are refused, and decides
neither the response nor what the scheduler is asked or what is measured. -/

namespace BuildHooks

namespace Event

/-- The path is the root and then the name in some case of the ASCII letters, whatever segments follow. -/
def Spells (root path name : String) : Prop :=
  ∃ segment : String, Text.sameIgnoringAsciiCase segment.toList name.toList = true ∧
    (path = "/" ++ root ++ "/" ++ segment ∨
      ∃ tail, path = "/" ++ root ++ "/" ++ segment ++ "/" ++ tail)

variable {root path name : String}

/-- The names that are there from the start are in ASCII, without a k and without a slash. -/
theorem plain_of_mem_names (hname : name ∈ names) :
    (∀ c ∈ name.toList, c.toNat < 0x80 ∧ c.toLower ≠ 'k') ∧ '/' ∉ name.toList := by
  have hall : ∀ name ∈ names,
      (name.toList.all fun c => c.toNat < 0x80 ∧ c.toLower ≠ 'k') ∧ '/' ∉ name.toList := by decide
  obtain ⟨hplain, hslash⟩ := hall name hname
  exact ⟨List.all_iff_forall_prop.mp hplain, hslash⟩

theorem leads_iff_spells (hname : name ∈ names) : Leads root path name ↔ Spells root path name := by
  obtain ⟨hplain, hslash⟩ := plain_of_mem_names hname
  constructor
  · rintro ⟨segment, ⟨_, hpath⟩, hlower⟩
    exact ⟨segment, (Text.lowercase_eq_iff hplain).mp hlower, hpath⟩
  · rintro ⟨segment, hsame, hpath⟩
    have hlower := (Text.lowercase_eq_iff hplain).mpr hsame
    refine ⟨segment, ⟨?_, hpath⟩, hlower⟩
    rwa [← Text.slash_mem_lowercase_iff, hlower, Text.slash_mem_lowercase_iff]

end Event

namespace Dispatcher

open Event Dispatch

/-- The event of a response is the one that the path leads to. -/
theorem event_dispatch (d : Dispatcher) (path body : String)
    (answer : Call → List Log.Record × Reply) :
    ((d.dispatch path body).run answer).1.event = (d.resolve? path).map Entry.name := by
  obtain ⟨story, hcourse⟩ := d.exists_course path body answer
  rw [hcourse.run]
  cases hcourse with
  | noEvent hmisses => rw [(d.resolve?_eq_none_iff path).mpr hmisses]; rfl
  | malformed entry what hentry => rw [(d.resolve?_eq_some_iff path).mpr hentry]; rfl
  | rejected entry payload why t hentry => rw [(d.resolve?_eq_some_iff path).mpr hentry]; rfl
  | failed entry payload handler failure t u hentry =>
      rw [(d.resolve?_eq_some_iff path).mpr hentry]; rfl
  | performed entry payload handler result t u hentry =>
      rw [(d.resolve?_eq_some_iff path).mpr hentry]; rfl

/-! ### The events that are there from the start -/

theorem resolve?_default_iff {root path name : String} :
    ((ofDefault root).resolve? path).map Entry.name = some name ↔
      name ∈ names ∧ Spells root path name := by
  rw [Option.map_eq_some_iff]
  constructor
  · rintro ⟨entry, hentry, rfl⟩
    rw [resolve?_eq_some_iff, reaches_default_iff] at hentry
    have hname : entry.name ∈ names := List.mem_map_of_mem (f := Prod.fst) hentry.1
    exact ⟨hname, (leads_iff_spells hname).mp hentry.2⟩
  · rintro ⟨hname, hspells⟩
    obtain ⟨⟨_, factory⟩, hmem, rfl⟩ := List.mem_map.mp (show name ∈ builtins.map Prod.fst from hname)
    refine ⟨⟨_, factory⟩, ?_, rfl⟩
    rw [resolve?_eq_some_iff, reaches_default_iff]
    exact ⟨hmem, (leads_iff_spells hname).mpr hspells⟩

/-- The event of a response is the built-in name that the path spells in some case of the ASCII letters.
Where it spells none, the request is refused and none of the events is looked at, whatever the body. -/
theorem event_default_iff (root path body : String) (answer : Call → List Log.Record × Reply) :
    (∀ name, (((ofDefault root).dispatch path body).run answer).1.event = some name ↔
      name ∈ names ∧ Spells root path name) ∧
    ((∃ name ∈ names, Spells root path name) ∨
      ∀ mark, (((ofDefault root).watched mark).dispatch path body).run answer =
        (⟨.badRequest, "Invalid event", none⟩, .ofRecord (Problem.noEvent.record path none))) := by
  refine ⟨fun name => by rw [event_dispatch, resolve?_default_iff], ?_⟩
  cases hresolve : (ofDefault root).resolve? path with
  | some entry =>
      refine .inl ⟨entry.name, resolve?_default_iff.mp ?_⟩
      rw [hresolve]
      rfl
  | none =>
      refine .inr fun mark => ?_
      have hmisses := ((ofDefault root).resolve?_eq_none_iff path).mp hresolve
      have hcourse : (ofDefault root).Course path body answer _ := .noEvent hmisses
      exact hcourse.run_watched mark

/-! ### Two spellings of one path -/

theorem resolve?_eq_of_same {d : Dispatcher} {path path' segment segment' : String}
    (hpath : Names d.root path segment) (hpath' : Names d.root path' segment')
    (hsame : Text.sameIgnoringAsciiCase segment.toList segment'.toList = true) :
    d.resolve? path' = d.resolve? path := by
  have hlookup : d.registry.lookup? segment' = d.registry.lookup? segment := by
    rw [Registry.lookup?, Registry.lookup?, Text.lowercase_eq_of_same hsame]
  unfold resolve?
  rw [nameInPath?_eq_some_iff.mpr hpath, nameInPath?_eq_some_iff.mpr hpath']
  simp only [Text.isAllBlank_eq_of_same hsame, hlookup]

section Observe

variable {σ : Type} (react : σ → Call → Reply × σ) (s : σ)

theorem observe_refuse (path : String) (event : Option String) (problem : Problem) :
    (problem.refuse path event).observe react s =
      ⟨⟨problem.status, problem.message, event⟩, [], [], s⟩ := rfl

/-- Once the event is known, the path is left in records alone. -/
theorem observe_perform (path path' body : String) (entry : Entry) :
    (perform path' body entry).observe react s = (perform path body entry).observe react s := by
  unfold perform
  cases Payload.parse body with
  | error what => simp only [observe_refuse]
  | ok payload =>
      simp only [Task.observe_bind]
      cases ((entry.factory.create payload).observe react s).result with
      | error why => simp only [observe_refuse]
      | ok handler =>
          generalize ((entry.factory.create payload).observe react s).state = s
          simp only [Task.observe_bind]
          cases ((handler payload).observe react s).result with
          | error failure => simp only [observe_refuse]
          | ok result => rfl

theorem observe_dispatch {d : Dispatcher} {path path' : String}
    (h : d.resolve? path' = d.resolve? path) (body : String) :
    (d.dispatch path' body).observe react s = (d.dispatch path body).observe react s := by
  unfold dispatch
  rw [h]
  cases d.resolve? path with
  | none => simp only [observe_refuse]
  | some entry => exact observe_perform react s path path' body entry

theorem observe_measured {d : Dispatcher} {path path' : String}
    (h : d.resolve? path' = d.resolve? path) (body : String) :
    (d.measured path' body).observe react s = (d.measured path body).observe react s := by
  unfold measured
  rw [Task.observe_bind, Task.observe_bind, observe_dispatch react s h]

end Observe

/-- Two requests with one body whose paths name the event in different cases of the ASCII letters, and
go on in any way, are the same to all but the log: each is answered as the other, asks the scheduler the
same from whatever state, and is measured under the same labels. -/
theorem measured_of_same_spelling {d : Dispatcher} {path path' segment segment' : String}
    (hpath : Names d.root path segment) (hpath' : Names d.root path' segment')
    (hsame : Text.sameIgnoringAsciiCase segment.toList segment'.toList = true) (body : String) :
    (∀ (σ : Type) (react : σ → Call → Reply × σ) (s : σ),
      (d.measured path' body).observe react s = (d.measured path body).observe react s) ∧
    ∀ answer,
      ((d.measured path' body).run answer).1 = ((d.measured path body).run answer).1 ∧
      ((d.measured path' body).run answer).2.calls = ((d.measured path body).run answer).2.calls ∧
      ((d.measured path' body).run answer).2.metrics =
        ((d.measured path body).run answer).2.metrics := by
  have hobserved : ∀ (σ : Type) (react : σ → Call → Reply × σ) (s : σ),
      (d.measured path' body).observe react s = (d.measured path body).observe react s :=
    fun σ react s => observe_measured react s (resolve?_eq_of_same hpath hpath' hsame) body
  refine ⟨hobserved, fun answer => ?_⟩
  have hrun := hobserved Unit (fun s c => ((answer c).2, s)) ()
  rw [Task.observe_run, Task.observe_run, Observed.mk.injEq] at hrun
  exact ⟨hrun.1, hrun.2.1, hrun.2.2.1⟩

/-- A name that ends in a sigma, whose lower-case form hangs on the letter before it. -/
def sigmaDispatcher : Dispatcher :=
  ⟨(Registry.ofList [("opΣ", pingFactory)]).1, "team-events"⟩

theorem measured_of_same_spelling_sigma :
    Names sigmaDispatcher.root "/team-events/opΣ" "opΣ" ∧
    Names sigmaDispatcher.root "/team-events/OPΣ/again" "OPΣ" ∧
    Text.sameIgnoringAsciiCase "opΣ".toList "OPΣ".toList = true ∧
    (sigmaDispatcher.measured "/team-events/opΣ" "\x7b\x7d").observe
        (fun n _ => (.ok [], n + 1)) 0 =
      ⟨⟨.ok, "\x7b\x7d", some "opΣ"⟩, [], [.dispatched "opΣ" "ok", .duration "opΣ"], 0⟩ ∧
    (sigmaDispatcher.measured "/team-events/OPΣ/again" "\x7b\x7d").observe
        (fun n _ => (.ok [], n + 1)) 0 =
      (sigmaDispatcher.measured "/team-events/opΣ" "\x7b\x7d").observe
        (fun n _ => (.ok [], n + 1)) 0 := by
  have hpath : Names sigmaDispatcher.root "/team-events/opΣ" "opΣ" := ⟨by decide, .inl rfl⟩
  have hpath' : Names sigmaDispatcher.root "/team-events/OPΣ/again" "OPΣ" :=
    ⟨by decide, .inr ⟨"again", rfl⟩⟩
  have hsame : Text.sameIgnoringAsciiCase "opΣ".toList "OPΣ".toList = true := by decide
  exact ⟨hpath, hpath', hsame, by decide +kernel,
    (measured_of_same_spelling hpath hpath' hsame _).1 _ _ _⟩

end Dispatcher

end BuildHooks
