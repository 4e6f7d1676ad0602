import BuildHooks.Host.Serving.Course
import BuildHooks.Program
import BuildHooks.Proofs.Host.DamagedBody
import BuildHooks.Proofs.Host.InFlight
import BuildHooks.Proofs.Lifecycle.History

/-! Serving from when the host is told to serve until it returns, with everything that requests and
others do meanwhile. A host that was told to stop accepts nothing when it returns, and has stopped if
nothing is in flight. But the host is declared ready before its credentials are loaded, and a failure
from there on leaves its life as it is: a host that could not serve calls itself ready until somebody
triggers shutdown. The program is such a host, to whom nothing else happens. -/

namespace BuildHooks.Host

namespace Server

/-- The program closes its server as serving ends when nothing happens meanwhile. -/
theorem closing_eq (s : Server) :
    (Program.closing s).result = .ok ((s.move (.step .trigger)).wait []) := by
  have hlife : (Serving.finish s.life).life = s.life.trigger.drain.2 := by
    rw [Serving.finish]
    cases s.life.trigger.drain with
    | mk empty life => cases empty <;> rfl
  show Except.ok { s with life := (Serving.finish s.life).life } = _
  rw [hlife]
  rfl

/-- The program serves as a host does to whom nothing happens until somebody wants no more. -/
theorem program_serves (w : Program.Surroundings) (site : Site) (listener : Serving.Listener) :
    ((Program.openServer w site listener).bind Program.closing).result =
      match (ofSite site).serve ⟨some listener, w.files, [], [], none, []⟩ with
      | (s, .ok ()) => .ok s
      | (_, .error failure) => .error (.failed failure) := by
  unfold serve Program.openServer
  cases hcredentials : Serving.checkCredentials site.config w.files with
  | error fault =>
      simp only [Serving.begin, ofSite, hcredentials]
      rfl
  | ok =>
      simp only [Serving.begin, ofSite, hcredentials]
      exact closing_eq _

/-! ### What happens to a life -/

variable {s s' s'' : Server}

/-- The life of the server has gone on to that of the other, and nobody asked for shutdown. -/
def Unasked (s s' : Server) : Prop :=
  ∃ steps, s'.life = s.life.run steps ∧ Lifecycle.Step.trigger ∉ steps

theorem Unasked.refl (s : Server) : s.Unasked s :=
  ⟨[], rfl, List.not_mem_nil⟩

theorem Unasked.of_life_eq (h : s'.life = s.life) : s.Unasked s' :=
  ⟨[], h, List.not_mem_nil⟩

theorem Unasked.of_step (step : Lifecycle.Step) (hstep : step ≠ .trigger)
    (h : s'.life = s.life.step step) : s.Unasked s' :=
  ⟨[step], h, fun hmem => hstep (List.mem_singleton.mp hmem).symm⟩

theorem Unasked.trans (h : s.Unasked s') (h' : s'.Unasked s'') : s.Unasked s'' := by
  obtain ⟨steps, hlife, hsteps⟩ := h
  obtain ⟨others, hlife', hothers⟩ := h'
  refine ⟨steps ++ others, ?_, ?_⟩
  · rw [hlife', hlife, Lifecycle.run, Lifecycle.run, Lifecycle.run, List.foldl_append]
  · rw [List.mem_append, not_or]
    exact ⟨hsteps, hothers⟩

theorem unasked_giveUp (s : Server) (p : Pending) : s.Unasked (s.giveUp p) :=
  .of_step (.release p.guardNumber) (by simp) rfl

theorem unasked_start (s : Server) (id : Nat) (fresh : String) (uptime : Nat)
    (request : Http.Request) : s.Unasked (s.start id fresh uptime request).1 := by
  rcases s.start_cases id fresh uptime request with ⟨r, hstart⟩ | ⟨_, _, hstart⟩
  · rw [hstart]
    exact .refl s
  · rw [hstart]
    by_cases hserves : s.serves s.waiting.length (s.outcomeFor request).2.calls.length
    · obtain ⟨permits, hdispatch⟩ := startDispatch_of_serves id fresh hserves
      rw [hdispatch]
      exact ⟨[.acquire, .release s.life.issued], rfl, by simp⟩
    · obtain ⟨permits, call, next, t, hdispatch, _⟩ := startDispatch_of_not_serves id fresh hserves
      rw [hdispatch]
      exact .of_step .acquire (by simp) rfl

theorem unasked_resume (s : Server) (id : Nat) : s.Unasked (s.resume id).1 := by
  cases hpending : s.pending? id with
  | none =>
      rw [resume_of_none hpending]
      exact .refl s
  | some found =>
      obtain ⟨before, p⟩ := found
      obtain ⟨_, hid⟩ := mem_of_pending? hpending
      by_cases hreplies : s.Replies before p
      · obtain ⟨permits, t, hresume⟩ := Server.resume_of_replies hpending hid hreplies
        rw [hresume]
        exact (s.unasked_giveUp p).trans (.of_life_eq rfl)
      · rcases Server.resume_of_not_replies hpending hid hreplies with
          ⟨hsame, _⟩ | ⟨permits, call, next, t, hresume, _⟩
        · rw [hsame]
          exact .refl s
        · rw [hresume]
          exact .of_life_eq rfl

theorem unasked_finish (s : Server) (id : Nat) : s.Unasked (s.finish id).1 := by
  have hresume := s.unasked_resume id
  rw [finish]
  cases s.pending? id with
  | none => exact .refl s
  | some found =>
      dsimp only
      split
      · next h =>
        rw [h] at hresume
        exact hresume
      · next h =>
        rw [h] at hresume
        exact hresume.trans (unasked_giveUp _ _)

theorem unasked_abandon (s : Server) (id : Nat) : s.Unasked (s.abandon id).1 := by
  rw [abandon]
  cases s.pending? id with
  | none => exact .refl s
  | some found => exact s.unasked_giveUp _

theorem unasked_handle (s : Server) (id : Nat) (fresh : String) (uptime : Nat)
    (request : Http.Request) : s.Unasked (s.handle id fresh uptime request).1 := by
  have hstart := s.unasked_start id fresh uptime request
  rw [handle]
  split
  · next h =>
    rw [h] at hstart
    exact hstart
  · next s' _ h =>
    rw [h] at hstart
    have hfinish := hstart.trans (s'.unasked_finish id)
    split
    · next h' =>
      rw [h'] at hfinish
      exact hfinish
    · next h' =>
      rw [h'] at hfinish
      exact hfinish

/-- No step of a server but the one that asks for shutdown does so. -/
theorem unasked_step (s : Server) {step : Step} (hstep : step ≠ .trigger) :
    s.Unasked (s.step step).1 := by
  cases step with
  | handle fresh uptime request => exact s.unasked_handle s.nextId fresh uptime request
  | start fresh uptime request =>
      have hserver : (s.step (.start fresh uptime request)).1 =
          (s.start s.nextId fresh uptime request).1 := by
        rw [Server.step]
        split <;> next h => rw [h]
      rw [hserver]
      exact s.unasked_start s.nextId fresh uptime request
  | resume id =>
      have hserver : (s.step (.resume id)).1 = (s.resume id).1 := by
        rw [Server.step]
        split <;> next h => rw [h]
      rw [hserver]
      exact s.unasked_resume id
  | finish id =>
      have hserver : (s.step (.finish id)).1 = (s.finish id).1 := by
        rw [Server.step]
        split <;> next h => rw [h]
      rw [hserver]
      exact s.unasked_finish id
  | abandon id =>
      have hserver : (s.step (.abandon id)).1 = (s.abandon id).1 := by
        rw [Server.step]
        split <;> next h => rw [h]
      rw [hserver]
      exact s.unasked_abandon id
  | permit => exact .of_life_eq rfl
  | setReady => exact .of_step .setReady (by simp) rfl
  | trigger => exact absurd rfl hstep
  | drain => exact .of_step .look (by simp) rfl

theorem unasked_move (s : Server) {m : Move} (hm : m ≠ .step .trigger) : s.Unasked (s.move m) := by
  cases m with
  | step step => exact s.unasked_step fun hstep => hm (hstep ▸ rfl)
  | acquire => exact .of_step .acquire (by simp) rfl
  | release n => exact .of_step (.release n) (by simp) rfl

/-! ### What a host that returned is left as -/

theorem Unasked.acceptsEvents_iff (h : s.Unasked s') :
    s'.life.health.acceptsEvents = true ↔ s.life.health.acceptsEvents = true := by
  obtain ⟨steps, hlife, hsteps⟩ := h
  rw [hlife, Lifecycle.acceptsEvents_run]
  exact and_iff_left hsteps

theorem Unasked.stage_le (h : s.Unasked s') : s.life.health.stage ≤ s'.life.health.stage := by
  obtain ⟨steps, hlife, _⟩ := h
  rw [hlife]
  exact Lifecycle.stage_le_run s.life steps

/-- Events are accepted as long as nobody asks for shutdown. -/
theorem acceptsEvents_move (s : Server) (m : Move) :
    (s.move m).life.health.acceptsEvents = true ↔
      s.life.health.acceptsEvents = true ∧ m ≠ .step .trigger := by
  by_cases hm : m = .step .trigger
  · subst hm
    have htriggered : (s.move (.step .trigger)).life = s.life.run [.trigger] := rfl
    rw [htriggered, Lifecycle.acceptsEvents_run]
    simp
  · rw [(s.unasked_move hm).acceptsEvents_iff]
    exact (and_iff_left hm).symm

theorem acceptsEvents_moves (s : Server) (ms : List Move) :
    (s.moves ms).life.health.acceptsEvents = true ↔
      s.life.health.acceptsEvents = true ∧ Move.step .trigger ∉ ms := by
  induction ms generalizing s with
  | nil => simp [moves]
  | cons m ms ih =>
      calc
        ((s.move m).moves ms).life.health.acceptsEvents = true
          ↔ (s.move m).life.health.acceptsEvents = true ∧ Move.step .trigger ∉ ms := ih (s.move m)
        _ ↔ (s.life.health.acceptsEvents = true ∧ m ≠ .step .trigger) ∧ Move.step .trigger ∉ ms := by
          rw [acceptsEvents_move]
        _ ↔ s.life.health.acceptsEvents = true ∧ Move.step .trigger ∉ m :: ms := by
          rw [List.mem_cons, not_or, and_assoc, ne_comm]

theorem stage_le_move (s : Server) (m : Move) :
    s.life.health.stage ≤ (s.move m).life.health.stage := by
  by_cases hm : m = .step .trigger
  · subst hm
    exact Lifecycle.stage_le_step s.life .trigger
  · exact (s.unasked_move hm).stage_le

theorem stage_le_moves (s : Server) (ms : List Move) :
    s.life.health.stage ≤ (s.moves ms).life.health.stage := by
  induction ms generalizing s with
  | nil => exact Nat.le_refl _
  | cons m ms ih => exact (s.stage_le_move m).trans (ih (s.move m))

theorem moves_append (s : Server) (ms others : List Move) :
    s.moves (ms ++ others) = (s.moves ms).moves others :=
  List.foldl_append

/-- Whatever happens while it is waited, the last thing is a look at what is in flight. -/
theorem exists_wait_eq (s : Server) (turns : List (List Move)) :
    ∃ ms, s.wait turns = (s.moves ms).move (.step .drain) := by
  induction turns generalizing s with
  | nil => exact ⟨[], rfl⟩
  | cons others turns ih =>
      rw [wait]
      split
      · exact ⟨[], rfl⟩
      · obtain ⟨ms, hms⟩ := ih ((s.move (.step .drain)).moves others)
        refine ⟨.step .drain :: (others ++ ms), ?_⟩
        rw [hms, ← moves_append]
        rfl

/-- Shutdown was asked for, and the host has stopped unless something is in flight. -/
def Ended (s : Server) : Prop :=
  s.life.health.acceptsEvents = false ∧ (s.life.inFlight = 0 → s.life.health = .stopped)

theorem ended_look (h : s.life.health.acceptsEvents = false) :
    (s.move (.step .drain)).Ended := by
  have hlife : (s.move (.step .drain)).life = s.life.drain.2 := rfl
  have hcases : s.life.health = .draining ∨ s.life.health = .stopped := by
    cases hhealth : s.life.health <;> simp_all [Health.acceptsEvents]
  rw [Ended, hlife, Lifecycle.drain_eq]
  by_cases hheld : s.life.held = []
  · rcases hcases with hhealth | hhealth <;> simp [hheld, hhealth, Health.acceptsEvents]
  · simp [hheld, h, Lifecycle.inFlight]

theorem ended_wait (h : s.life.health.acceptsEvents = false) (turns : List (List Move)) :
    (s.wait turns).Ended := by
  obtain ⟨ms, hms⟩ := s.exists_wait_eq turns
  rw [hms]
  apply ended_look
  rw [Bool.eq_false_iff]
  exact fun haccepts => Bool.eq_false_iff.mp h ((s.acceptsEvents_moves ms).mp haccepts).1

/-- The host is ready if nobody ever asked for shutdown, during these moves or before them, and else it
accepts nothing. -/
def ReadyUnlessAsked (s : Server) (ms : List Move) (s' : Server) : Prop :=
  (s'.life.health = .ready ↔ s.life.health.acceptsEvents = true ∧ Move.step .trigger ∉ ms) ∧
    (s'.life.health ≠ .ready → s'.life.health.acceptsEvents = false)

/-- A host that was declared ready stays so. -/
theorem readyUnlessAsked_moves (s : Server) (ms : List Move) :
    s.ReadyUnlessAsked ms ((s.withLife Lifecycle.setReady).moves ms) := by
  have hbegun : ∀ l : Lifecycle, 1 ≤ l.setReady.health.stage := by
    intro l
    rw [Lifecycle.setReady_eq]
    cases l.health <;> simp [Health.stage]
  have hready : ∀ health : Health, 1 ≤ health.stage →
      (health = .ready ↔ health.acceptsEvents = true) := by
    rintro (_ | _ | _ | _) <;> decide
  have hstage := (hbegun s.life).trans ((s.withLife Lifecycle.setReady).stage_le_moves ms)
  have haccepts : (s.withLife Lifecycle.setReady).life.health.acceptsEvents = true ↔
      s.life.health.acceptsEvents = true := by
    show (s.life.step .setReady).health.acceptsEvents = true ↔ _
    rw [Lifecycle.acceptsEvents_step]
    simp
  constructor
  · rw [hready _ hstage, acceptsEvents_moves, haccepts]
  · rw [Ne, hready _ hstage, Bool.not_eq_true]
    exact id

/-- How a host is left when it has served. -/
structure Returned (s : Server) (c : Serving.Course) : Prop where
  /-- A host that does not listen is not declared ready. -/
  unheard : c.listening = none → (s.serve c).2 = .error Serving.notListening
  /-- A host that served until somebody wanted no more accepts nothing, and has stopped unless something
  is in flight. -/
  served : ∀ listener, c.listening = some listener →
    Serving.checkCredentials s.site.config c.files = .ok () → c.broken = none →
    (s.serve c).2 = .ok () ∧ (s.serve c).1.Ended
  /-- A host that could not serve is left as it was declared. -/
  refused : ∀ listener fault, c.listening = some listener →
    Serving.checkCredentials s.site.config c.files = .error fault →
    (s.serve c).2 = .error (.of fault.message) ∧ s.ReadyUnlessAsked c.loading (s.serve c).1
  /-- So is a host that could not go on. -/
  broke : ∀ listener failure, c.listening = some listener →
    Serving.checkCredentials s.site.config c.files = .ok () → c.broken = some failure →
    (s.serve c).2 = .error failure ∧
      s.ReadyUnlessAsked (c.loading ++ c.serving) (s.serve c).1

theorem serve_returned (s : Server) (c : Serving.Course) : s.Returned c where
  unheard := by
    intro hlistening
    rw [serve, hlistening]
    rfl
  served := by
    intro listener hlistening hcredentials hbroken
    rw [serve, hlistening, hbroken]
    simp only [Serving.begin, hcredentials]
    refine ⟨trivial, ?_⟩
    apply ended_wait
    rw [Bool.eq_false_iff, Ne, acceptsEvents_move]
    exact fun h => h.2 rfl
  refused := by
    intro listener fault hlistening hcredentials
    rw [serve, hlistening]
    simp only [Serving.begin, hcredentials]
    exact ⟨trivial, s.readyUnlessAsked_moves c.loading⟩
  broke := by
    intro listener failure hlistening hcredentials hbroken
    rw [serve, hlistening, hbroken]
    simp only [Serving.begin, hcredentials]
    refine ⟨trivial, ?_⟩
    rw [← moves_append]
    exact s.readyUnlessAsked_moves (c.loading ++ c.serving)

end Server

/-- The stock site, to be served over TLS. -/
def encryptedSite : Site :=
  { stockSite with config := { Config.default with tls := some ⟨"cert.pem", "key.pem"⟩ } }

/-- A host listens, but the files with its credentials are not there. Nothing else happens. -/
def withoutFiles : Serving.Course where
  listening := some ⟨"127.0.0.1", 8080⟩
  files := fun _ => .error .missing
  loading := []
  serving := []
  broken := none
  turns := []

/-- A host whose certificate is missing has failed to serve and calls itself ready all the same. -/
theorem ready_after_refusal :
    Site.make? encryptedSite.config .default .default (.constant .atOnce (.ok [])) 0 =
      some encryptedSite ∧
    ((Server.ofSite encryptedSite).serve withoutFiles).2 =
      .error (.of (Credentials.Fault.unreadable "cert.pem" .missing).message) ∧
    ((Server.ofSite encryptedSite).serve withoutFiles).1.life.health = .ready ∧
    ((Server.ofSite encryptedSite).serve withoutFiles).1.life.health.acceptsEvents = true :=
  ⟨make?_stockSite encryptedSite.config, rfl, rfl, rfl⟩

end BuildHooks.Host
