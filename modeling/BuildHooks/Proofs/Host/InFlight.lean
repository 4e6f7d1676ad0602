import BuildHooks.Proofs.Host.Sound

/-! What is in flight. A step leaves the pending requests as they are, or lets one more wait that passed
the health check, or takes one of them out; whichever it does, the guards that are held stay as many as
the requests that are pending. A request that passed the check is answered as it is due, or does wait if
a reply is missing. Once shutdown is asked for no request passes the check any more, and those that are
pending still get the answers that they are due. -/

namespace BuildHooks.Host

/-- A request that the router hands to the events. -/
def Site.TakesEvent (site : Site) (request : Http.Request) : Prop :=
  request.method = "POST" ∧
    ∃ route, site.routes.find? request.path = some route ∧ route.methods.contains "POST" = true

namespace Server

variable {s : Server}

/-- A request that does not come to be dispatched is answered and leaves the server as it was. -/
theorem start_cases (s : Server) (id : Nat) (fresh : String) (uptime : Nat) (request : Http.Request) :
    (∃ r, s.start id fresh uptime request = (s, .answered r, .empty)) ∨
      (s.site.TakesEvent request ∧ s.Accepts request ∧
        s.start id fresh uptime request = s.startDispatch id fresh request) := by
  unfold start
  split
  · exact .inl ⟨_, rfl⟩
  · split
    · exact .inl ⟨_, rfl⟩
    · next route hroute =>
      split
      · exact .inl ⟨_, rfl⟩
      · next hmethods =>
        split
        · next hpost =>
          rw [hpost] at hmethods
          by_cases haccepts : s.Accepts request
          · exact .inr ⟨⟨hpost, route, hroute, by simpa using hmethods⟩, haccepts,
              startEvent_of_accepts id fresh haccepts⟩
          · refine .inl ?_
            unfold startEvent
            split
            · exact ⟨_, rfl⟩
            · next hsize =>
              split
              · exact ⟨_, rfl⟩
              · next hhealth =>
                exact absurd ⟨by omega, by simpa using hhealth⟩ haccepts
        · exact .inl ⟨_, rfl⟩

/-- The server goes on soundly, for the same site, and does not forget that shutdown was asked for. -/
structure Follows (s s' : Server) : Prop where
  sound : s'.Sound
  site : s'.site = s.site
  signalled : s.life.signalled = true → s'.life.signalled = true

theorem Sound.follows_self (h : s.Sound) : s.Follows s :=
  ⟨h, rfl, id⟩

theorem Follows.trans {s' s'' : Server} (h : s.Follows s') (h' : s'.Follows s'') : s.Follows s'' :=
  ⟨h'.sound, h'.site.trans h.site, fun hs => h'.signalled (h.signalled hs)⟩

/-- A request that comes in is answered, or it passed the health check and waits. -/
theorem Sound.start (h : s.Sound) (fresh : String) (uptime : Nat) (request : Http.Request) :
    ∃ s' t, s.Follows s' ∧
      ((∃ r, s.start s.nextId fresh uptime request = (s', .answered r, t) ∧ s'.opens = s.opens) ∨
        (s.start s.nextId fresh uptime request = (s', .pending, t) ∧ s.site.TakesEvent request ∧
          s.Accepts request ∧ s'.opens = s.opens ++ [⟨s.nextId, request, fresh⟩])) := by
  rcases s.start_cases s.nextId fresh uptime request with ⟨r, hstart⟩ | ⟨htakes, haccepts, hstart⟩
  · exact ⟨s, _, h.follows_self, .inl ⟨r, hstart, rfl⟩⟩
  · rw [hstart]
    by_cases hserves : s.serves s.waiting.length (s.outcomeFor request).2.calls.length
    · obtain ⟨permits, hdispatch⟩ := startDispatch_of_serves s.nextId fresh hserves
      rw [hdispatch]
      exact ⟨_, _, ⟨h.served permits, rfl, id⟩, .inl ⟨_, rfl, rfl⟩⟩
    · obtain ⟨permits, call, next, t, hdispatch, hresult⟩ :=
        startDispatch_of_not_serves s.nextId fresh hserves
      have howes : s.Owes ⟨s.nextId, request, fresh, s.life.issued, call, next⟩ := hresult.symm
      rw [hdispatch]
      refine ⟨_, t, ⟨h.kept permits rfl rfl howes haccepts.2, rfl, id⟩,
        .inr ⟨rfl, htakes, haccepts, ?_⟩⟩
      unfold opens
      rw [List.map_append]
      rfl

/-- A pending request and the others. -/
theorem perm_cons_filter_id {ps : List Pending} (hnodup : (ps.map Pending.id).Nodup) {p : Pending}
    (hp : p ∈ ps) : ps.Perm (p :: ps.filter fun q => q.id != p.id) := by
  induction ps with
  | nil => cases hp
  | cons q ps ih =>
      rw [List.map_cons, List.nodup_cons] at hnodup
      rcases List.mem_cons.mp hp with rfl | hp
      · rw [List.filter_cons_of_neg (by simp), List.filter_eq_self.mpr]
        intro r hr
        rw [bne_iff_ne]
        exact fun hid => hnodup.1 (List.mem_map.mpr ⟨r, hr, hid⟩)
      · have hne : q.id ≠ p.id := fun hid => hnodup.1 (List.mem_map.mpr ⟨p, hp, hid.symm⟩)
        rw [List.filter_cons_of_pos (by simpa using hne)]
        exact ((ih hnodup.2 hp).cons q).trans (.swap p q _)

theorem opens_giveUp (s : Server) (p : Pending) :
    (s.giveUp p).opens = s.opens.filter fun o => o.id != p.id := by
  change (s.waiting.filter fun q => q.id != p.id).map Pending.opened = _
  unfold opens
  rw [List.filter_map]
  rfl

theorem Sound.follows_giveUp (h : s.Sound) {p : Pending} (hp : p ∈ s.waiting) :
    s.Follows (s.giveUp p) :=
  ⟨h.giveUp hp, rfl, id⟩

/-- A pending request that is replied to gets the answer it is due, and leaves. -/
theorem Sound.resume_of_replies (h : s.Sound) {id before : Nat} {p : Pending}
    (hpending : s.pending? id = some (before, p)) (hreplies : s.Replies before p) :
    ∃ s' t, s.resume id = (s', some (.answered (s.due p.fresh p.request)), t) ∧ s.Follows s' ∧
      s'.opens = s.opens.filter fun o => o.id != id := by
  obtain ⟨hmem, hid⟩ := mem_of_pending? hpending
  obtain ⟨permits, t, hresume⟩ := Server.resume_of_replies hpending hid hreplies
  rw [h.owes p hmem] at hresume
  refine ⟨_, t, hresume, ⟨(h.giveUp hmem).permits permits, rfl, fun hs => hs⟩, ?_⟩
  rw [← hid]
  exact s.opens_giveUp p

/-- A pending request that is not replied to stays pending. -/
theorem Sound.resume_of_not_replies (h : s.Sound) {id before : Nat} {p : Pending}
    (hpending : s.pending? id = some (before, p)) (hreplies : ¬s.Replies before p) :
    ∃ s' t q, s.resume id = (s', some .pending, t) ∧ s.Follows s' ∧ s'.opens.Perm s.opens ∧
      q ∈ s'.waiting ∧ q.id = p.id ∧ q.guardNumber = p.guardNumber := by
  obtain ⟨hmem, hid⟩ := mem_of_pending? hpending
  rcases Server.resume_of_not_replies hpending hid hreplies with
    ⟨hserver, hpend⟩ | ⟨permits, call, next, t, hresume, hresult⟩
  · exact ⟨s, _, p, Prod.ext hserver (Prod.ext hpend rfl), h.follows_self, .refl _, hmem, rfl, rfl⟩
  · refine ⟨_, t, { p with call, next }, hresume,
      ⟨h.requeued permits hmem rfl rfl (hresult.symm.trans (h.owes p hmem)), rfl, fun hs => hs⟩, ?_,
      List.mem_append_right _ (List.mem_singleton_self _), rfl, rfl⟩
    unfold opens
    rw [List.map_append]
    refine (List.perm_append_singleton _ _).trans ?_
    exact ((perm_cons_filter_id h.nodup hmem).map Pending.opened).symm

/-- A pending request that is finished gets the answer it is due if it is replied to, and is given up
otherwise. It leaves in either case. -/
theorem Sound.finish (h : s.Sound) {id before : Nat} {p : Pending}
    (hpending : s.pending? id = some (before, p)) :
    ∃ s' r t, s.finish id = (s', some r, t) ∧ s.Follows s' ∧
      s'.opens.Perm (s.opens.filter fun o => o.id != id) ∧
      (s.Replies before p → r = s.due p.fresh p.request) ∧
      (¬s.Replies before p → r = s.site.timedOut p.request) := by
  obtain ⟨hmem, hid⟩ := mem_of_pending? hpending
  unfold Server.finish
  rw [hpending]
  simp only
  by_cases hreplies : s.Replies before p
  · obtain ⟨s', t, hresume, hfollows, hopens⟩ := h.resume_of_replies hpending hreplies
    rw [hresume]
    exact ⟨s', _, t, rfl, hfollows, .of_eq hopens, fun _ => rfl, fun hnot => absurd hreplies hnot⟩
  · obtain ⟨s', t, q, hresume, hfollows, hopens, hq, hqid, hqguard⟩ :=
      h.resume_of_not_replies hpending hreplies
    have hgiveUp : s'.giveUp p = s'.giveUp q := by
      unfold Server.giveUp
      rw [hqid, hqguard]
    rw [hresume]
    refine ⟨s'.giveUp p, _, t, rfl, ?_, ?_, fun hyes => absurd hyes hreplies, fun _ => ?_⟩
    · rw [hgiveUp]
      exact hfollows.trans (hfollows.sound.follows_giveUp hq)
    · rw [opens_giveUp, hid]
      exact hopens.filter _
    · rw [hfollows.site]

/-- A pending request that is dropped leaves. -/
theorem Sound.abandon (h : s.Sound) {id before : Nat} {p : Pending}
    (hpending : s.pending? id = some (before, p)) :
    s.abandon id = (s.giveUp p, true) ∧ s.Follows (s.giveUp p) ∧
      (s.giveUp p).opens = s.opens.filter fun o => o.id != id := by
  obtain ⟨hmem, hid⟩ := mem_of_pending? hpending
  refine ⟨?_, h.follows_giveUp hmem, ?_⟩
  · unfold Server.abandon
    rw [hpending]
  · rw [opens_giveUp, hid]

theorem Sound.nextId_notMem (h : s.Sound) : s.nextId ∉ s.opens.map Open.id := by
  rw [map_id_opens]
  intro hmem
  obtain ⟨p, hp, hid⟩ := List.mem_map.mp hmem
  have := h.issued p hp
  unfold nextId at hid
  omega

/-- A request that is handled to its end leaves the pending requests as they were. -/
theorem Sound.handle (h : s.Sound) (fresh : String) (uptime : Nat) (request : Http.Request) :
    ∃ s' r t, s.handle s.nextId fresh uptime request = (s', r, t) ∧ s.Follows s' ∧
      s'.opens.Perm s.opens := by
  obtain ⟨s', t, hfollows, ⟨r, hstart, hopens⟩ | ⟨hstart, _, _, hopens⟩⟩ := h.start fresh uptime request
  · unfold Server.handle
    rw [hstart]
    exact ⟨s', r, t, rfl, hfollows, .of_eq hopens⟩
  · have hmem : s.nextId ∈ s'.waiting.map Pending.id := by
      rw [← map_id_opens, hopens, List.map_append]
      exact List.mem_append_right _ (List.mem_singleton_self _)
    obtain ⟨before, p, hpending⟩ := exists_pending? hmem
    obtain ⟨s'', r, u, hfinish, hfollows', hopens', _⟩ := hfollows.sound.finish hpending
    unfold Server.handle
    rw [hstart]
    simp only
    rw [hfinish]
    refine ⟨s'', r, _, rfl, hfollows.trans hfollows', hopens'.trans (.of_eq ?_)⟩
    rw [hopens, List.filter_append, List.filter_eq_self.mpr]
    · simp
    · intro o ho
      rw [bne_iff_ne]
      exact fun hid => h.nextId_notMem (List.mem_map.mpr ⟨o, ho, hid⟩)

/-- A request for an event goes on to the health check. -/
theorem start_of_takes {request : Http.Request} (htakes : s.site.TakesEvent request) (id : Nat)
    (fresh : String) (uptime : Nat) :
    s.start id fresh uptime request = s.startEvent id fresh request := by
  obtain ⟨hpost, route, hroute, hmethods⟩ := htakes
  unfold Server.start
  rw [if_neg (by rw [hpost]; decide), hroute]
  simp only
  rw [hpost, hmethods, if_neg (by decide), if_pos rfl]

theorem finish_of_not_granted {id before : Nat} {p : Pending}
    (hpending : s.pending? id = some (before, p)) (hgranted : s.granted before = false) :
    s.finish id = (s.giveUp p, some (s.site.timedOut p.request), .empty) := by
  have hresume : s.resume id = (s, some .pending, .empty) := by
    unfold Server.resume
    rw [hpending]
    simp only
    rw [if_neg (by rw [hgranted]; decide)]
  unfold Server.finish
  rw [hpending]
  simp only
  rw [hresume]

/-- A request that is accepted while a reply is missing is given up when it is handled to its end. -/
theorem Sound.handle_of_not_serves (h : s.Sound) (fresh : String) (uptime : Nat)
    {request : Http.Request} (htakes : s.site.TakesEvent request) (haccepts : s.Accepts request)
    (hserves : ¬s.serves s.waiting.length (s.outcomeFor request).2.calls.length) :
    (s.handle s.nextId fresh uptime request).2.1 = s.site.timedOut request := by
  have hgranted := not_granted_of_startDispatch s.nextId fresh hserves
  obtain ⟨permits, call, next, t, hdispatch, _⟩ :=
    startDispatch_of_not_serves s.nextId fresh hserves
  have hnew : s.nextId ∉ s.waiting.map Pending.id := by
    rw [← map_id_opens]
    exact h.nextId_notMem
  unfold Server.handle
  rw [start_of_takes htakes, startEvent_of_accepts s.nextId fresh haccepts]
  rw [hdispatch] at hgranted ⊢
  simp only
  rw [finish_of_not_granted (pending?_of_waiting_eq rfl hnew) hgranted]

theorem resume_of_none {id : Nat} (h : s.pending? id = none) : s.resume id = (s, none, .empty) := by
  unfold resume
  rw [h]

theorem finish_of_none {id : Nat} (h : s.pending? id = none) : s.finish id = (s, none, .empty) := by
  unfold finish
  rw [h]

theorem abandon_of_none {id : Nat} (h : s.pending? id = none) : s.abandon id = (s, false) := by
  unfold abandon
  rw [h]

end Server

/-- Nothing is seen of a pending request. -/
def Seen.Quiet : Seen → Prop
  | .nothing | .answered _ | .drained _ => True
  | .opened _ | .closed _ _ | .dropped _ => False

/-- What was seen of the end of one pending request is not seen of the end of another. -/
theorem Seen.left_unique {seen : Seen} {id id' : Nat}
    (h : (∃ r, seen = .closed id r) ∨ seen = .dropped id)
    (h' : (∃ r, seen = .closed id' r) ∨ seen = .dropped id') : id' = id := by
  rcases h with ⟨r, rfl⟩ | rfl
  · rcases h' with ⟨r', h'⟩ | h'
    · cases h'
      rfl
    · cases h'
  · rcases h' with ⟨r', h'⟩ | h'
    · cases h'
    · cases h'
      rfl

theorem Seen.not_quiet_of_left {seen : Seen} {id : Nat}
    (h : (∃ r, seen = .closed id r) ∨ seen = .dropped id) : ¬seen.Quiet := by
  intro hquiet
  rcases h with ⟨r, rfl⟩ | rfl
  · cases hquiet
  · cases hquiet

/-- What a step that was seen like this has done to the pending requests. -/
inductive Effect (s s' : Server) : Step → Seen → Prop where
  | kept (step : Step) (seen : Seen) (hquiet : seen.Quiet) (hopens : s'.opens.Perm s.opens) :
      Effect s s' step seen
  | opened (fresh : String) (uptime : Nat) (request : Http.Request)
      (htakes : s.site.TakesEvent request) (haccepts : s.Accepts request)
      (hopens : s'.opens = s.opens ++ [⟨s.nextId, request, fresh⟩]) :
      Effect s s' (.start fresh uptime request) (.opened s.nextId)
  | left (step : Step) (seen : Seen) (id : Nat)
      (hseen : (∃ r, seen = .closed id r) ∨ seen = .dropped id) (hmem : id ∈ s.opens.map Open.id)
      (hopens : s'.opens.Perm (s.opens.filter fun o => o.id != id)) : Effect s s' step seen

namespace Server

variable {s : Server}

theorem mem_opens_of_pending? {id before : Nat} {p : Pending}
    (h : s.pending? id = some (before, p)) : id ∈ s.opens.map Open.id := by
  obtain ⟨hmem, hid⟩ := mem_of_pending? h
  rw [map_id_opens]
  exact List.mem_map.mpr ⟨p, hmem, hid⟩

/-- Every step is one of the three, and the server goes on soundly after it. -/
theorem Sound.step (h : s.Sound) (step : Step) :
    s.Follows (s.step step).1 ∧ Effect s (s.step step).1 step (s.step step).2.1 := by
  cases step with
  | handle fresh uptime request =>
      obtain ⟨s', r, t, hhandle, hfollows, hopens⟩ := h.handle fresh uptime request
      unfold Server.step
      simp only
      rw [hhandle]
      exact ⟨hfollows, .kept _ _ trivial hopens⟩
  | start fresh uptime request =>
      obtain ⟨s', t, hfollows, ⟨r, hstart, hopens⟩ | ⟨hstart, htakes, haccepts, hopens⟩⟩ :=
        h.start fresh uptime request
      · unfold Server.step
        simp only
        rw [hstart]
        exact ⟨hfollows, .kept _ _ trivial (.of_eq hopens)⟩
      · unfold Server.step
        simp only
        rw [hstart]
        exact ⟨hfollows, .opened fresh uptime request htakes haccepts hopens⟩
  | resume id =>
      unfold Server.step
      simp only
      cases hpending : s.pending? id with
      | none =>
          rw [resume_of_none hpending]
          exact ⟨h.follows_self, .kept _ _ trivial (.refl _)⟩
      | some found =>
          obtain ⟨before, p⟩ := found
          by_cases hreplies : s.Replies before p
          · obtain ⟨s', t, hresume, hfollows, hopens⟩ := h.resume_of_replies hpending hreplies
            rw [hresume]
            exact ⟨hfollows, .left _ _ id (.inl ⟨_, rfl⟩) (mem_opens_of_pending? hpending)
              (.of_eq hopens)⟩
          · obtain ⟨s', t, q, hresume, hfollows, hopens, _⟩ :=
              h.resume_of_not_replies hpending hreplies
            rw [hresume]
            exact ⟨hfollows, .kept _ _ trivial hopens⟩
  | finish id =>
      unfold Server.step
      simp only
      cases hpending : s.pending? id with
      | none =>
          rw [finish_of_none hpending]
          exact ⟨h.follows_self, .kept _ _ trivial (.refl _)⟩
      | some found =>
          obtain ⟨s', r, t, hfinish, hfollows, hopens, _⟩ := h.finish hpending
          rw [hfinish]
          exact ⟨hfollows, .left _ _ id (.inl ⟨_, rfl⟩) (mem_opens_of_pending? hpending) hopens⟩
  | abandon id =>
      unfold Server.step
      simp only
      cases hpending : s.pending? id with
      | none =>
          rw [abandon_of_none hpending]
          exact ⟨h.follows_self, .kept _ _ trivial (.refl _)⟩
      | some found =>
          obtain ⟨habandon, hfollows, hopens⟩ := h.abandon hpending
          rw [habandon]
          exact ⟨hfollows, .left _ _ id (.inr rfl) (mem_opens_of_pending? hpending) (.of_eq hopens)⟩
  | permit => exact ⟨⟨h.permits _, rfl, id⟩, .kept _ _ trivial (.refl _)⟩
  | setReady =>
      refine ⟨⟨h.setReady, rfl, fun hs => ?_⟩, .kept _ _ trivial (.refl _)⟩
      change (s.life.setReady).signalled = true
      unfold Lifecycle.setReady
      split
      · exact hs
      · exact hs
  | trigger => exact ⟨⟨h.trigger, rfl, fun _ => rfl⟩, .kept _ _ trivial (.refl _)⟩
  | drain =>
      refine ⟨⟨h.drain, rfl, fun hs => ?_⟩, .kept _ _ trivial (.refl _)⟩
      change (s.life.drain.2).signalled = true
      unfold Lifecycle.drain
      split
      · split
        · exact hs
        · exact hs
      · exact hs

theorem Sound.length_filter_opens (h : s.Sound) {id : Nat} (hmem : id ∈ s.opens.map Open.id) :
    (s.opens.filter fun o => o.id != id).length + 1 = s.opens.length := by
  rw [map_id_opens] at hmem
  obtain ⟨p, hp, rfl⟩ := List.mem_map.mp hmem
  rw [← opens_giveUp]
  unfold opens
  rw [List.length_map, List.length_map, (perm_cons_filter_id h.nodup hp).length_eq,
    List.length_cons]
  rfl

end Server

namespace Effect

variable {s s' : Server} {step : Step} {seen : Seen}

/-- The requests that were seen to be pending are the pending ones after the step as before it. -/
theorem openAfter (h : Effect s s' step seen) {opened : List Open} (hperm : opened.Perm s.opens) :
    (step.openAfter opened seen).Perm s'.opens := by
  cases h with
  | kept step seen hquiet hopens =>
      have hsame : step.openAfter opened seen = opened := by
        cases seen <;> cases hquiet <;> cases step <;> rfl
      rw [hsame]
      exact hperm.trans hopens.symm
  | opened fresh uptime request htakes haccepts hopens =>
      rw [hopens]
      exact hperm.append_right _
  | left step seen id hseen hmem hopens =>
      have hsame : step.openAfter opened seen = opened.filter fun o => o.id != id := by
        rcases hseen with ⟨r, rfl⟩ | rfl
        · cases step <;> rfl
        · cases step <;> rfl
      rw [hsame]
      exact (hperm.filter _).trans hopens.symm

/-- One request more is in flight when one was seen to be pending, and it passed the health check. -/
theorem of_opened {id : Nat} (h : Effect s s' step (.opened id)) (hs : s.Sound) (hs' : s'.Sound) :
    (∃ fresh uptime request, step = .start fresh uptime request ∧ s.site.TakesEvent request ∧
      s.Accepts request) ∧ s'.life.inFlight = s.life.inFlight + 1 := by
  rw [hs.inFlight_eq, hs'.inFlight_eq]
  cases h with
  | kept step seen hquiet hopens => cases hquiet
  | opened fresh uptime request htakes haccepts hopens =>
      refine ⟨⟨fresh, uptime, request, rfl, htakes, haccepts⟩, ?_⟩
      rw [hopens, List.length_append, List.length_singleton]
  | left step seen id hseen hmem hopens =>
      rcases hseen with ⟨r, hseen⟩ | hseen
      · cases hseen
      · cases hseen

/-- One request less is in flight when one was seen to be answered or dropped. -/
theorem of_left {id : Nat} (h : Effect s s' step seen)
    (hseen : (∃ r, seen = .closed id r) ∨ seen = .dropped id) (hs : s.Sound) (hs' : s'.Sound) :
    id ∈ s.opens.map Open.id ∧ s'.life.inFlight + 1 = s.life.inFlight := by
  rw [hs.inFlight_eq, hs'.inFlight_eq]
  cases h with
  | kept step seen hquiet hopens => exact absurd hquiet (Seen.not_quiet_of_left hseen)
  | opened fresh uptime request htakes haccepts hopens =>
      rcases hseen with ⟨r, hseen⟩ | hseen
      · cases hseen
      · cases hseen
  | left step seen id' hseen' hmem hopens =>
      cases Seen.left_unique hseen hseen'
      rw [hopens.length_eq]
      exact ⟨hmem, hs.length_filter_opens hmem⟩

/-- As many requests are in flight as before when nothing was seen of them. -/
theorem of_quiet (h : Effect s s' step seen) (hquiet : seen.Quiet) (hs : s.Sound) (hs' : s'.Sound) :
    s'.life.inFlight = s.life.inFlight := by
  rw [hs.inFlight_eq, hs'.inFlight_eq]
  cases h with
  | kept step seen hquiet hopens => exact hopens.length_eq
  | opened => cases hquiet
  | left step seen id hseen hmem hopens => exact absurd hquiet (Seen.not_quiet_of_left hseen)

/-- Once shutdown is asked for, no step makes more requests wait. -/
theorem count_le (h : Effect s s' step seen) (hsignalled : s.life.signalled = true) (hs : s.Sound)
    (hs' : s'.Sound) : s'.life.inFlight ≤ s.life.inFlight := by
  cases h with
  | kept step seen hquiet hopens =>
      exact Nat.le_of_eq ((Effect.kept step seen hquiet hopens).of_quiet hquiet hs hs')
  | opened fresh uptime request htakes haccepts hopens =>
      have hhealth := hs.signalled
      rw [hsignalled, haccepts.2] at hhealth
      cases hhealth
  | left step seen id hseen hmem hopens =>
      have hcount := ((Effect.left step seen id hseen hmem hopens).of_left hseen hs hs').2
      omega

end Effect

namespace Server

/-- What holds of a server at which these requests were seen to be pending, whatever happens next. -/
structure Accounted (s : Server) (opened : List Open) : Prop where
  /-- As many requests are in flight as are pending. -/
  count : s.life.inFlight = opened.length
  /-- Draining finds nothing in flight exactly if nothing is pending. -/
  drain : (s.step .drain).2.1 = .drained opened.isEmpty
  stopped : s.life.health = .stopped → opened = []
  /-- Only a request for an event that passed the health check comes to be pending. -/
  opening : ∀ step id, (s.step step).2.1 = .opened id →
    (∃ fresh uptime request, step = .start fresh uptime request ∧ s.site.TakesEvent request ∧
      s.Accepts request) ∧ (s.step step).1.life.inFlight = s.life.inFlight + 1
  /-- Whatever ends a pending request takes it out of flight. -/
  ending : ∀ step id, (∃ r, (s.step step).2.1 = .closed id r) ∨ (s.step step).2.1 = .dropped id →
    id ∈ opened.map Open.id ∧ (s.step step).1.life.inFlight + 1 = s.life.inFlight
  /-- A request for an event that passed the health check is answered as it is due if there are replies for
  all that it asks. Otherwise it comes to be pending and takes a guard, or is given up when it is handled to
  its end. -/
  admitting : ∀ fresh uptime request, s.site.TakesEvent request → s.Accepts request →
    (s.serves s.waiting.length (s.outcomeFor request).2.calls.length →
      (s.step (.start fresh uptime request)).2.1 = .answered (s.due fresh request) ∧
      (s.step (.handle fresh uptime request)).2.1 = .answered (s.due fresh request)) ∧
    (¬s.serves s.waiting.length (s.outcomeFor request).2.calls.length →
      (s.step (.start fresh uptime request)).2.1 = .opened s.nextId ∧
      (s.step (.start fresh uptime request)).1.life.inFlight = s.life.inFlight + 1 ∧
      (s.step (.handle fresh uptime request)).2.1 = .answered (s.site.timedOut request))
  quiet : ∀ step, (s.step step).2.1.Quiet → (s.step step).1.life.inFlight = s.life.inFlight
  /-- Shutdown is asked for by triggering it. -/
  triggered : (s.step .trigger).1.life.signalled = true
  /-- Once shutdown is asked for it stays so, and the count never grows. -/
  shrinking : s.life.signalled = true → ∀ step, (s.step step).1.life.signalled = true ∧
    (s.step step).1.life.inFlight ≤ s.life.inFlight
  /-- From then on requests for events are refused, and nothing is asked or measured for them. -/
  refusing : s.life.signalled = true → ∀ fresh uptime request, s.site.TakesEvent request →
    request.body.length ≤ Site.maxBody →
    ∃ r, r.status = 503 ∧ s.step (.handle fresh uptime request) = (s, .answered r, .empty) ∧
      s.step (.start fresh uptime request) = (s, .answered r, .empty)
  /-- A pending request gets the answer it is due as soon as it is replied to, and waits until then
  unless it is given up. -/
  finishing : ∀ o ∈ opened, ∃ before p, s.pending? o.id = some (before, p) ∧
    (s.Replies before p →
      (s.step (.resume o.id)).2.1 = .closed o.id (s.due o.fresh o.request) ∧
      (s.step (.finish o.id)).2.1 = .closed o.id (s.due o.fresh o.request)) ∧
    (¬s.Replies before p →
      (s.step (.resume o.id)).2.1 = .nothing ∧
      (s.step (.finish o.id)).2.1 = .closed o.id (s.site.timedOut o.request)) ∧
    (s.step (.abandon o.id)).2.1 = .dropped o.id

variable {s : Server}

/-- Once shutdown is asked for, a request for an event is answered and changes nothing. -/
theorem Sound.start_of_signalled (h : s.Sound) (hsignalled : s.life.signalled = true) (id : Nat)
    (fresh : String) (uptime : Nat) {request : Http.Request} (htakes : s.site.TakesEvent request)
    (hsize : request.body.length ≤ Site.maxBody) :
    s.start id fresh uptime request =
      (s, .answered (s.site.identified request fresh Site.shuttingDown), .empty) := by
  have hhealth : s.life.health.acceptsEvents = false := by
    have heq := h.signalled
    rw [hsignalled] at heq
    simpa using heq.symm
  rw [start_of_takes htakes]
  unfold startEvent
  rw [if_neg (by omega), hhealth]
  rfl

/-- A request that is accepted and replied to is answered, whether it may wait or not. -/
theorem seen_of_serves (fresh : String) (uptime : Nat) {request : Http.Request}
    (htakes : s.site.TakesEvent request) (haccepts : s.Accepts request)
    (hserves : s.serves s.waiting.length (s.outcomeFor request).2.calls.length) :
    (s.step (.start fresh uptime request)).2.1 = .answered (s.due fresh request) ∧
      (s.step (.handle fresh uptime request)).2.1 = .answered (s.due fresh request) := by
  obtain ⟨permits, hdispatch⟩ := startDispatch_of_serves s.nextId fresh hserves
  unfold Server.step Server.handle
  simp only
  rw [start_of_takes htakes, startEvent_of_accepts s.nextId fresh haccepts, hdispatch]
  exact ⟨rfl, rfl⟩

/-- A request that is accepted and not replied to comes to be pending, and has run out of time if it is
handled to its end. -/
theorem Sound.seen_of_not_serves (h : s.Sound) (fresh : String) (uptime : Nat)
    {request : Http.Request} (htakes : s.site.TakesEvent request) (haccepts : s.Accepts request)
    (hserves : ¬s.serves s.waiting.length (s.outcomeFor request).2.calls.length) :
    (s.step (.start fresh uptime request)).2.1 = .opened s.nextId ∧
      (s.step (.handle fresh uptime request)).2.1 = .answered (s.site.timedOut request) := by
  constructor
  · obtain ⟨permits, call, next, t, hdispatch, _⟩ :=
      startDispatch_of_not_serves s.nextId fresh hserves
    unfold Server.step
    simp only
    rw [start_of_takes htakes, startEvent_of_accepts s.nextId fresh haccepts, hdispatch]
  · show Seen.answered (s.handle s.nextId fresh uptime request).2.1 = _
    rw [h.handle_of_not_serves fresh uptime htakes haccepts hserves]

theorem drain_fst (life : Lifecycle) : life.drain.1 = life.held.isEmpty := by
  unfold Lifecycle.drain
  cases life.held.isEmpty with
  | true => rfl
  | false => rfl

theorem Sound.accounted (h : s.Sound) {opened : List Open} (hperm : opened.Perm s.opens) :
    s.Accounted opened where
  count := by rw [h.inFlight_eq, hperm.length_eq]
  drain := by
    change Seen.drained s.life.drain.1 = _
    have hcount : s.life.held.length = opened.length := h.inFlight_eq.trans hperm.length_eq.symm
    have hempty : s.life.held.isEmpty = opened.isEmpty := by
      rw [Bool.eq_iff_iff, List.isEmpty_iff_length_eq_zero, List.isEmpty_iff_length_eq_zero, hcount]
    rw [drain_fst, hempty]
  stopped := by
    intro hstopped
    have hopens : s.opens = [] := by
      unfold opens
      rw [h.stopped hstopped]
      rfl
    rw [hopens] at hperm
    exact hperm.eq_nil
  opening := by
    intro step id hseen
    obtain ⟨hfollows, heffect⟩ := h.step step
    rw [hseen] at heffect
    exact heffect.of_opened h hfollows.sound
  admitting := by
    intro fresh uptime request htakes haccepts
    refine ⟨seen_of_serves fresh uptime htakes haccepts, fun hserves => ?_⟩
    obtain ⟨hstart, hhandle⟩ := h.seen_of_not_serves fresh uptime htakes haccepts hserves
    obtain ⟨hfollows, heffect⟩ := h.step (.start fresh uptime request)
    rw [hstart] at heffect
    exact ⟨hstart, (heffect.of_opened h hfollows.sound).2, hhandle⟩
  ending := by
    intro step id hseen
    obtain ⟨hfollows, heffect⟩ := h.step step
    obtain ⟨hmem, hcount⟩ := heffect.of_left hseen h hfollows.sound
    exact ⟨(hperm.map Open.id).mem_iff.mpr hmem, hcount⟩
  quiet := by
    intro step hquiet
    obtain ⟨hfollows, heffect⟩ := h.step step
    exact heffect.of_quiet hquiet h hfollows.sound
  triggered := rfl
  shrinking := by
    intro hsignalled step
    obtain ⟨hfollows, heffect⟩ := h.step step
    exact ⟨hfollows.signalled hsignalled, heffect.count_le hsignalled h hfollows.sound⟩
  refusing := by
    intro hsignalled fresh uptime request htakes hsize
    have hstart := h.start_of_signalled hsignalled s.nextId fresh uptime htakes hsize
    refine ⟨s.site.identified request fresh Site.shuttingDown, rfl, ?_, ?_⟩
    · unfold Server.step Server.handle
      simp only
      rw [hstart]
    · unfold Server.step
      simp only
      rw [hstart]
  finishing := by
    intro o ho
    obtain ⟨p, hp, rfl⟩ := List.mem_map.mp (hperm.mem_iff.mp ho)
    obtain ⟨before, hpending⟩ := h.pending?_of_mem hp
    refine ⟨before, p, hpending, fun hreplies => ?_, fun hreplies => ?_, ?_⟩
    · obtain ⟨s', t, hresume, _⟩ := h.resume_of_replies hpending hreplies
      obtain ⟨s'', r, u, hfinish, _, _, hdue, _⟩ := h.finish hpending
      rw [hdue hreplies] at hfinish
      unfold Server.step Pending.opened
      simp only
      rw [hresume, hfinish]
      exact ⟨rfl, rfl⟩
    · obtain ⟨s', t, q, hresume, _⟩ := h.resume_of_not_replies hpending hreplies
      obtain ⟨s'', r, u, hfinish, _, _, _, htimedOut⟩ := h.finish hpending
      rw [htimedOut hreplies] at hfinish
      unfold Server.step Pending.opened
      simp only
      rw [hresume, hfinish]
      exact ⟨rfl, rfl⟩
    · obtain ⟨habandon, _⟩ := h.abandon hpending
      unfold Server.step Pending.opened
      simp only
      rw [habandon]

/-- In every course of things the requests in flight are accounted for. -/
theorem course_accounted (site : Site) (steps : List Step) :
    (course (ofSite site, []) steps).1.site = site ∧
      (course (ofSite site, []) steps).1.Accounted (course (ofSite site, []) steps).2 := by
  have hcourse : ∀ (s : Server) (opened : List Open), s.Sound → opened.Perm s.opens →
      (course (s, opened) steps).1.site = s.site ∧ (course (s, opened) steps).1.Sound ∧
        (course (s, opened) steps).2.Perm (course (s, opened) steps).1.opens := by
    induction steps with
    | nil =>
        intro s opened hsound hperm
        exact ⟨rfl, hsound, hperm⟩
    | cons step steps ih =>
        intro s opened hsound hperm
        obtain ⟨hfollows, heffect⟩ := hsound.step step
        obtain ⟨hsite, hrest⟩ := ih _ _ hfollows.sound (heffect.openAfter hperm)
        exact ⟨hsite.trans hfollows.site, hrest⟩
  obtain ⟨hsite, hsound, hperm⟩ := hcourse _ [] (sound_ofSite site) (.refl _)
  exact ⟨hsite, hsound.accounted hperm⟩

end Server

end BuildHooks.Host
