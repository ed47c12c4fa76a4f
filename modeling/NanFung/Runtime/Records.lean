import NanFung.Runtime.Soundness

/-!
# What the history of a turn holds

In every run, whatever its order: a cancelled turn is terminal, a run that returned has closed its
events unless it waits for an approval, and the hub has no more artifacts of a turn than its reducer
has accepted, which is one at most. `Records.step` is the step lemma. Most steps publish no artifact,
and `Quietly` says what the hub keeps then.
-/

namespace NanFung.Runtime

open Table

/-- The hub got events of one turn, and no artifact. -/
def SseHub.Quietly (hub hub' : SseHub) : Prop :=
  ∃ sessionId turnId, hub.Publishes hub' sessionId turnId 0

namespace SseHub

variable {hub hub' : SseHub} {sessionId s : SessionId} {turnId t : TurnId} {n : Nat}

/-- The artifacts of a turn that were published. -/
def artifacts (hub : SseHub) (sessionId : SessionId) (turnId : TurnId) : Nat :=
  (hub.history sessionId turnId).countP SseBody.isArtifact

theorem Quietly.refl (hub : SseHub) : hub.Quietly hub := ⟨"", "", .refl hub⟩

theorem Quietly.terminal (h : hub.Quietly hub') (ht : hub.terminal s t = true) :
    hub'.terminal s t = true := by
  obtain ⟨_, _, h⟩ := h
  exact h.terminal ht

theorem Quietly.onlyLast (h : hub.Quietly hub') : hub.OnlyLast → hub'.OnlyLast := by
  obtain ⟨_, _, h⟩ := h
  exact h.onlyLast

theorem Publishes.artifacts_le (h : hub.Publishes hub' sessionId turnId n) :
    hub'.artifacts s t ≤ hub.artifacts s t + if sessionId = s ∧ turnId = t then n else 0 := by
  obtain ⟨published, hle, hhistory⟩ := h.history
  rw [artifacts, hhistory, List.countP_append]
  split
  · exact Nat.add_le_add_left hle _
  · exact le_rfl

theorem Quietly.artifacts_le (h : hub.Quietly hub') : hub'.artifacts s t ≤ hub.artifacts s t := by
  obtain ⟨_, _, h⟩ := h
  simpa using h.artifacts_le (s := s) (t := t)

end SseHub

/-- The record of a turn. -/
structure Turn.Recorded (hub : SseHub) (t : Turn) : Prop where
  reducer : t.runner.reducer.Sound
  plain : t.Created → t.runner.reducer.Plain ∧ t.runner.reducer.events ≠ []
  cancelled : t.cancelled = true → hub.terminal t.sessionId t.turnId = true
  returned : ∀ outcome, t.phase = .returned outcome →
    outcome.terminalState = .awaitingApproval ∧ t.runner.reducer.terminal = false ∨
      outcome.terminalState = .cancelled ∧ t.cancelled = true ∨
      outcome.terminalState ≠ .awaitingApproval ∧ outcome.terminalState ≠ .cancelled ∧
        (t.runner.reducer.events.drop 1).any AgentEvent.isTerminal = true
  running : t.phase = .running → t.runner.reducer.terminal = false
  artifacts : hub.artifacts t.sessionId t.turnId ≤
    if t.phase = .finished then t.runner.reducer.events.count .artifactFinal else 0

theorem Turn.Recorded.quietly {hub hub' : SseHub} {t : Turn} (h : t.Recorded hub)
    (hhub : hub.Quietly hub') : t.Recorded hub' where
  reducer := h.reducer
  plain := h.plain
  cancelled hc := hhub.terminal (h.cancelled hc)
  returned := h.returned
  running := h.running
  artifacts := hhub.artifacts_le.trans h.artifacts

section

variable {hub hub' : SseHub} {t t' : Turn}

/-- A change that is not one of the runner's events, and does not end `execute`. -/
theorem Turn.Recorded.change (h : t.Recorded hub)
    (hids : t'.sessionId = t.sessionId ∧ t'.turnId = t.turnId)
    (hrunner : t'.runner.reducer = t.runner.reducer) (hcancelled : t'.cancelled = t.cancelled)
    (hphase : t'.phase = t.phase ∨
      t.phase ≠ .finished ∧ t'.phase ≠ .running ∧ ∀ outcome, t'.phase ≠ .returned outcome) :
    t'.Recorded hub where
  reducer := hrunner ▸ h.reducer
  plain hc := by
    rw [hrunner]
    exact h.plain (by rwa [Turn.Created, ← hrunner])
  cancelled hc := by
    rw [hids.1, hids.2]
    exact h.cancelled (hcancelled ▸ hc)
  returned outcome ho := by
    rw [hcancelled, hrunner]
    rcases hphase with heq | ⟨_, _, hne⟩
    · exact h.returned outcome (heq ▸ ho)
    · exact absurd ho (hne outcome)
  running hp := by
    rw [hrunner]
    rcases hphase with heq | ⟨_, hne, _⟩
    · exact h.running (heq ▸ hp)
    · exact absurd hp hne
  artifacts := by
    rw [hids.1, hids.2, hrunner]
    refine h.artifacts.trans ?_
    rcases hphase with heq | ⟨hne, _, _⟩
    · rw [heq]
    · rw [if_neg hne]
      exact Nat.zero_le _

theorem Turn.Recorded.cancel (h : t.Recorded hub)
    (hterminal : hub.terminal t.sessionId t.turnId = true) :
    ({ t with cancelled := true } : Turn).Recorded hub where
  reducer := h.reducer
  plain := h.plain
  cancelled _ := hterminal
  returned outcome ho := (h.returned outcome ho).imp_right (Or.imp_left fun hc => ⟨hc.1, rfl⟩)
  running := h.running
  artifacts := h.artifacts

theorem Turn.Recorded.observe {event : AgentEvent} {reducer : LifecycleReducer} (h : t.Recorded hub)
    (hcreated : t.Created) (hphase : ∀ outcome, t.phase ≠ .returned outcome)
    (hrequired : event ≠ .approvalRequired) (hterminal : event.isTerminal = false)
    (hreducer : t.runner.reducer.transition event = some reducer) :
    ({ t with runner.reducer := reducer } : Turn).Recorded hub where
  reducer := h.reducer.transition hreducer
  plain _ := by
    refine ⟨(h.plain hcreated).1.transition hreducer hrequired, ?_⟩
    rw [LifecycleReducer.transition_events hreducer]
    simp
  cancelled := h.cancelled
  returned outcome ho := absurd ho (hphase outcome)
  running _ := (LifecycleReducer.transition_terminal hreducer).trans hterminal
  artifacts := by
    refine h.artifacts.trans ?_
    dsimp only
    rw [LifecycleReducer.transition_events hreducer, List.count_append]
    split <;> omega

/-- The runner of a turn whose run has ended, for the first time or resumed. -/
theorem Turn.Recorded.finished_runner {prompt : PromptEnd} {runner : RunnerState}
    {outcome : TurnOutcome} (h : t.Recorded hub) (hcreated : t.Created)
    (hfinish : t.runner.finish t.cancelled prompt = some (runner, outcome)) :
    runner.Sound ∧ runner.reducer.events =
        t.runner.reducer.events ++ t.runner.closing t.cancelled prompt ∧
      (outcome.terminalState ≠ .awaitingApproval →
        (t.runner.closing t.cancelled prompt).any AgentEvent.isTerminal = true) := by
  obtain ⟨hsound, hevents, _, hclosing⟩ :=
    RunnerState.finish_spec ⟨h.reducer, (h.plain hcreated).1⟩ hfinish
  exact ⟨hsound, hevents, fun hne => (hclosing.resolve_left fun hc => hne hc.1).2⟩

/-- A run ends to wait for an approval only by returning, and adds no event. -/
theorem awaiting_of_finish {s s' : RunnerState} {cancelled : Bool} {prompt : PromptEnd}
    {outcome : TurnOutcome} (h : s.finish cancelled prompt = some (s', outcome))
    (hawaiting : outcome.terminalState = .awaitingApproval) :
    cancelled = false ∧ prompt = .returned ∧ s.awaitingApproval = true ∧
      s.closing cancelled prompt = [] := by
  have hclose : ∀ events state, s.close events state = some (s', outcome) →
      state = .awaitingApproval := by
    intro events state hc
    obtain ⟨r, _, heq⟩ := Option.bind_eq_some_iff.mp hc
    obtain ⟨_, rfl⟩ := Prod.mk.inj (Option.some.inj heq)
    exact hawaiting
  unfold RunnerState.finish at h
  split at h
  · exact nomatch hclose _ _ h
  · next hc =>
    have hc : cancelled = false := by simpa using hc
    cases prompt with
    | error => exact nomatch h
    | deadline => exact nomatch hclose _ _ h
    | returned =>
      dsimp only at h
      split at h
      · next ha => exact ⟨hc, rfl, ha, by simp [RunnerState.closing, hc, ha]⟩
      · split at h <;> exact nomatch hclose _ _ h

/-- A run ends cancelled exactly if its turn was. -/
theorem cancelled_of_finish {s s' : RunnerState} {cancelled : Bool} {prompt : PromptEnd}
    {outcome : TurnOutcome} (h : s.finish cancelled prompt = some (s', outcome)) :
    outcome.terminalState = .cancelled ↔ cancelled = true := by
  have hclose : ∀ events state, s.close events state = some (s', outcome) →
      outcome.terminalState = state := by
    intro events state hc
    obtain ⟨r, _, heq⟩ := Option.bind_eq_some_iff.mp hc
    obtain ⟨_, rfl⟩ := Prod.mk.inj (Option.some.inj heq)
    rfl
  unfold RunnerState.finish at h
  split at h
  · next hc => simp [hclose _ _ h, hc]
  · next hc =>
    cases prompt with
    | error => exact nomatch h
    | deadline => simp [hclose _ _ h, hc]
    | returned =>
      dsimp only at h
      split at h
      · simp [hclose _ _ h, hc]
      · split at h <;> simp [hclose _ _ h, hc]

theorem Turn.Recorded.returns {prompt : PromptEnd} {runner : RunnerState} {outcome : TurnOutcome}
    (h : t.Recorded hub) (hcreated : t.Created) (hphase : t.phase = .running)
    (hfinish : t.runner.finish t.cancelled prompt = some (runner, outcome)) :
    ({ t with phase := .returned outcome, runner } : Turn).Recorded hub := by
  obtain ⟨hsound, hevents, hclosing⟩ := h.finished_runner hcreated hfinish
  have hne : t.runner.reducer.events ≠ [] := (h.plain hcreated).2
  refine
    { reducer := hsound.reducer
      plain := fun _ => ⟨hsound.plain, ?_⟩
      cancelled := h.cancelled
      returned := fun outcome' ho => ?_
      running := fun hp => nomatch hp
      artifacts := ?_ }
  · dsimp only
    rw [hevents]
    simp [hne]
  · obtain rfl := Phase.returned.inj ho
    by_cases hawaiting : outcome.terminalState = .awaitingApproval
    · refine Or.inl ⟨hawaiting, ?_⟩
      have hrunning := h.running hphase
      rw [h.reducer.terminal] at hrunning
      rw [hsound.reducer.terminal, hevents, (awaiting_of_finish hfinish hawaiting).2.2.2,
        List.append_nil, hrunning]
    by_cases hcancelled : t.cancelled = true
    · exact Or.inr (Or.inl ⟨(cancelled_of_finish hfinish).mpr hcancelled, hcancelled⟩)
    · refine Or.inr (Or.inr ⟨hawaiting, fun hc => hcancelled ((cancelled_of_finish hfinish).mp hc), ?_⟩)
      dsimp only
      rw [hevents, List.drop_append_of_le_length (List.length_pos_of_ne_nil hne), List.any_append,
        hclosing hawaiting, Bool.or_true]
  · have := h.artifacts
    rw [hphase] at this
    simpa using this

theorem countP_projectLifecycle (artifact : Option Artifact) (events : List AgentEvent) :
    (events.map (projectLifecycle artifact)).countP SseBody.isArtifact =
      events.count .artifactFinal := by
  rw [List.countP_map, List.count]
  congr 1
  funext e
  cases e <;> rfl

end

namespace Server

variable {s s' : Server} {sessionId session : SessionId} {turnId turn : TurnId} {c : DecideCall}
  {k : Continuation}

/-- The records of all turns. While the prompt of a continuation runs, the artifacts published are
those of the events before it. -/
structure Records (s : Server) : Prop where
  onlyLast : s.hub.OnlyLast
  turns : ∀ t ∈ s.turns, t.Recorded s.hub
  prompt : ∀ c k n, s.deciding = some (c, .prompt k n) →
    ∀ t, s.HasTurn k.sessionId k.turnId t → n ≤ t.runner.reducer.events.length ∧
      s.hub.artifacts k.sessionId k.turnId ≤ (t.runner.reducer.events.take n).count .artifactFinal

/-- The hub got no artifact, and no continued prompt has started. -/
theorem Records.keep (h : s.Records) (hhub : s.hub.Quietly s'.hub)
    (hturns : ∀ t ∈ s'.turns, t.Recorded s'.hub)
    (hprompt : ∀ c k n, s'.deciding = some (c, .prompt k n) → s.deciding = some (c, .prompt k n) ∧
      ∀ t, s'.HasTurn k.sessionId k.turnId t → ∃ t₀, s.HasTurn k.sessionId k.turnId t₀ ∧
        t₀.runner.reducer.events <+: t.runner.reducer.events) : s'.Records where
  onlyLast := hhub.onlyLast h.onlyLast
  turns := hturns
  prompt c k n hd t ht := by
    obtain ⟨hd, hbefore⟩ := hprompt c k n hd
    obtain ⟨t₀, ht₀, hstart⟩ := hbefore t ht
    obtain ⟨hle, hartifacts⟩ := h.prompt c k n hd t₀ ht₀
    refine ⟨hle.trans hstart.length_le, hhub.artifacts_le.trans ?_⟩
    obtain ⟨rest, heq⟩ := hstart
    rwa [← heq, List.take_append_of_le_length hle]

/-- The turns are as they were. -/
theorem Records.same (h : s.Records) (hhub : s.hub.Quietly s'.hub)
    (hturns : ∀ t ∈ s'.turns, t ∈ s.turns)
    (hdeciding : ∀ c k n, s'.deciding = some (c, .prompt k n) → s.deciding = some (c, .prompt k n)) :
    s'.Records :=
  h.keep hhub (fun t ht => (h.turns t (hturns t ht)).quietly hhub) fun c k n hd =>
    ⟨hdeciding c k n hd, fun t ht => ⟨t, ⟨hturns t ht.1, ht.2⟩, List.prefix_rfl⟩⟩

/-- One turn changed. -/
theorem Records.modifyTurn {f : Turn → Turn} (h : s.Records)
    (hids : ∀ t, (f t).sessionId = t.sessionId ∧ (f t).turnId = t.turnId)
    (hf : ∀ t ∈ s.turns, t.turnId = turnId → (f t).Recorded s.hub)
    (hevents : ∀ t ∈ s.turns, t.turnId = turnId → t.phase = .finished →
      t.runner.reducer.events <+: (f t).runner.reducer.events)
    (hs : s.Sound) : (s.modifyTurn turnId f).Records := by
  refine h.keep (.refl _) (fun t ht => ?_) fun c k n hd => ⟨hd, fun t ht => ?_⟩
  · rcases mem_modifyTurn ht with ⟨ht, _⟩ | ⟨t₀, ht₀, hid, rfl⟩
    · exact h.turns t ht
    · exact hf t₀ ht₀ hid
  · obtain ⟨t₀, ht₀, rfl | ⟨hid, rfl⟩⟩ := hasTurn_of_modifyTurn hids ht
    · exact ⟨t, ht₀, List.prefix_rfl⟩
    · -- a continued prompt is one of a turn whose `execute` has ended
      refine ⟨t₀, ht₀, hevents t₀ ht₀.1 hid ?_⟩
      exact hs.done k (hs.decidingObject hd rfl).1 (hs.prompt c k n hd) t₀ ht₀

theorem Records.of_change {f : Turn → Turn} (h : s.Records) (hs : s.Sound)
    (hf : ∀ t, (f t).sessionId = t.sessionId ∧ (f t).turnId = t.turnId ∧
      (f t).runner.reducer = t.runner.reducer ∧ (f t).cancelled = t.cancelled)
    (hphase : ∀ t ∈ s.turns, t.turnId = turnId → (f t).phase = t.phase ∨
      t.phase ≠ .finished ∧ (f t).phase ≠ .running ∧ ∀ outcome, (f t).phase ≠ .returned outcome) :
    (s.modifyTurn turnId f).Records :=
  h.modifyTurn (fun t => ⟨(hf t).1, (hf t).2.1⟩) (fun t ht hid => (h.turns t ht).change
    ⟨(hf t).1, (hf t).2.1⟩ (hf t).2.2.1 (hf t).2.2.2 (hphase t ht hid))
    (fun t _ _ _ => by rw [(hf t).2.2.1]) hs

theorem quietly_emitAll (hub : SseHub) {bodies : List SseBody}
    (h : ∀ b ∈ bodies, b.isArtifact = false) :
    hub.Quietly (hub.emitAll sessionId turnId bodies).1 := by
  have hzero : bodies.countP SseBody.isArtifact = 0 :=
    List.countP_eq_zero.mpr fun b hb => by simp [h b hb]
  refine ⟨sessionId, turnId, ?_⟩
  rw [← hzero]
  exact .emitAll hub bodies

theorem Finishes.records {bodies : Option (List SseBody)} (hfinish : Finishes s c k bodies s')
    (h : s.Records) (hbodies : ∀ b ∈ bodies.getD [], b.isArtifact = false) : s'.Records := by
  have hzero : (bodies.getD []).countP SseBody.isArtifact = 0 :=
    List.countP_eq_zero.mpr fun b hb => by simp [hbodies b hb]
  cases hfinish with
  | released s₁ hsame _ _ _ hhub | threw s₁ hsame _ _ _ hhub =>
    rw [hzero] at hhub
    exact h.same ⟨_, _, hhub⟩ (fun t ht => hsame.turns ▸ ht) fun _ _ _ hd => nomatch hd

theorem Records.decides (h : s.Records) (hd : Decides s c s') : s'.Records := by
  cases hd with
  | refused | same | invokes =>
    exact h.same (.refl _) (fun _ ht => ht) fun _ _ _ hd => nomatch hd
  | denies a continuation s₁ accepted _ _ _ hpublish =>
    obtain rfl : ((s.decideApproval c.approvalId .deny).emitAll c.sessionId (turnOf continuation)
      [.approvalResolved .deny, .turnCompleted .completed]).1 = s₁ := congrArg Prod.fst hpublish
    have hhub : s.hub.Quietly (s.hub.emitAll c.sessionId (turnOf continuation)
        [.approvalResolved .deny, .turnCompleted .completed]).1 :=
      quietly_emitAll s.hub (by simp [SseBody.isArtifact])
    split <;> exact h.same hhub (fun _ ht => ht) fun _ _ _ hd => nomatch hd

theorem Records.dispatches (h : s.Records) (hd : Dispatches s c k s') : s'.Records := by
  cases hd with
  | skipped | waits => exact h.same (.refl _) (fun _ ht => ht) fun _ _ _ hd => nomatch hd
  | failed _ _ hfinish => exact hfinish.records h (by simp)

theorem Records.answers {continuation : Option Continuation} {ok : Bool} (h : s.Records)
    (hanswers : Answers s c continuation ok s') : s'.Records := by
  have hpublished : ∀ s₁ accepted, (s.approve c).emitAll c.sessionId (turnOf continuation)
      [.approvalResolved .approve] = (s₁, accepted) → s₁.Records := by
    intro s₁ accepted hpublish
    obtain rfl : ((s.approve c).emitAll c.sessionId (turnOf continuation)
      [.approvalResolved .approve]).1 = s₁ := congrArg Prod.fst hpublish
    have hhub : s.hub.Quietly (s.hub.emitAll c.sessionId (turnOf continuation)
        [.approvalResolved .approve]).1 := quietly_emitAll s.hub (by simp [SseBody.isArtifact])
    exact h.same hhub (fun _ ht => ht) fun c k n hd => hd
  cases hanswers with
  | refused => exact h.same (.refl _) (fun _ ht => ht) fun _ _ _ hd => nomatch hd
  | threw s₁ hpublish | kept s₁ hpublish =>
    exact (hpublished s₁ _ hpublish).same (.refl _) (fun _ ht => ht) fun _ _ _ hd => nomatch hd
  | dispatched s₁ _ k a hpublish _ _ _ hdispatch =>
    exact (hpublished s₁ _ hpublish).dispatches hdispatch

theorem Records.resumes (h : s.Records) (hs : s.Sound) (hdeciding : s.deciding = some (c, .outcome k))
    (hresolved : k.ref ∈ s.resolved) (hr : Resumes s c k s') : s'.Records := by
  cases hr with
  | gone _ _ hfinish => exact hfinish.records h (by simp)
  | ended _ _ _ _ hfinish => exact hfinish.records h (by simp)
  | prompts t ht =>
    have hmodified : (s.modifyTurn k.turnId fun t => { t with
        runner.awaitingApproval := false }).Records :=
      h.of_change hs (fun _ => ⟨rfl, rfl, rfl, rfl⟩) fun _ _ _ => Or.inl rfl
    refine ⟨hmodified.onlyLast, hmodified.turns, fun c' k' n hd u hu => ?_⟩
    obtain ⟨rfl, hwaiting⟩ := Prod.mk.inj (Option.some.inj hd)
    obtain ⟨rfl, rfl⟩ := Waiting.prompt.inj hwaiting
    -- all of the turn's events were there when the prompt was resumed
    obtain ⟨hmem, hid⟩ := turn?_mem ht
    have hbefore := h.turns t hmem
    have hu : (s.modifyTurn k.turnId fun t => { t with
        runner.awaitingApproval := false }).HasTurn k.sessionId k.turnId u := hu
    obtain ⟨u₀, hu₀, hchange⟩ := hasTurn_of_modifyTurn
      (f := fun t => { t with runner.awaitingApproval := false }) (fun _ => ⟨rfl, rfl⟩) hu
    obtain rfl := hs.turns.eq_of_mem hu₀.1 hmem (hu₀.2.2.trans hid.symm)
    have hevents : u.runner.reducer.events = u₀.runner.reducer.events := by
      rcases hchange with rfl | ⟨_, rfl⟩ <;> rfl
    rw [hevents, List.take_length]
    refine ⟨le_rfl, ?_⟩
    have hartifacts := hbefore.artifacts
    rw [if_pos (hs.done k (hs.decidingObject hdeciding rfl).1 hresolved u₀ hu₀), hu₀.2.1,
      hu₀.2.2] at hartifacts
    exact hartifacts

theorem Records.ends {n : Nat} {prompt : PromptEnd} (h : s.Records) (hs : s.Sound)
    (hdeciding : s.deciding = some (c, .prompt k n)) (he : Ends s c k n prompt s') : s'.Records := by
  cases he with
  | threw hfinish => exact hfinish.records h (by simp)
  | ended t runner outcome ht hrunner hfinish =>
    obtain ⟨hmem, hid⟩ := turn?_mem ht
    obtain ⟨u, hu, hcreated⟩ := hs.objects k (hs.decidingObject hdeciding rfl).1
    obtain rfl := hs.turns.eq_of_mem hu.1 hmem (hu.2.2.trans hid.symm)
    have hfinished := hs.done k (hs.decidingObject hdeciding rfl).1 (hs.prompt c k n hdeciding) u hu
    have hrecord := h.turns u hmem
    obtain ⟨hsound, hevents, _⟩ := hrecord.finished_runner hcreated hrunner
    obtain ⟨hle, hartifacts⟩ := h.prompt c k n hdeciding u hu
    have hids : ∀ t : Turn, ({ t with runner } : Turn).sessionId = t.sessionId ∧
        ({ t with runner } : Turn).turnId = t.turnId := fun _ => ⟨rfl, rfl⟩
    -- what is published now is what came after the prompt was resumed
    have hcount : runner.reducer.events.count .artifactFinal =
        (u.runner.reducer.events.take n).count .artifactFinal +
          (runner.reducer.events.drop n).count .artifactFinal := by
      rw [← List.count_append, hevents, ← List.take_append_of_le_length hle, List.take_append_drop]
    have hall : ∀ hub', s.hub.Publishes hub' k.sessionId k.turnId
        ((runner.reducer.events.drop n).count .artifactFinal) →
        ∀ v ∈ (s.modifyTurn k.turnId ({ · with runner })).turns, v.Recorded hub' := by
      intro hub' hhub v hv
      rcases mem_modifyTurn hv with ⟨hv, hne⟩ | ⟨v₀, hv₀, hvid, rfl⟩
      · have hother : ¬(k.sessionId = v.sessionId ∧ k.turnId = v.turnId) := fun h => hne h.2.symm
        have hold := h.turns v hv
        refine ⟨hold.reducer, hold.plain, fun hc => hhub.terminal (hold.cancelled hc), hold.returned,
          hold.running, ?_⟩
        have := hhub.artifacts_le (s := v.sessionId) (t := v.turnId)
        rw [if_neg hother] at this
        exact this.trans hold.artifacts
      · obtain rfl := hs.turns.eq_of_mem hv₀ hmem (hvid.trans hid.symm)
        refine ⟨hsound.reducer, fun _ => ⟨hsound.plain, ?_⟩, fun hc => hhub.terminal (hrecord.cancelled hc),
          fun outcome ho => absurd (hfinished.symm.trans ho) (by simp),
          fun hp => absurd (hfinished.symm.trans hp) (by simp), ?_⟩
        · dsimp only
          rw [hevents]
          simp [(hrecord.plain hcreated).2]
        · have := hhub.artifacts_le (s := v₀.sessionId) (t := v₀.turnId)
          rw [if_pos ⟨hu.2.1.symm, hu.2.2.symm⟩, hu.2.1, hu.2.2] at this
          dsimp only
          rw [if_pos hfinished, hu.2.1, hu.2.2, hcount]
          omega
    have hbodies : (((runner.reducer.events.drop n).map (projectLifecycle outcome.artifact))).countP
        SseBody.isArtifact = (runner.reducer.events.drop n).count .artifactFinal :=
      countP_projectLifecycle _ _
    cases hfinish with
    | released s₁ hsame _ _ _ hhub | threw s₁ hsame _ _ _ hhub =>
      simp only [Option.getD_some] at hhub
      rw [hbodies] at hhub
      exact ⟨hhub.onlyLast h.onlyLast, fun v hv => hall _ hhub v (hsame.turns ▸ hv),
        fun _ _ _ hd => nomatch hd⟩

theorem Records.cancels (h : s.Records) (hs : s.Sound) (hc : Cancels s sessionId turnId s') :
    s'.Records := by
  cases hc with
  | nothing _ hsame hdeciding _ _ hhub =>
    refine h.same (hhub ▸ .refl _) (fun t ht => hsame.turns ▸ ht) fun c k n hd => hdeciding ▸ hd
  | cancelled s₀ s₁ hsame hdeciding _ _ hhub _ hactive hs₁ =>
    subst hs₁
    have hquiet : s.hub.Quietly (s₀.hub.emitAll sessionId turnId [.turnCompleted .cancelled]).1 := by
      rw [hhub]
      exact quietly_emitAll s.hub (by simp [SseBody.isArtifact])
    have hterminal : (s₀.hub.emitAll sessionId turnId [.turnCompleted .cancelled]).1.terminal
        sessionId turnId = true := SseHub.terminal_emitAll_of_mem List.mem_cons_self rfl
    obtain ⟨u, hu, _⟩ := hs.active _ (List.mem_of_find?_eq_some hactive)
    refine h.keep hquiet (fun t ht => ?_) fun c k n hd => ⟨hdeciding.symm.trans hd, fun t ht => ?_⟩
    · have ht : t ∈ (s₀.modifyTurn turnId ({ · with cancelled := true })).turns := ht
      rcases mem_modifyTurn ht with ⟨ht, _⟩ | ⟨t₀, ht₀, hid, rfl⟩
      · exact (h.turns t (hsame.turns ▸ ht)).quietly hquiet
      · have ht₀ : t₀ ∈ s.turns := hsame.turns ▸ ht₀
        obtain rfl := hs.turns.eq_of_mem hu.1 ht₀ (hu.2.2.trans hid.symm)
        refine ((h.turns u ht₀).quietly hquiet).cancel ?_
        rw [hu.2.1, hu.2.2]
        exact hterminal
    · have ht : (s₀.modifyTurn turnId ({ · with cancelled := true })).HasTurn k.sessionId k.turnId t := ht
      obtain ⟨t₀, ht₀, ht⟩ := hasTurn_of_modifyTurn (f := ({ · with cancelled := true }))
        (fun _ => ⟨rfl, rfl⟩) ht
      refine ⟨t₀, hsame.hasTurn.mp ht₀, ?_⟩
      rcases ht with rfl | ⟨_, rfl⟩ <;> exact List.prefix_rfl

/-- What `execute` offers to the hub has no more artifacts than the reducer has. -/
theorem artifacts_closingBodies (s : Server) (t : Turn) :
    (s.closingBodies t).countP SseBody.isArtifact ≤ t.runner.reducer.events.count .artifactFinal := by
  have hprojected : ∀ outcome, (s.projected t outcome).countP SseBody.isArtifact ≤
      t.runner.reducer.events.count .artifactFinal := by
    intro outcome
    unfold projected
    split
    · exact Nat.zero_le _
    · rw [countP_projectLifecycle]
      exact (List.filter_sublist.count_le _).trans ((List.drop_sublist 1 _).count_le _)
  unfold closingBodies
  split
  · exact hprojected _
  · exact Nat.zero_le _

theorem Records.unwind {t : Turn} (h : s.Records) (hs : s.Sound) (ht : t ∈ s.turns)
    (hphase : t.phase.isOver = true) : (s.unwind t).Records := by
  obtain ⟨s₁, heq, hhub, _, hunwind⟩ := unwind_cases s t
  have hturns : (s.unwind t).turns = (s.setPhase t.turnId .finished).turns := (unwind_frame s t).1
  have hnew : (s.unwind t).hub = s₁.hub := by
    rw [hunwind]
    unfold finally_
    dsimp only
    split <;> rfl
  have hnot : t.phase ≠ .finished := fun hp => by simp [hp, Phase.isOver] at hphase
  have hmember : ∀ u ∈ (s.unwind t).turns, (u ∈ s.turns ∧ u.turnId ≠ t.turnId) ∨
      u = { t with phase := .finished } := by
    intro u hu
    rw [hturns] at hu
    rcases mem_modifyTurn hu with hu | ⟨u₀, hu₀, hid, rfl⟩
    · exact Or.inl hu
    · obtain rfl := hs.turns.eq_of_mem hu₀ ht hid
      exact Or.inr rfl
  refine ⟨hnew ▸ hhub.onlyLast h.onlyLast, fun u hu => ?_, fun c k n hd u hu => ?_⟩
  · rw [hnew]
    have hle := hhub.artifacts_le (s := u.sessionId) (t := u.turnId)
    rcases hmember u hu with ⟨hu, hne⟩ | rfl
    · have hold := h.turns u hu
      refine ⟨hold.reducer, hold.plain, fun hc => hhub.terminal (hold.cancelled hc), hold.returned,
        hold.running, ?_⟩
      rw [if_neg fun h => hne h.2.symm] at hle
      exact hle.trans hold.artifacts
    · have hold := h.turns t ht
      refine ⟨hold.reducer, hold.plain, fun hc => hhub.terminal (hold.cancelled hc),
        (fun outcome ho => nomatch ho), (fun hp => nomatch hp), ?_⟩
      have hzero := hold.artifacts
      rw [if_neg hnot] at hzero
      dsimp only at hle ⊢
      rw [if_pos ⟨rfl, rfl⟩] at hle
      rw [if_pos rfl]
      have := artifacts_closingBodies s t
      omega
  · -- the turn that is continued had ended before
    have hd : s.deciding = some (c, .prompt k n) := (unwind_frame s t).2.2.1.symm.trans hd
    have hdone := hs.done k (hs.decidingObject hd rfl).1 (hs.prompt c k n hd)
    obtain ⟨v, hv, _⟩ := hs.objects k (hs.decidingObject hd rfl).1
    have hother : v.turnId ≠ t.turnId := fun hid => by
      obtain rfl := hs.turns.eq_of_mem hv.1 ht hid
      exact hnot (hdone v hv)
    rw [hnew]
    have hle := hhub.artifacts_le (s := k.sessionId) (t := k.turnId)
    rw [if_neg fun h => hother (hv.2.2.trans h.2.symm)] at hle
    rcases hmember u hu.1 with ⟨hmem, _⟩ | rfl
    · obtain ⟨hlen, hcount⟩ := h.prompt c k n hd u ⟨hmem, hu.2⟩
      exact ⟨hlen, hle.trans hcount⟩
    · exact absurd (hv.2.2.trans hu.2.2.symm) hother

/-- The prompt of a turn runs: its first run has not returned, or it has ended. -/
theorem Sound.phase_of_prompting {t : Turn} (hs : s.Sound) (ht : t ∈ s.turns)
    (hprompting : s.prompting t = true) : t.phase = .running ∨ t.phase = .finished := by
  simp only [prompting, Bool.or_eq_true, decide_eq_true_eq] at hprompting
  refine hprompting.imp_right fun hdeciding => ?_
  split at hdeciding
  · next c k n heq =>
    obtain ⟨u, hu, _⟩ := hs.objects k (hs.decidingObject heq rfl).1
    obtain rfl := hs.turns.eq_of_mem hu.1 ht (hu.2.2.trans (by simpa using hdeciding))
    exact hs.done k (hs.decidingObject heq rfl).1 (hs.prompt c k n heq) u hu
  · cases hdeciding

theorem Records.registerRequired {a : PendingApproval} (h : s.Records) :
    (s.registerRequired a).1.Records := by
  unfold Server.registerRequired
  split
  · exact h
  · refine h.same ?_ (fun _ ht => ht) fun _ _ _ hd => hd
    exact @quietly_emitAll a.sessionId _ s.hub [.approvalRequired (some a.approvalId)]
      (by simp [SseBody.isArtifact])

theorem Records.reserved {registry : SessionRegistry} (h : s.Records)
    (hnew : s.newTurnId turnId = true) (hs : s.Sound) :
    ({ s with registry, turns := s.turns ++ [{ sessionId, turnId }] } : Server).Records := by
  simp only [newTurnId, Bool.and_eq_true, List.all_eq_true, decide_eq_true_eq] at hnew
  have hhistory : s.hub.artifacts sessionId turnId = 0 := by
    have : s.hub.events.filter (·.isOf sessionId turnId) = [] :=
      List.filter_eq_nil_iff.mpr fun e he => by simp [SseEvent.isOf, hnew.1.2 e he]
    simp [SseHub.artifacts, SseHub.history, this]
  refine h.keep (.refl _) (fun t ht => ?_) fun c k n hd => ⟨hd, fun t ht => ?_⟩
  · rcases List.mem_append.mp ht with ht | ht
    · exact h.turns t ht
    · obtain rfl := List.mem_singleton.mp ht
      exact ⟨.init, (fun hc => by cases hc), (fun hc => by cases hc), (fun _ ho => by cases ho),
        fun _ => rfl, hhistory.le⟩
  · refine ⟨t, ⟨?_, ht.2⟩, List.prefix_rfl⟩
    refine (List.mem_append.mp ht.1).resolve_right fun hmem => ?_
    obtain rfl := List.mem_singleton.mp hmem
    obtain ⟨v, hv, _⟩ := hs.objects k (hs.decidingObject hd rfl).1
    exact hnew.1.1 v hv.1 (hv.2.2.trans ht.2.2.symm)

theorem Records.turnCreated {t : Turn} (h : s.Records) (hs : s.Sound) (ht : t ∈ s.turns)
    (hphase : t.phase = .booting) : (s.turnCreated t).Records := by
  have hmodified : (s.modifyTurn t.turnId fun t => { t with
      phase := .running
      deadline := s.now + turnDeadlineMs
      runner := { reducer := { hasStarted := true, events := [.turnStarted] } } }).Records := by
    refine h.modifyTurn (fun _ => ⟨rfl, rfl⟩) (fun u hu hid => ?_) (fun u hu hid hp => ?_) hs
    · obtain rfl := hs.turns.eq_of_mem hu ht hid
      have hold := h.turns u hu
      refine ⟨⟨rfl, rfl, by simp⟩, fun _ => ⟨⟨rfl, by simp⟩, by simp⟩, hold.cancelled,
        (fun _ ho => nomatch ho), fun _ => rfl, ?_⟩
      have := hold.artifacts
      rw [hphase] at this
      exact this
    · obtain rfl := hs.turns.eq_of_mem hu ht hid
      exact nomatch hphase.symm.trans hp
  refine hmodified.same ?_ (fun _ ht => ht) fun _ _ _ hd => hd
  unfold Server.turnCreated
  exact @quietly_emitAll t.sessionId t.turnId s.hub [.turnStarted] (by simp [SseBody.isArtifact])

theorem Records.step {a : Action} (h : s.Records) (hs : s.Sound) (hstep : Takes s a s') :
    s'.Records := by
  cases hstep with
  | tick | touch | closeSession | refused | queueDecide =>
    exact h.same (.refl _) (fun _ ht => ht) fun _ _ _ hd => hd
  | @createSession sessionId =>
    refine h.same ?_ (fun _ ht => ht) fun _ _ _ hd => hd
    exact @quietly_emitAll sessionId "session" s.hub [.sessionStarted] (by simp [SseBody.isArtifact])
  | reserved sessionId turnId registry session hnew => exact h.reserved hnew hs
  | rejectMessage t =>
    exact h.same (.refl _) (fun _ hu => (List.mem_filter.mp hu).1) fun _ _ _ hd => hd
  | gone t ht hphase | bootFails t ht hphase =>
    refine h.of_change hs (fun _ => ⟨rfl, rfl, rfl, rfl⟩) fun u hu hid => Or.inr ?_
    obtain rfl := hs.turns.eq_of_mem hu ht hid
    exact ⟨by simp [hphase], by simp, by simp⟩
  | start t _ ht hphase | threw t _ ht hphase =>
    refine h.of_change hs (fun _ => ⟨rfl, rfl, rfl, rfl⟩) fun u hu hid => Or.inr ?_
    obtain rfl := hs.turns.eq_of_mem hu ht hid
    exact ⟨by simp [hphase], by simp, by simp⟩
  | turnCreated t ht hphase => exact h.turnCreated hs ht hphase
  | registerRefresh | refreshResult | finalizeResult =>
    exact h.of_change hs (fun _ => ⟨rfl, rfl, rfl, rfl⟩) fun _ _ _ => Or.inl rfl
  | observed _ t event reducer ht hprompting hevent hreducer =>
    refine h.modifyTurn (fun _ => ⟨rfl, rfl⟩) (fun u hu hid => ?_) (fun u hu hid _ => ?_) hs
    · obtain rfl := hs.turns.eq_of_mem hu ht hid
      refine (h.turns u hu).observe (hs.created_of_prompting hu hprompting) (fun outcome ho => ?_)
        hevent.2.1 hevent.1 hreducer
      rcases hs.phase_of_prompting hu hprompting with hp | hp <;> exact nomatch ho.symm.trans hp
    · obtain rfl := hs.turns.eq_of_mem hu ht hid
      dsimp only
      rw [LifecycleReducer.transition_events hreducer]
      exact List.prefix_append _ _
  | approvalRequired t =>
    refine Records.registerRequired ?_
    exact h.of_change hs (fun _ => ⟨rfl, rfl, rfl, rfl⟩) fun _ _ _ => Or.inl rfl
  | returned t prompt runner outcome ht hphase hfinish =>
    refine h.modifyTurn (fun _ => ⟨rfl, rfl⟩) (fun u hu hid => ?_) (fun u hu hid hp => ?_) hs
    · obtain rfl := hs.turns.eq_of_mem hu ht hid
      exact (h.turns u hu).returns (hs.started u hu (by rw [hphase]; rfl)) hphase hfinish
    · obtain rfl := hs.turns.eq_of_mem hu ht hid
      exact nomatch hphase.symm.trans hp
  | unwind t ht hphase => exact h.unwind hs ht hphase
  | cancel _ _ _ hc => exact h.cancels hs hc
  | decide c queue _ _ _ hd =>
    have h' : ({ s with decideQueue := queue } : Server).Records :=
      h.same (.refl _) (fun _ ht => ht) fun _ _ _ hd => hd
    exact h'.decides hd
  | facadeReturns ok c continuation _ _ hanswers => exact h.answers hanswers
  | outcomeReady c k _ hdeciding hresolved hr => exact h.resumes hs hdeciding hresolved hr
  | resumed prompt c k n _ hdeciding he => exact h.ends hs hdeciding he

end Server

theorem Run.records {permits : Server → Action → Prop} {origin : Nat} {s : Server}
    (h : Run permits origin s) : s.Records :=
  Reached.invariant_of (I := Server.Sound) (fun _ => Run.sound)
    ⟨.init, (fun _ ht => nomatch ht), fun _ _ _ hd => nomatch hd⟩
    (fun _ _ _ hs hrecords _ hstep => hrecords.step hs (Server.step_takes hstep)) h

end NanFung.Runtime
