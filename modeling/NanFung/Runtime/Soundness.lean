import NanFung.Runtime.Steps

/-!
# Every run keeps the coordinators' maps sound

`Sound.step` is the step lemma; `Reached.sound` is the invariant of every run.
-/

namespace NanFung.Runtime

open Table

namespace Server

variable {s s' : Server} {sessionId session : SessionId} {turnId turn : TurnId} {c : DecideCall}
  {k : Continuation}

theorem Sound.of_same (h : s.Sound) (hsame : SameMaps s s') (hdeciding : s'.deciding = s.deciding) :
    s'.Sound :=
  h.congr hsame.turns hsame.activeTurns hsame.pending hsame.continuations hsame.nextRef
    hsame.resolved hdeciding

theorem Finishes.same {bodies : Option (List SseBody)} (h : Finishes s c k bodies s') :
    SameMaps s s' ∧ s'.deciding = none := by
  cases h with
  | released s₁ hsame => exact ⟨(hsame.trans (.releaseTurn s₁)).trans (.settle _ c _), rfl⟩
  | threw s₁ hsame => exact ⟨hsame.trans (.settle s₁ c _), rfl⟩

theorem Finishes.sound {bodies : Option (List SseBody)} (h : Finishes s c k bodies s')
    (hs : s.Sound) : s'.Sound :=
  h.same.1.sound_of_none hs h.same.2

/-! ## The turns -/

/-- A turn is reserved. -/
theorem Sound.reserve {t : Turn} (h : s.Sound) (hnew : ∀ u ∈ s.turns, u.turnId ≠ t.turnId)
    (hrefresh : t.refreshIds = []) (hphase : t.phase = .reading) (hcreated : ¬t.Created)
    (hturns : s'.turns = s.turns ++ [t]) (hactive : s'.activeTurns = s.activeTurns)
    (hpending : s'.pending = s.pending) (hslots : s'.continuations = s.continuations)
    (hnext : s'.nextRef = s.nextRef) (hresolved : s'.resolved = s.resolved)
    (hdeciding : s'.deciding = s.deciding) : s'.Sound := by
  have hmem : ∀ u, u ∈ s'.turns ↔ u ∈ s.turns ∨ u = t := fun u => by simp [hturns]
  have hobject : ∀ k, s'.Object k ↔ s.Object k := fun k => by simp [Object, hslots, hdeciding]
  have hrefers : ∀ sid tid, s.Refers sid tid → s'.Refers sid tid := by
    rintro sid tid ⟨u, ⟨hu, hids⟩, hc⟩
    exact ⟨u, ⟨(hmem u).mpr (Or.inl hu), hids⟩, hc⟩
  have hnone : ∀ r, r ∉ t.refreshIds := by simp [hrefresh]
  constructor
  · rw [hturns]
    exact h.turns.append hnew
  · intro u hu u' hu' r hr r' hr' heq
    rcases (hmem u).mp hu with hu | rfl
    · rcases (hmem u').mp hu' with hu' | rfl
      · exact h.refreshes u hu u' hu' r hr r' hr' heq
      · exact absurd hr' (hnone r')
    · exact absurd hr (hnone r)
  · intro u hu hp
    rcases (hmem u).mp hu with hu | rfl
    · exact h.fresh u hu hp
    · exact hcreated
  · intro u hu hp
    rcases (hmem u).mp hu with hu | rfl
    · exact h.started u hu hp
    · rw [hphase] at hp
      cases hp
  · exact fun k hk => hrefers _ _ (h.objects k ((hobject k).mp hk))
  · rw [hnext]
    exact fun k hk => h.refs k ((hobject k).mp hk)
  · exact fun k k' hk hk' => h.identity k k' ((hobject k).mp hk) ((hobject k').mp hk')
  · rw [hnext, hresolved]
    exact h.resolved
  · rw [hresolved]
    rintro k hk hr u ⟨hu, hs, hid⟩
    rcases (hmem u).mp hu with hu | rfl
    · exact h.done k ((hobject k).mp hk) hr u ⟨hu, hs, hid⟩
    · obtain ⟨v, ⟨hv, _, hvid⟩, _⟩ := h.objects k ((hobject k).mp hk)
      exact absurd (hvid.trans hid.symm) (hnew v hv)
  · rw [hdeciding, hresolved]
    exact h.prompt
  · rw [hdeciding]
    exact h.caller
  · rw [hpending]
    intro a ha
    obtain ⟨u, hu, hrest⟩ := h.pending a ha
    exact ⟨u, (hmem u).mpr (Or.inl hu), hrest⟩
  · unfold continuation?
    rw [hslots]
    intro u hu hc
    rcases (hmem u).mp hu with hu | rfl
    · exact h.slot u hu hc
    · exact absurd hc hcreated
  · rw [hpending]
    exact h.approvals
  · rw [hactive]
    exact fun x hx => hrefers _ _ (h.active x hx)

/-- A turn that has no context yet is given up. -/
theorem Sound.reject (h : s.Sound)
    (hgone : ∀ t ∈ s.turns, t.turnId = turnId → ¬t.Created) :
    ({ s with turns := s.turns.filter (·.turnId ≠ turnId) } : Server).Sound := by
  have hmem : ∀ u, u ∈ s.turns.filter (·.turnId ≠ turnId) ↔ u ∈ s.turns ∧ u.turnId ≠ turnId :=
    fun u => by simp
  have hkeep : ∀ u ∈ s.turns, u.Created → u ∈ s.turns.filter (·.turnId ≠ turnId) :=
    fun u hu hc => (hmem u).mpr ⟨hu, fun hid => hgone u hu hid hc⟩
  have hrefers : ∀ sid tid, s.Refers sid tid →
      ({ s with turns := s.turns.filter (·.turnId ≠ turnId) } : Server).Refers sid tid := by
    rintro sid tid ⟨u, ⟨hu, hids⟩, hc⟩
    exact ⟨u, ⟨hkeep u hu hc, hids⟩, hc⟩
  constructor
  · exact h.turns.sublist (List.filter_sublist.map _)
  · exact fun u hu u' hu' => h.refreshes u ((hmem u).mp hu).1 u' ((hmem u').mp hu').1
  · exact fun u hu => h.fresh u ((hmem u).mp hu).1
  · exact fun u hu => h.started u ((hmem u).mp hu).1
  · exact fun k hk => hrefers _ _ (h.objects k hk)
  · exact h.refs
  · exact h.identity
  · exact h.resolved
  · exact fun k hk hr u hu => h.done k hk hr u ⟨((hmem u).mp hu.1).1, hu.2⟩
  · exact h.prompt
  · exact h.caller
  · intro a ha
    obtain ⟨u, hu, hs, hc, hmatch⟩ := h.pending a ha
    exact ⟨u, hkeep u hu hc, hs, hc, hmatch⟩
  · exact fun u hu => h.slot u ((hmem u).mp hu).1
  · exact h.approvals
  · exact fun x hx => hrefers _ _ (h.active x hx)

/-- A turn registers a refresh under a new id. -/
theorem Sound.registerRefresh {refresh : Refresh} (h : s.Sound)
    (hnew : ∀ t ∈ s.turns, ∀ r ∈ t.refreshIds, r.refreshRequestId ≠ refresh.refreshRequestId) :
    (s.modifyTurn turnId fun t => { t with refreshIds := t.refreshIds ++ [refresh] }).Sound := by
  have hids : ∀ t : Turn,
      ({ t with refreshIds := t.refreshIds ++ [refresh] } : Turn).sessionId = t.sessionId ∧
        ({ t with refreshIds := t.refreshIds ++ [refresh] } : Turn).turnId = t.turnId :=
    fun t => ⟨rfl, rfl⟩
  have hbefore : ∀ u ∈ (s.modifyTurn turnId fun t =>
      { t with refreshIds := t.refreshIds ++ [refresh] }).turns,
      ∃ t ∈ s.turns, t.turnId = u.turnId ∧ t.sessionId = u.sessionId ∧ t.phase = u.phase ∧
        t.runner = u.runner ∧
        ∀ r ∈ u.refreshIds, r ∈ t.refreshIds ∨ r = refresh ∧ t.turnId = turnId := by
    intro u hu
    rcases mem_modifyTurn hu with ⟨hu, _⟩ | ⟨t, ht, hid, rfl⟩
    · exact ⟨u, hu, rfl, rfl, rfl, rfl, fun r hr => Or.inl hr⟩
    · refine ⟨t, ht, rfl, rfl, rfl, rfl, fun r hr => ?_⟩
      rcases List.mem_append.mp hr with hr | hr
      · exact Or.inl hr
      · exact Or.inr ⟨List.mem_singleton.mp hr, hid⟩
  have hafter : ∀ t ∈ s.turns, ∃ u ∈ (s.modifyTurn turnId fun t =>
      { t with refreshIds := t.refreshIds ++ [refresh] }).turns,
      u.turnId = t.turnId ∧ u.sessionId = t.sessionId ∧ u.runner = t.runner ∧
        ∀ r ∈ t.refreshIds, r ∈ u.refreshIds := by
    intro t ht
    refine ⟨_, mem_modifyTurn_of_mem ht, ?_⟩
    split
    · exact ⟨rfl, rfl, rfl, fun r hr => List.mem_append_left _ hr⟩
    · exact ⟨rfl, rfl, rfl, fun r hr => hr⟩
  have hrefers : ∀ sid tid, s.Refers sid tid → (s.modifyTurn turnId fun t =>
      { t with refreshIds := t.refreshIds ++ [refresh] }).Refers sid tid := by
    rintro sid tid ⟨t, ⟨ht, hs, hid⟩, hc⟩
    obtain ⟨u, hu, huid, hus, hrunner, _⟩ := hafter t ht
    exact ⟨u, ⟨hu, hus.trans hs, huid.trans hid⟩, by rwa [Turn.Created, hrunner]⟩
  constructor
  · exact h.turns.updateWhere fun t => rfl
  · intro u hu u' hu' r hr r' hr' heq
    obtain ⟨t, ht, hid, _, _, _, hback⟩ := hbefore u hu
    obtain ⟨t', ht', hid', _, _, _, hback'⟩ := hbefore u' hu'
    rw [← hid, ← hid']
    rcases hback r hr with hr | ⟨rfl, hturn⟩
    · rcases hback' r' hr' with hr' | ⟨rfl, _⟩
      · exact h.refreshes t ht t' ht' r hr r' hr' heq
      · exact absurd heq (hnew t ht r hr)
    · rcases hback' r' hr' with hr' | ⟨_, hturn'⟩
      · exact absurd heq.symm (hnew t' ht' r' hr')
      · rw [hturn, hturn']
  · intro u hu hp
    obtain ⟨t, ht, _, _, hphase, hrunner, _⟩ := hbefore u hu
    rw [Turn.Created, ← hrunner]
    exact h.fresh t ht (hphase ▸ hp)
  · intro u hu hp
    obtain ⟨t, ht, _, _, hphase, hrunner, _⟩ := hbefore u hu
    rw [Turn.Created, ← hrunner]
    exact h.started t ht (by rwa [hphase])
  · exact fun k hk => hrefers _ _ (h.objects k hk)
  · exact h.refs
  · exact h.identity
  · exact h.resolved
  · intro k hk hr u ⟨hu, hs, hid⟩
    obtain ⟨t, ht, htid, hts, hphase, _⟩ := hbefore u hu
    exact hphase ▸ h.done k hk hr t ⟨ht, hts.trans hs, htid.trans hid⟩
  · exact h.prompt
  · exact h.caller
  · intro a ha
    obtain ⟨t, ht, hs, hc, hmatch⟩ := h.pending a ha
    obtain ⟨u, hu, _, hus, hrunner, hsub⟩ := hafter t ht
    refine ⟨u, hu, hus.trans hs, by rwa [Turn.Created, hrunner], ?_⟩
    simp only [refreshMatches, List.any_eq_true] at hmatch ⊢
    obtain ⟨r, hr, heq⟩ := hmatch
    exact ⟨r, hsub r hr, heq⟩
  · intro u hu hc
    obtain ⟨t, ht, _, hs, _, hrunner, _⟩ := hbefore u hu
    rw [Turn.Created, ← hrunner] at hc
    exact hs ▸ h.slot t ht hc
  · exact h.approvals
  · exact fun x hx => hrefers _ _ (h.active x hx)

/-! ## The approvals -/

/-- An approval is decided. -/
theorem Sound.decideApproval {approvalId : ApprovalId} {decision : DecisionKind} (h : s.Sound) :
    (s.decideApproval approvalId decision).Sound where
  turns := h.turns
  refreshes := h.refreshes
  fresh := h.fresh
  started := h.started
  objects := h.objects
  refs := h.refs
  identity := h.identity
  resolved := h.resolved
  done := h.done
  prompt := h.prompt
  caller := h.caller
  pending a ha := by
    rcases mem_updateWhere.mp ha with ⟨b, hb, _, rfl⟩ | ⟨ha, _⟩
    · exact h.pending b hb
    · exact h.pending a ha
  slot := h.slot
  approvals := h.approvals.updateWhere fun _ => rfl
  active := h.active

/-- An approval that a turn with a context asked for is registered. -/
theorem Sound.registerRequired {a : PendingApproval} (h : s.Sound)
    (howner : ∃ t ∈ s.turns, t.sessionId = a.sessionId ∧ t.Created ∧ refreshMatches t a = true) :
    (s.registerRequired a).1.Sound := by
  unfold Server.registerRequired
  split
  · exact h
  · next hnew =>
    push Not at hnew
    have hnew : ∀ b ∈ s.pending, b.approvalId ≠ a.approvalId := by simpa using hnew.2
    have hpending : ({ s with pending := s.pending ++ [a] } : Server).Sound :=
      { turns := h.turns
        refreshes := h.refreshes
        fresh := h.fresh
        started := h.started
        objects := h.objects
        refs := h.refs
        identity := h.identity
        resolved := h.resolved
        done := h.done
        prompt := h.prompt
        caller := h.caller
        pending := by
          intro b hb
          rcases List.mem_append.mp hb with hb | hb
          · exact h.pending b hb
          · obtain rfl := List.mem_singleton.mp hb
            exact howner
        slot := h.slot
        approvals := h.approvals.append hnew
        active := h.active }
    exact hpending.of_same (.emitAll _ _) rfl

/-! ## The continuations -/

/-- A slot gets a new object for a turn that has a context. -/
theorem Sound.setContinuation (h : s.Sound) (hturn : s.Refers sessionId turnId) :
    (s.setContinuation sessionId turnId).Sound := by
  have hobject : ∀ k, (s.setContinuation sessionId turnId).Object k →
      s.Object k ∨ k = ⟨sessionId, turnId, s.nextRef⟩ := by
    rintro k (hk | hk)
    · exact (mem_setContinuation hk).imp_left Or.inl
    · exact Or.inl (Or.inr hk)
  have hnotResolved : s.nextRef ∉ s.resolved := fun hr => absurd (h.resolved _ hr) (lt_irrefl _)
  refine
    { turns := h.turns
      refreshes := h.refreshes
      fresh := h.fresh
      started := h.started
      objects := fun k hk => ?_
      refs := fun k hk => ?_
      identity := fun k k' hk hk' heq => ?_
      resolved := fun ref hr => Nat.lt_succ_of_lt (h.resolved ref hr)
      done := fun k hk hr t ht => ?_
      prompt := h.prompt
      caller := h.caller
      pending := h.pending
      slot := fun t ht hc => ?_
      approvals := h.approvals
      active := h.active }
  · rcases hobject k hk with hk | rfl
    · exact h.objects k hk
    · exact hturn
  · rcases hobject k hk with hk | rfl
    · exact Nat.lt_succ_of_lt (h.refs k hk)
    · exact Nat.lt_succ_self _
  · rcases hobject k hk with hk | rfl
    · rcases hobject k' hk' with hk' | rfl
      · exact h.identity k k' hk hk' heq
      · exact absurd (h.refs k hk) (by rw [heq]; exact lt_irrefl _)
    · rcases hobject k' hk' with hk' | rfl
      · exact absurd (h.refs k' hk') (by rw [← heq]; exact lt_irrefl _)
      · rfl
  · rcases hobject k hk with hk | rfl
    · exact h.done k hk hr t ht
    · exact absurd hr hnotResolved
  · rw [continuation?_setContinuation]
    split
    · rfl
    · exact h.slot t ht hc

/-- An object gets the outcome of a turn that is finished. -/
theorem Sound.resolve (h : s.Sound) (hk : s.Object k)
    (hfinished : ∀ t, s.HasTurn k.sessionId k.turnId t → t.phase = .finished) :
    ({ s with resolved := s.resolved ++ [k.ref] } : Server).Sound :=
  { turns := h.turns
    refreshes := h.refreshes
    fresh := h.fresh
    started := h.started
    objects := h.objects
    refs := h.refs
    identity := h.identity
    resolved := by
      intro ref hr
      rcases List.mem_append.mp hr with hr | hr
      · exact h.resolved ref hr
      · obtain rfl := List.mem_singleton.mp hr
        exact h.refs k hk
    done := by
      intro k' hk' hr t ht
      rcases List.mem_append.mp hr with hr | hr
      · exact h.done k' hk' hr t ht
      · obtain rfl := h.identity k' k hk' hk (List.mem_singleton.mp hr)
        exact hfinished t ht
    prompt := fun c k n hp => List.mem_append_left _ (h.prompt c k n hp)
    caller := h.caller
    pending := h.pending
    slot := h.slot
    approvals := h.approvals
    active := h.active }

/-! ## `execute` -/

theorem Sound.setPhase_finished (h : s.Sound) : (s.setPhase turnId .finished).Sound := by
  refine h.modifyTurn (fun t => ⟨rfl, rfl⟩) fun t _ _ => ⟨rfl, Iff.rfl, ?_⟩
  by_cases hp : t.phase = .finished
  · exact Or.inl hp.symm
  · exact Or.inr ⟨hp, (nomatch ·), fun hp => by rcases hp with hp | hp <;> exact nomatch hp⟩

theorem refers_setPhase (h : s.Refers session turn) (phase : Phase) :
    (s.setPhase turnId phase).Refers session turn := by
  obtain ⟨t, ⟨ht, hs, hid⟩, hc⟩ := h
  refine ⟨_, ⟨mem_modifyTurn_of_mem ht, ?_, ?_⟩, ?_⟩ <;> split <;> assumption

theorem finished_of_setPhase {t : Turn} (h : (s.setPhase turnId .finished).HasTurn session turnId t) :
    t.phase = .finished := by
  rcases mem_modifyTurn h.1 with ⟨_, hne⟩ | ⟨t₀, _, _, rfl⟩
  · exact absurd h.2.2 hne
  · rfl

theorem finally_same (s : Server) (t : Turn) :
    SameMaps (s.setPhase t.turnId .finished) (s.finally_ t) ∧ (s.finally_ t).deciding = s.deciding := by
  unfold finally_
  dsimp only
  split
  · exact ⟨.refl, rfl⟩
  · exact ⟨.releaseTurn _, rfl⟩

theorem publishOutcome_same (s : Server) (t : Turn) (outcome : TurnOutcome) :
    SameMaps s (s.publishOutcome t outcome) ∧ (s.publishOutcome t outcome).deciding = s.deciding := by
  unfold publishOutcome
  dsimp only
  split
  · exact ⟨.emitAll s _, rfl⟩
  · exact ⟨(SameMaps.emitAll s _).trans (.emitAll _ _), rfl⟩

/-- Apart from the slots, `execute` ends by finishing its turn. -/
theorem unwind_frame (s : Server) (t : Turn) :
    (s.unwind t).turns = (s.setPhase t.turnId .finished).turns ∧ (s.unwind t).pending = s.pending ∧
      (s.unwind t).deciding = s.deciding ∧ (s.unwind t).now = s.now ∧
      (s.unwind t).timeOrigin = s.timeOrigin ∧ (s.unwind t).approved = s.approved := by
  have henqueue : SameMaps { s with
      continuations := (s.enqueueContinuation t.sessionId t.turnId).continuations
      nextRef := (s.enqueueContinuation t.sessionId t.turnId).nextRef
      resolved := (s.enqueueContinuation t.sessionId t.turnId).resolved }
      (s.enqueueContinuation t.sessionId t.turnId) ∧
      (s.enqueueContinuation t.sessionId t.turnId).deciding = s.deciding := by
    rcases @enqueueContinuation_cases s t.sessionId t.turnId with
      ⟨k, _, _, heq⟩ | ⟨_, heq⟩ <;> rw [heq] <;>
        exact ⟨⟨rfl, rfl, rfl, rfl, rfl, rfl, rfl, rfl, rfl⟩, rfl⟩
  unfold Server.unwind
  split
  · next outcome _ =>
    obtain ⟨hpublish, hpublish'⟩ :=
      publishOutcome_same (s.enqueueContinuation t.sessionId t.turnId) t outcome
    generalize (s.enqueueContinuation t.sessionId t.turnId).publishOutcome t outcome = s₂
      at hpublish hpublish' ⊢
    obtain ⟨hlast, hlast'⟩ := finally_same s₂ t
    have hall := henqueue.1.trans hpublish
    refine ⟨?_, hlast.pending.trans hall.pending, hlast'.trans (hpublish'.trans henqueue.2),
      hlast.now.trans hall.now, hlast.timeOrigin.trans hall.timeOrigin,
      hlast.approved.trans hall.approved⟩
    rw [hlast.turns]
    show updateWhere _ _ s₂.turns = updateWhere _ _ s.turns
    rw [hall.turns]
  · obtain ⟨hlast, hlast'⟩ := finally_same
      (s.emitAll t.sessionId t.turnId [.turnFailed .runtimeUnavailable]).1 t
    exact ⟨hlast.turns, hlast.pending, hlast', hlast.now, hlast.timeOrigin, hlast.approved⟩

/-- The events that `execute` offers to the hub when it ends. -/
def closingBodies (s : Server) (t : Turn) : List SseBody :=
  match t.phase with
  | .returned outcome => s.projected t outcome
  | _ => [.turnFailed .runtimeUnavailable]

theorem publishOutcome_hub (s : Server) (t : Turn) (outcome : TurnOutcome) :
    ∃ hub, s.publishOutcome t outcome = { s with hub } ∧
      s.hub.Publishes hub t.sessionId t.turnId ((s.projected t outcome).countP SseBody.isArtifact) ∧
      ((∃ b ∈ s.projected t outcome, b.isTerminal = true) ∨ s.Terminal t.sessionId t.turnId ↔
        hub.terminal t.sessionId t.turnId = true) := by
  have hfirst := @SseHub.Publishes.emitAll t.sessionId t.turnId s.hub (s.projected t outcome)
  unfold publishOutcome
  dsimp only
  split
  · exact ⟨_, rfl, hfirst, SseHub.terminal_emitAll_iff.symm⟩
  · next hrefused =>
    have hrefused : (s.emitAll t.sessionId t.turnId (s.projected t outcome)).2 = false := by
      simpa using hrefused
    have hterminal : (s.hub.emitAll t.sessionId t.turnId (s.projected t outcome)).1.terminal t.sessionId
        t.turnId = true := SseHub.terminal_of_emitAll_false hrefused
    refine ⟨_, rfl, hfirst.trans (.emitAll _ [.turnFailed .runtimeUnavailable]), ?_⟩
    exact iff_of_true (SseHub.terminal_emitAll_iff.mp hterminal)
      (SseHub.terminal_emitAll_of_mem List.mem_cons_self rfl)

/-- What `execute` does before its `finally` block: it fills a slot, and publishes. -/
theorem unwind_cases (s : Server) (t : Turn) : ∃ s₁ : Server,
    s₁ = { s with hub := s₁.hub, continuations := s₁.continuations, nextRef := s₁.nextRef,
                  resolved := s₁.resolved } ∧
      s.hub.Publishes s₁.hub t.sessionId t.turnId ((s.closingBodies t).countP SseBody.isArtifact) ∧
      ((∃ b ∈ s.closingBodies t, b.isTerminal = true) ∨ s.Terminal t.sessionId t.turnId ↔
        s₁.Terminal t.sessionId t.turnId) ∧
      s.unwind t = s₁.finally_ t := by
  have hthrown : (s.closingBodies t = [.turnFailed .runtimeUnavailable] ∧ s.unwind t =
      (s.emitAll t.sessionId t.turnId [.turnFailed .runtimeUnavailable]).1.finally_ t) ∨
      ∃ outcome, s.closingBodies t = s.projected t outcome ∧ s.unwind t =
        ((s.enqueueContinuation t.sessionId t.turnId).publishOutcome t outcome).finally_ t := by
    unfold Server.unwind closingBodies
    cases t.phase with
    | returned outcome => exact Or.inr ⟨outcome, rfl, rfl⟩
    | _ => exact Or.inl ⟨rfl, rfl⟩
  rcases hthrown with ⟨hbodies, hunwind⟩ | ⟨outcome, hbodies, hunwind⟩
  · refine ⟨_, rfl, ?_, ?_, hunwind⟩
    · rw [hbodies]
      exact @SseHub.Publishes.emitAll t.sessionId t.turnId s.hub [.turnFailed .runtimeUnavailable]
    · rw [hbodies]
      exact SseHub.terminal_emitAll_iff.symm
  · have henqueue : ∃ slots next resolved, s.enqueueContinuation t.sessionId t.turnId =
        { s with continuations := slots, nextRef := next, resolved := resolved } := by
      rcases @enqueueContinuation_cases s t.sessionId t.turnId with
        ⟨k, _, _, heq⟩ | ⟨_, heq⟩ <;> exact ⟨_, _, _, heq⟩
    obtain ⟨slots, next, resolved, heq⟩ := henqueue
    obtain ⟨hub, hpublish, hhub, hterminal⟩ := publishOutcome_hub
      { s with continuations := slots, nextRef := next, resolved := resolved } t outcome
    rw [heq, hpublish] at hunwind
    refine ⟨_, rfl, ?_, ?_, hunwind⟩ <;> rw [hbodies]
    · exact hhub
    · exact hterminal

/-- What `execute` does to the slots: it hands its outcome over, unless it was thrown out of
`runTurn`. -/
theorem unwind_slots (s : Server) (t : Turn) :
    (∃ outcome, t.phase = .returned outcome) ∧
        (s.unwind t).continuations = (s.enqueueContinuation t.sessionId t.turnId).continuations ∧
        (s.unwind t).resolved = (s.enqueueContinuation t.sessionId t.turnId).resolved ∨
      (∀ outcome, t.phase ≠ .returned outcome) ∧ (s.unwind t).continuations = s.continuations ∧
        (s.unwind t).resolved = s.resolved := by
  have hfinally : ∀ s₁ : Server, (s₁.finally_ t).continuations = s₁.continuations ∧
      (s₁.finally_ t).resolved = s₁.resolved := fun s₁ => by
    obtain ⟨hsame, _⟩ := finally_same s₁ t
    exact ⟨hsame.continuations, hsame.resolved⟩
  unfold Server.unwind
  cases t.phase with
  | returned outcome =>
    obtain ⟨hpublish, _⟩ := publishOutcome_same (s.enqueueContinuation t.sessionId t.turnId) t outcome
    refine Or.inl ⟨⟨outcome, rfl⟩, ?_, ?_⟩
    · exact (hfinally _).1.trans hpublish.continuations
    · exact (hfinally _).2.trans hpublish.resolved
  | _ => exact Or.inr ⟨(fun _ hp => nomatch hp), (hfinally _).1, (hfinally _).2⟩

/-- What `execute` leaves behind in the maps: the turn is finished, and if `runTurn` returned, an
object has its outcome. -/
theorem Sound.unwind {t : Turn} (h : s.Sound) (ht : t ∈ s.turns) : (s.unwind t).Sound := by
  have hfinished : (s.setPhase t.turnId .finished).Sound := h.setPhase_finished
  unfold Server.unwind
  split
  · next outcome hphase =>
    have hrefers : s.Refers t.sessionId t.turnId :=
      ⟨t, ⟨ht, rfl, rfl⟩, h.started t ht (by rw [hphase]; rfl)⟩
    -- the maps are those of the commuted order: finish the turn, then hand its outcome over
    have hcommuted : ∃ s₁ : Server, s₁.Sound ∧
        s₁.turns = (s.setPhase t.turnId .finished).turns ∧ s₁.activeTurns = s.activeTurns ∧
        s₁.pending = s.pending ∧ s₁.deciding = s.deciding ∧
        s₁.continuations = (s.enqueueContinuation t.sessionId t.turnId).continuations ∧
        s₁.nextRef = (s.enqueueContinuation t.sessionId t.turnId).nextRef ∧
        s₁.resolved = (s.enqueueContinuation t.sessionId t.turnId).resolved ∧
        (s.enqueueContinuation t.sessionId t.turnId).turns = s.turns ∧
        (s.enqueueContinuation t.sessionId t.turnId).activeTurns = s.activeTurns ∧
        (s.enqueueContinuation t.sessionId t.turnId).pending = s.pending ∧
        (s.enqueueContinuation t.sessionId t.turnId).deciding = s.deciding := by
      rcases @enqueueContinuation_cases s t.sessionId t.turnId with
        ⟨k, hslot, hturn, heq⟩ | ⟨_, heq⟩
      · rw [heq]
        obtain ⟨hk, hsession⟩ := continuation?_mem hslot
        refine ⟨_, hfinished.resolve (k := k) (Or.inl hk) fun u hu => ?_, rfl, rfl, rfl, rfl, rfl, rfl,
          rfl, rfl, rfl, rfl, rfl⟩
        exact finished_of_setPhase (hturn ▸ hu)
      · rw [heq]
        have hset := hfinished.setContinuation (refers_setPhase hrefers .finished)
        refine ⟨_, hset.resolve (k := ⟨t.sessionId, t.turnId, s.nextRef⟩) (Or.inl ?_) fun u hu => ?_,
          rfl, rfl, rfl, rfl, rfl, rfl, rfl, rfl, rfl, rfl, rfl⟩
        · have hslot : ((s.setPhase t.turnId .finished).setContinuation t.sessionId
              t.turnId).continuation? t.sessionId = some ⟨t.sessionId, t.turnId, s.nextRef⟩ := by
            rw [continuation?_setContinuation, if_pos rfl]
            rfl
          exact (continuation?_mem hslot).1
        · exact @finished_of_setPhase s t.sessionId _ _ hu
    obtain ⟨s₁, hs₁, hturns, hactive, hpending, hdeciding, hslots, hnext, hresolved, hturns',
      hactive', hpending', hdeciding'⟩ := hcommuted
    have hsame := publishOutcome_same (s.enqueueContinuation t.sessionId t.turnId) t outcome
    generalize (s.enqueueContinuation t.sessionId t.turnId).publishOutcome t outcome = s₂ at hsame ⊢
    obtain ⟨hlast, hlast'⟩ := finally_same s₂ t
    refine hs₁.congr ?_ ?_ ?_ ?_ ?_ ?_ ?_
    · rw [hlast.turns, hturns]
      show updateWhere _ _ s₂.turns = updateWhere _ _ s.turns
      rw [hsame.1.turns, hturns']
    · rw [hlast.activeTurns, hactive]
      exact hsame.1.activeTurns.trans hactive'
    · rw [hlast.pending, hpending]
      exact hsame.1.pending.trans hpending'
    · rw [hlast.continuations, hslots]
      exact hsame.1.continuations
    · rw [hlast.nextRef, hnext]
      exact hsame.1.nextRef
    · rw [hlast.resolved, hresolved]
      exact hsame.1.resolved
    · rw [hlast', hsame.2, hdeciding, hdeciding']
  · obtain ⟨hlast, hlast'⟩ := finally_same
      (s.emitAll t.sessionId t.turnId [.turnFailed .runtimeUnavailable]).1 t
    exact hfinished.congr hlast.turns hlast.activeTurns hlast.pending hlast.continuations
      hlast.nextRef hlast.resolved hlast'

/-- `onTurnCreated` gives the turn a context, a slot and a registration. -/
theorem Sound.turnCreated {t : Turn} (h : s.Sound) (ht : t ∈ s.turns) (hphase : t.phase = .booting) :
    (s.turnCreated t).Sound := by
  have hf : ∀ u ∈ s.turns, u.turnId = t.turnId → u = t := fun u hu hid =>
    h.turns.eq_of_mem hu ht hid
  have hnot : ¬t.Created := h.fresh t ht (Or.inr hphase)
  -- the fields of the turns before and after
  have hbefore : ∀ u ∈ (s.turnCreated t).turns, u ∈ s.turns ∧ u.turnId ≠ t.turnId ∨
      u.turnId = t.turnId ∧ u.sessionId = t.sessionId ∧ u.refreshIds = t.refreshIds ∧ u.Created ∧
        u.phase = .running := by
    intro u hu
    rcases mem_modifyTurn (s := s) hu with hu | ⟨v, hv, hid, rfl⟩
    · exact Or.inl hu
    · obtain rfl := hf v hv hid
      exact Or.inr ⟨rfl, rfl, rfl, rfl, rfl⟩
  have hafter : ∀ u ∈ s.turns, ∃ v ∈ (s.turnCreated t).turns, v.turnId = u.turnId ∧
      v.sessionId = u.sessionId ∧ v.refreshIds = u.refreshIds ∧ (u.Created → v.Created) := by
    intro u hu
    refine ⟨_, mem_modifyTurn_of_mem hu, ?_⟩
    split
    · exact ⟨rfl, rfl, rfl, fun _ => rfl⟩
    · exact ⟨rfl, rfl, rfl, id⟩
  have hrefers : ∀ sid tid, s.Refers sid tid → (s.turnCreated t).Refers sid tid := by
    rintro sid tid ⟨u, ⟨hu, hs, hid⟩, hc⟩
    obtain ⟨v, hv, hvid, hvs, _, hvc⟩ := hafter u hu
    exact ⟨v, ⟨hv, hvs.trans hs, hvid.trans hid⟩, hvc hc⟩
  have hself : (s.turnCreated t).Refers t.sessionId t.turnId := by
    have hmem := @mem_modifyTurn_of_mem s t.turnId (fun t => { t with
      phase := .running
      deadline := s.now + turnDeadlineMs
      runner := { reducer := { hasStarted := true, events := [.turnStarted] } } }) t ht
    rw [if_pos rfl] at hmem
    exact ⟨_, ⟨hmem, rfl, rfl⟩, rfl⟩
  have hslots : (s.turnCreated t).continuations =
      (s.setContinuation t.sessionId t.turnId).continuations := rfl
  have hobject : ∀ k, (s.turnCreated t).Object k →
      s.Object k ∨ k = ⟨t.sessionId, t.turnId, s.nextRef⟩ := by
    rintro k (hk | hk)
    · exact (mem_setContinuation (hslots ▸ hk)).imp_left Or.inl
    · exact Or.inl (Or.inr hk)
  have hother : ∀ k, s.Object k → k.turnId ≠ t.turnId := by
    intro k hk hid
    obtain ⟨u, ⟨hu, _, huid⟩, hc⟩ := h.objects k hk
    exact hnot (hf u hu (huid.trans hid) ▸ hc)
  constructor
  · exact h.turns.updateWhere fun _ => rfl
  · intro u hu u' hu' r hr r' hr' heq
    have hback : ∀ u ∈ (s.turnCreated t).turns, ∃ v ∈ s.turns, v.turnId = u.turnId ∧
        v.refreshIds = u.refreshIds := by
      intro u hu
      rcases hbefore u hu with ⟨hu, _⟩ | ⟨hid, _, hrefresh, _⟩
      · exact ⟨u, hu, rfl, rfl⟩
      · exact ⟨t, ht, hid.symm, hrefresh.symm⟩
    obtain ⟨v, hv, hid, hrefresh⟩ := hback u hu
    obtain ⟨v', hv', hid', hrefresh'⟩ := hback u' hu'
    rw [← hid, ← hid']
    exact h.refreshes v hv v' hv' r (hrefresh ▸ hr) r' (hrefresh' ▸ hr') heq
  · intro u hu hp
    rcases hbefore u hu with ⟨hu, _⟩ | ⟨_, _, _, _, hrun⟩
    · exact h.fresh u hu hp
    · rw [hrun] at hp
      rcases hp with hp | hp <;> exact nomatch hp
  · intro u hu hp
    rcases hbefore u hu with ⟨hu, _⟩ | ⟨_, _, _, hc, _⟩
    · exact h.started u hu hp
    · exact hc
  · intro k hk
    rcases hobject k hk with hk | rfl
    · exact hrefers _ _ (h.objects k hk)
    · exact hself
  · intro k hk
    rcases hobject k hk with hk | rfl
    · exact Nat.lt_succ_of_lt (h.refs k hk)
    · exact Nat.lt_succ_self _
  · intro k k' hk hk' heq
    rcases hobject k hk with hk | rfl
    · rcases hobject k' hk' with hk' | rfl
      · exact h.identity k k' hk hk' heq
      · exact absurd (h.refs k hk) (by rw [heq]; exact lt_irrefl _)
    · rcases hobject k' hk' with hk' | rfl
      · exact absurd (h.refs k' hk') (by rw [← heq]; exact lt_irrefl _)
      · rfl
  · exact fun ref hr => Nat.lt_succ_of_lt (h.resolved ref hr)
  · intro k hk hr u ⟨hu, hs, hid⟩
    rcases hobject k hk with hk | rfl
    · rcases hbefore u hu with ⟨hu, _⟩ | ⟨huid, _⟩
      · exact h.done k hk hr u ⟨hu, hs, hid⟩
      · exact absurd (hid.symm.trans huid) (hother k hk)
    · exact absurd (h.resolved _ hr) (lt_irrefl _)
  · exact h.prompt
  · exact h.caller
  · intro a ha
    obtain ⟨u, hu, hs, hc, hmatch⟩ := h.pending a ha
    obtain ⟨v, hv, _, hvs, hrefresh, hvc⟩ := hafter u hu
    exact ⟨v, hv, hvs.trans hs, hvc hc, by rwa [refreshMatches, hrefresh]⟩
  · intro u hu hc
    have hslot : (s.turnCreated t).continuation? u.sessionId =
        if t.sessionId = u.sessionId then some ⟨t.sessionId, t.turnId, s.nextRef⟩
        else s.continuation? u.sessionId := continuation?_setContinuation (s := s)
    rw [hslot]
    split
    · rfl
    · next hne =>
      rcases hbefore u hu with ⟨hu, _⟩ | ⟨_, hs, _⟩
      · exact h.slot u hu hc
      · exact absurd hs.symm hne
  · exact h.approvals
  · intro x hx
    have hx : x ∈ upsert ActiveTurn.sessionId ⟨t.sessionId, t.turnId⟩ s.activeTurns := hx
    unfold upsert at hx
    split at hx
    · rcases mem_updateWhere.mp hx with ⟨_, _, _, rfl⟩ | ⟨hx, _⟩
      · exact hself
      · exact hrefers _ _ (h.active x hx)
    · rcases List.mem_append.mp hx with hx | hx
      · exact hrefers _ _ (h.active x hx)
      · obtain rfl := List.mem_singleton.mp hx
        exact hself

/-! ## Every step -/

theorem Dispatches.same (h : Dispatches s c k s') :
    SameMaps s s' ∧ (s'.deciding = none ∨ s'.deciding = some (c, .outcome k)) := by
  cases h with
  | skipped => exact ⟨.settle s c _, Or.inl rfl⟩
  | failed _ _ h => exact ⟨h.same.1, Or.inl h.same.2⟩
  | waits => exact ⟨.withDeciding s _, Or.inr rfl⟩

/-- The object of the decision that is under way. -/
theorem Sound.decidingObject (h : s.Sound) {w : Waiting} (hdeciding : s.deciding = some (c, w))
    (hk : w.continuation = some k) : s.Object k ∧ k.sessionId = c.sessionId :=
  ⟨Or.inr ⟨_, hdeciding, hk⟩, h.caller _ hdeciding k hk⟩

theorem Sound.approve (h : s.Sound) : (s.approve c).Sound :=
  (@Sound.decideApproval _ c.approvalId .approve h).congr rfl rfl rfl rfl rfl rfl rfl

theorem Sound.decides (h : s.Sound) (hd : Decides s c s') : s'.Sound := by
  cases hd with
  | refused reason => exact (SameMaps.settle s c _).sound_of_none h rfl
  | same => exact (SameMaps.settle s c _).sound_of_none h rfl
  | invokes a continuation hchecked =>
    refine (SameMaps.withDeciding s _).sound h ?_ fun c k n hp => nomatch hp
    rintro d hd k hk
    obtain rfl := Option.some.inj hd
    obtain ⟨hmem, hsession⟩ := continuation?_mem (hchecked.slot.trans hk)
    exact ⟨Or.inl hmem, hsession⟩
  | denies a continuation s₁ accepted hchecked hundecided hdecision hpublish =>
    have hsame := @SameMaps.emitAll c.sessionId (turnOf continuation)
      (s.decideApproval c.approvalId .deny) [.approvalResolved .deny, .turnCompleted .completed]
    rw [hpublish] at hsame
    have hdecided := @Sound.decideApproval _ c.approvalId .deny h
    split
    · exact ((hsame.trans (.releaseTurn s₁)).trans (.settle _ c _)).sound_of_none hdecided rfl
    · exact (hsame.trans (.settle s₁ c _)).sound_of_none hdecided rfl

theorem Sound.dispatches (h : s.Sound) (hd : Dispatches s c k s')
    (hk : s.Object k ∧ k.sessionId = c.sessionId) : s'.Sound := by
  obtain ⟨hsame, hnone | hsome⟩ := hd.same
  · exact hsame.sound_of_none h hnone
  · refine hsame.sound h ?_ fun c' k' n hp => by simp [hsome] at hp
    rintro d hd k' hk'
    rw [hsome] at hd
    obtain rfl := Option.some.inj hd
    obtain rfl := Option.some.inj hk'
    exact hk

theorem Sound.answers {continuation : Option Continuation} {ok : Bool} (h : s.Sound)
    (hdeciding : s.deciding = some (c, .facade continuation))
    (ha : Answers s c continuation ok s') : s'.Sound := by
  have hsame : ∀ s₁ b, (s.approve c).emitAll c.sessionId (turnOf continuation)
      [.approvalResolved .approve] = (s₁, b) → SameMaps (s.approve c) s₁ ∧
        s₁.deciding = s.deciding := by
    intro s₁ b hpublish
    have heq := congrArg Prod.fst hpublish
    subst heq
    exact ⟨.emitAll _ _, rfl⟩
  cases ha with
  | refused => exact (SameMaps.settle s c _).sound_of_none h rfl
  | threw s₁ hpublish => exact ((hsame _ _ hpublish).1.trans (.settle s₁ c _)).sound_of_none h.approve rfl
  | kept s₁ hpublish => exact ((hsame _ _ hpublish).1.trans (.settle s₁ c _)).sound_of_none h.approve rfl
  | dispatched s₁ s' k a hpublish hcontinuation _ _ hdispatch =>
    obtain ⟨hmaps, hd⟩ := hsame _ _ hpublish
    have hsound : s₁.Sound := h.approve.of_same hmaps hd
    exact hsound.dispatches hdispatch
      (hsound.decidingObject (hd.trans hdeciding) hcontinuation)

theorem Sound.resumes (h : s.Sound) (hdeciding : s.deciding = some (c, .outcome k))
    (hresolved : k.ref ∈ s.resolved) (hr : Resumes s c k s') : s'.Sound := by
  cases hr with
  | gone _ _ hfinish => exact hfinish.sound h
  | ended _ _ _ _ hfinish => exact hfinish.sound h
  | prompts t =>
    have hmodified : (s.modifyTurn k.turnId fun t => { t with
        runner.awaitingApproval := false }).Sound :=
      h.modifyTurn (fun _ => ⟨rfl, rfl⟩) fun _ _ _ => ⟨rfl, Iff.rfl, Or.inl rfl⟩
    have hobject := hmodified.decidingObject (k := k) hdeciding rfl
    refine (SameMaps.withDeciding _ _).sound hmodified ?_ ?_
    · rintro d hd k' hk'
      obtain rfl := Option.some.inj hd
      obtain rfl := Option.some.inj hk'
      exact hobject
    · intro c' k' n hp
      obtain ⟨_, hwait⟩ := Prod.mk.inj (Option.some.inj hp)
      obtain ⟨rfl, _⟩ := Waiting.prompt.inj hwait
      exact hresolved

theorem Sound.ends {n : Nat} {prompt : PromptEnd} (h : s.Sound)
    (hdeciding : s.deciding = some (c, .prompt k n)) (he : Ends s c k n prompt s') : s'.Sound := by
  cases he with
  | threw hfinish => exact hfinish.sound h
  | ended t runner outcome ht hrunner hfinish =>
    refine hfinish.sound (h.modifyTurn (fun _ => ⟨rfl, rfl⟩) fun u hu huid => ⟨rfl, ?_, Or.inl rfl⟩)
    obtain ⟨hmem, hid⟩ := turn?_mem ht
    obtain rfl := h.turns.eq_of_mem hu hmem (huid.trans hid.symm)
    obtain ⟨v, ⟨hv, _, hvid⟩, hc⟩ := h.objects k (h.decidingObject hdeciding rfl).1
    obtain rfl := h.turns.eq_of_mem hv hmem (hvid.trans hid.symm)
    exact iff_of_true (RunnerState.finish_hasStarted hc hrunner) hc

theorem Sound.cancels (h : s.Sound) (hc : Cancels s sessionId turnId s') : s'.Sound := by
  cases hc with
  | nothing _ hsame hdeciding => exact h.of_same hsame hdeciding
  | cancelled s₀ s₁ hsame hdeciding _ _ _ _ _ hs₁ =>
    have h₀ : s₀.Sound := h.of_same hsame hdeciding
    have hmodified : (s₀.modifyTurn turnId ({ · with cancelled := true })).Sound :=
      h₀.modifyTurn (fun _ => ⟨rfl, rfl⟩) fun _ _ _ => ⟨rfl, Iff.rfl, Or.inl rfl⟩
    have h₁ : s₁.Sound := hs₁ ▸ hmodified.of_same (.emitAll _ _) rfl
    refine Sound.of_same (s := { s₁ with
      activeTurns := s₁.activeTurns.filter (·.sessionId ≠ sessionId)
      terminalTurns := s₁.terminalTurns ++ [ActiveTurn.mk sessionId turnId] }) ?_
      (.releaseTurn _) rfl
    exact
      { turns := h₁.turns
        refreshes := h₁.refreshes
        fresh := h₁.fresh
        started := h₁.started
        objects := h₁.objects
        refs := h₁.refs
        identity := h₁.identity
        resolved := h₁.resolved
        done := h₁.done
        prompt := h₁.prompt
        caller := h₁.caller
        pending := h₁.pending
        slot := h₁.slot
        approvals := h₁.approvals
        active := fun x hx => h₁.active x (List.mem_filter.mp hx).1 }

/-- The prompt of a turn runs only after it got its context. -/
theorem Sound.created_of_prompting (h : s.Sound) {t : Turn} (ht : t ∈ s.turns)
    (hprompting : s.prompting t = true) : t.Created := by
  simp only [prompting, Bool.or_eq_true, decide_eq_true_eq] at hprompting
  rcases hprompting with hphase | hdeciding
  · exact h.started t ht (by rw [hphase]; rfl)
  · split at hdeciding
    · next c k n heq =>
      obtain ⟨u, ⟨hu, _, huid⟩, hc⟩ := h.objects k (h.decidingObject heq rfl).1
      exact h.turns.eq_of_mem hu ht (huid.trans (by simpa using hdeciding)) ▸ hc
    · exact nomatch hdeciding

theorem Sound.step {a : Action} (h : s.Sound) (hstep : s.step a = some s') : s'.Sound := by
  cases step_takes hstep with
  | tick | touch | closeSession | refused | queueDecide | createSession =>
    exact h.congr rfl rfl rfl rfl rfl rfl rfl
  | reserved sessionId turnId registry session hnew =>
    refine h.reserve (t := { sessionId, turnId }) ?_ rfl rfl (by simp [Turn.Created]) rfl rfl rfl rfl
      rfl rfl rfl
    simp only [newTurnId, Bool.and_eq_true, List.all_eq_true, decide_eq_true_eq] at hnew
    exact hnew.1.1
  | rejectMessage t ht hphase =>
    refine (@Sound.reject _ t.turnId h fun u hu hid => ?_).of_same (.releaseTurn _) rfl
    obtain rfl := h.turns.eq_of_mem hu ht hid
    exact h.fresh u hu (Or.inl hphase)
  | gone t => exact h.setPhase_finished
  | start t session ht hphase =>
    refine h.modifyTurn (fun _ => ⟨rfl, rfl⟩) fun u hu hid => ⟨rfl, Iff.rfl, Or.inr ?_⟩
    obtain rfl := h.turns.eq_of_mem hu ht hid
    exact ⟨by simp [hphase], (nomatch ·), fun _ => h.fresh u hu (Or.inl hphase)⟩
  | turnCreated t ht hphase => exact h.turnCreated ht hphase
  | bootFails t ht hphase =>
    refine h.modifyTurn (fun _ => ⟨rfl, rfl⟩) fun u hu hid => ⟨rfl, Iff.rfl, Or.inr ?_⟩
    obtain rfl := h.turns.eq_of_mem hu ht hid
    exact ⟨by simp [hphase], (nomatch ·), fun hp => by rcases hp with hp | hp <;> exact nomatch hp⟩
  | observed a t event reducer ht hprompting hevent hreducer =>
    refine h.modifyTurn (fun _ => ⟨rfl, rfl⟩) fun u hu hid => ⟨rfl, ?_, Or.inl rfl⟩
    obtain rfl := h.turns.eq_of_mem hu ht hid
    have hc := h.created_of_prompting hu hprompting
    exact iff_of_true (LifecycleReducer.transition_hasStarted hreducer hc) hc
  | registerRefresh t refresh ht hallowed hnew => exact h.registerRefresh hnew
  | refreshResult t | finalizeResult t =>
    exact h.modifyTurn (fun _ => ⟨rfl, rfl⟩) fun _ _ _ => ⟨rfl, Iff.rfl, Or.inl rfl⟩
  | approvalRequired t approvalId expiresAtMs refresh ht hallowed hrefresh =>
    have hmodified : (s.modifyTurn t.turnId ({ · with runner.awaitingApproval := true })).Sound :=
      h.modifyTurn (fun _ => ⟨rfl, rfl⟩) fun _ _ _ => ⟨rfl, Iff.rfl, Or.inl rfl⟩
    refine hmodified.registerRequired ⟨_, mem_modifyTurn_of_mem ht, ?_⟩
    have hc := h.created_of_prompting ht (by
      simp only [toolAllowed, Bool.and_eq_true] at hallowed
      exact hallowed.1.1)
    rw [if_pos rfl]
    refine ⟨rfl, hc, List.any_eq_true.mpr ⟨refresh, hrefresh, ?_⟩⟩
    simp [pendingApproval]
  | threw t prompt ht hphase =>
    refine h.modifyTurn (fun _ => ⟨rfl, rfl⟩) fun u hu hid => ⟨rfl, Iff.rfl, Or.inr ?_⟩
    obtain rfl := h.turns.eq_of_mem hu ht hid
    exact ⟨by simp [hphase], (nomatch ·), fun hp => by rcases hp with hp | hp <;> exact nomatch hp⟩
  | returned t prompt runner outcome ht hphase hfinish =>
    refine h.modifyTurn (fun _ => ⟨rfl, rfl⟩) fun u hu hid => ?_
    obtain rfl := h.turns.eq_of_mem hu ht hid
    have hc := h.started u hu (by rw [hphase]; rfl)
    refine ⟨rfl, iff_of_true (RunnerState.finish_hasStarted hc hfinish) hc, Or.inr ?_⟩
    exact ⟨by simp [hphase], fun _ => hc, fun hp => by rcases hp with hp | hp <;> exact nomatch hp⟩
  | unwind t ht => exact h.unwind ht
  | cancel _ _ _ hc => exact h.cancels hc
  | decide c queue _ hnone hqueue hd =>
    have h' : ({ s with decideQueue := queue } : Server).Sound := h.congr rfl rfl rfl rfl rfl rfl rfl
    exact h'.decides hd
  | facadeReturns ok c continuation _ hdeciding ha => exact h.answers hdeciding ha
  | outcomeReady c k _ hdeciding hresolved hr => exact h.resumes hdeciding hresolved hr
  | resumed prompt c k n _ hdeciding he => exact h.ends hdeciding he

end Server

/-- The runs of a server that starts with an empty registry. -/
abbrev Run (permits : Server → Action → Prop) (origin : Nat) (s : Server) : Prop :=
  Reached Server.step permits { timeOrigin := origin } s

theorem Run.sound {permits : Server → Action → Prop} {origin : Nat} {s : Server}
    (h : Run permits origin s) : s.Sound :=
  h.invariant (Server.Sound.init origin) fun _ _ _ hs _ => hs.step

end NanFung.Runtime
