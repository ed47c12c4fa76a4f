import NanFung.Runtime.Records
import NanFung.Runtime.Reservations

/-!
# Every turn ends once

In a quiescent state nothing is under way and no approval can be decided any more. `Concluded` says
what such a state should look like. What stands in the way is named by `Conclusive`: an approval that
expires undecided, an `execute` that ends while its session awaits an approval but has a terminal
event to publish or none that it could wait for, and a continued run of the same kind. `Accounted` is
the invariant of the runs without them; `not_concluded` is a run in which an approval expires.
-/

namespace NanFung.Runtime

open Table

namespace Server

variable {s s' : Server} {sessionId session : SessionId} {turnId turn : TurnId} {c : DecideCall}
  {k : Continuation}

/-- No `execute`, decision or dispatch is under way, and no approval waits for a decision. -/
structure Quiescent (s : Server) : Prop where
  turns : ∀ t ∈ s.turns, t.phase = .finished
  deciding : s.deciding = none
  queue : s.decideQueue = []
  pending : ∀ a ∈ s.pending, s.undecided a = false

instance (s : Server) : Decidable s.Quiescent :=
  decidable_of_iff ((∀ t ∈ s.turns, t.phase = .finished) ∧ s.deciding = none ∧ s.decideQueue = [] ∧
    ∀ a ∈ s.pending, s.undecided a = false)
    ⟨fun ⟨h₁, h₂, h₃, h₄⟩ => ⟨h₁, h₂, h₃, h₄⟩, fun h => ⟨h.turns, h.deciding, h.queue, h.pending⟩⟩

/-- The turn has one terminal event, as its last, and one artifact at most. -/
def EndedOnce (s : Server) (t : Turn) : Prop :=
  ∃ before last, s.hub.history t.sessionId t.turnId = before ++ [last] ∧ last.isTerminal = true ∧
    (∀ body ∈ before, body.isTerminal = false) ∧ before.countP SseBody.isArtifact ≤ 1

/-- In a quiescent state every turn of a live session has ended, and the session takes the next. -/
def Concluded (s : Server) : Prop :=
  s.Quiescent → ∀ t ∈ s.turns, ∀ session, s.live? t.sessionId = some session →
    s.EndedOnce t ∧ session.activeTurn = false ∧
      (session.turnCount < maxTurns → (s.registry.reserveTurn s.now t.sessionId).1 = .ok ())

/-! ## Which steps leave a turn behind -/

/-- `execute` ends a turn for good, or something else still will. -/
def leaves (s : Server) (t : Turn) : Bool :=
  s.hub.terminal t.sessionId t.turnId ||
    match t.phase with
    | .returned ⟨.awaitingApproval, _⟩ => s.continuing t.turnId || s.awaits t.sessionId t.turnId
    | _ => !s.isAwaiting t.sessionId

def Conclusive (s : Server) : Action → Prop
  | .tick ms => ∀ a ∈ s.pending, s.undecided a = true → s.clock + ms < a.expiresAtMs ∨
      ∀ t ∈ s.turns, refreshMatches t a = true → s.hub.terminal t.sessionId t.turnId = true
  | .unwind turnId => ∀ t ∈ s.turn? turnId, s.leaves t = true
  | .resumed .returned =>
    match s.deciding with
    | some (_, .prompt k _) => ∀ t ∈ s.turn? k.turnId,
        t.cancelled = false → t.runner.awaitingApproval = true →
          s.hub.terminal t.sessionId t.turnId = true ∨ s.awaits t.sessionId t.turnId = true
    | _ => True
  | _ => True

instance (s : Server) (a : Action) : Decidable (s.Conclusive a) := by
  apply Action.casesOn (motive := fun a => Decidable (s.Conclusive a)) a
  case resumed =>
    intro prompt
    apply PromptEnd.casesOn (motive := fun prompt => Decidable (s.Conclusive (.resumed prompt))) prompt
    case returned =>
      dsimp only [Conclusive]
      split <;> infer_instance
    all_goals
      dsimp only [Conclusive]
      infer_instance
  all_goals
    intros
    dsimp only [Conclusive]
    infer_instance

/-! ## Every turn is accounted for -/

structure Accounted (s : Server) : Prop where
  turns : ∀ t ∈ s.turns, (s.live? t.sessionId).isSome →
    s.Terminal t.sessionId t.turnId ∨ s.Open t.sessionId t.turnId
  flag : ∀ sessionId session, s.live? sessionId = some session → session.activeTurn = true →
    ∃ t ∈ s.turns, t.sessionId = sessionId ∧ ¬s.Terminal t.sessionId t.turnId
  ended : ∀ t ∈ s.turns, (s.live? t.sessionId).isSome → t.phase = .finished →
    t.runner.reducer.terminal = true → s.Terminal t.sessionId t.turnId
  facade : ∀ c continuation, s.deciding = some (c, .facade continuation) →
    ∃ k, continuation = some k ∧ (s.Terminal k.sessionId k.turnId ∨
      ∃ a ∈ s.pending, a.approvalId = c.approvalId ∧ s.clock < a.expiresAtMs)

theorem Accounted.keep (h : s.Accounted)
    (hids : ∀ t' ∈ s'.turns, ∃ t ∈ s.turns, t.sessionId = t'.sessionId ∧ t.turnId = t'.turnId)
    (hids' : ∀ t ∈ s.turns, ∃ t' ∈ s'.turns, t'.sessionId = t.sessionId ∧ t'.turnId = t.turnId)
    (hlive : ∀ sessionId session', s'.live? sessionId = some session' →
      ∃ session, s.live? sessionId = some session ∧
        (session'.activeTurn = true → session.activeTurn = true))
    (hterminal : ∀ sessionId turnId, s.Terminal sessionId turnId → s'.Terminal sessionId turnId)
    (hopen : ∀ sessionId turnId, (s'.live? sessionId).isSome → s.Open sessionId turnId →
      s'.Terminal sessionId turnId ∨ s'.Open sessionId turnId)
    (hnew : ∀ sessionId turnId session', s'.live? sessionId = some session' →
      session'.activeTurn = true → s'.Terminal sessionId turnId → s.Terminal sessionId turnId)
    (hended : ∀ t' ∈ s'.turns, (s'.live? t'.sessionId).isSome → t'.phase = .finished →
      t'.runner.reducer.terminal = true → s'.Terminal t'.sessionId t'.turnId ∨
        ∃ t ∈ s.turns, t.sessionId = t'.sessionId ∧ t.turnId = t'.turnId ∧ t.phase = .finished ∧
          t.runner.reducer.terminal = true)
    (hfacade : ∀ c continuation, s'.deciding = some (c, .facade continuation) →
      ∃ k, continuation = some k ∧ (s'.Terminal k.sessionId k.turnId ∨
        ∃ a ∈ s'.pending, a.approvalId = c.approvalId ∧ s'.clock < a.expiresAtMs)) :
    s'.Accounted where
  turns t' ht' hl := by
    obtain ⟨t, ht, hs, hid⟩ := hids t' ht'
    obtain ⟨session', hsession'⟩ := Option.isSome_iff_exists.mp hl
    obtain ⟨session, hsession, _⟩ := hlive _ _ hsession'
    rw [← hs, ← hid]
    rcases h.turns t ht (by rw [hs, hsession]; rfl) with hterm | ho
    · exact Or.inl (hterminal _ _ hterm)
    · exact hopen _ _ (by rw [hs]; exact hl) ho
  flag sessionId session' hl hactive := by
    obtain ⟨session, hsession, hflag⟩ := hlive sessionId session' hl
    obtain ⟨t, ht, rfl, hnot⟩ := h.flag sessionId session hsession (hflag hactive)
    obtain ⟨t', ht', hs, hid⟩ := hids' t ht
    refine ⟨t', ht', hs, fun hterm => hnot ?_⟩
    rw [hs, hid] at hterm
    exact hnew _ _ session' hl hactive hterm
  ended t' ht' hl hphase hterm := by
    rcases hended t' ht' hl hphase hterm with hdone | ⟨t, ht, hs, hid, hphase, hterm⟩
    · exact hdone
    · obtain ⟨session', hsession'⟩ := Option.isSome_iff_exists.mp hl
      obtain ⟨session, hsession, _⟩ := hlive _ _ hsession'
      rw [← hs, ← hid]
      exact hterminal _ _ (h.ended t ht (by rw [hs, hsession]; rfl) hphase hterm)
  facade := hfacade

/-! ## Nothing new is terminal, or the session was released -/

theorem flags_same (hlive : ∀ sessionId, s'.live? sessionId = s.live? sessionId) :
    ∀ sessionId session', s'.live? sessionId = some session' →
      ∃ session, s.live? sessionId = some session ∧
        (session'.activeTurn = true → session.activeTurn = true) :=
  fun sessionId session' h => ⟨session', (hlive sessionId).symm.trans h, id⟩

/-- Publishing events that are not terminal. -/
theorem terminal_of_emitAll {bodies : List SseBody} (hbodies : ∀ b ∈ bodies, b.isTerminal = false)
    (h : (s.emitAll sessionId turnId bodies).1.Terminal session turn) : s.Terminal session turn := by
  by_cases hids : sessionId = session ∧ turnId = turn
  · obtain ⟨rfl, rfl⟩ := hids
    refine (SseHub.terminal_emitAll_iff.mp h).resolve_left fun ⟨b, hb, hterminal⟩ => ?_
    rw [hbodies b hb] at hterminal
    exact nomatch hterminal
  · exact (SseHub.terminal_emitAll_other hids).symm.trans h

theorem terminal_emitAll_plain (s : Server) (sessionId : SessionId) (turnId : TurnId)
    {bodies : List SseBody} (hbodies : ∀ b ∈ bodies, b.isTerminal = false) :
    (s.emitAll sessionId turnId bodies).1.Terminal session turn ↔ s.Terminal session turn :=
  ⟨terminal_of_emitAll hbodies, terminal_emitAll_mono⟩

/-- What was published is of one turn. -/
theorem terminal_of_publishes {hub : SseHub} {n : Nat}
    (hhub : s.hub.Publishes hub sessionId turnId n) (hother : ¬(sessionId = session ∧ turnId = turn))
    (h : hub.terminal session turn = true) : s.Terminal session turn := by
  obtain ⟨published, _, hhistory⟩ := hhub.history
  rw [SseHub.terminal_eq_any, hhistory, if_neg hother, List.append_nil, ← SseHub.terminal_eq_any] at h
  exact h

/-- The turns, the sessions and the decision are as they were, and nothing new is terminal. -/
theorem Accounted.same (h : s.Accounted) (hturns : s'.turns = s.turns)
    (hlive : ∀ sessionId session', s'.live? sessionId = some session' →
      ∃ session, s.live? sessionId = some session ∧
        (session'.activeTurn = true → session.activeTurn = true))
    (hterminal : ∀ sessionId turnId, s'.Terminal sessionId turnId ↔ s.Terminal sessionId turnId)
    (hpending : s'.pending = s.pending) (hclock : s'.clock = s.clock)
    (hdeciding : s'.deciding = s.deciding) : s'.Accounted := by
  have hhas : ∀ sid tid t, s'.HasTurn sid tid t ↔ s.HasTurn sid tid t := fun sid tid t => by
    unfold HasTurn
    rw [hturns]
  refine h.keep (fun t ht => ⟨t, hturns ▸ ht, rfl, rfl⟩) (fun t ht => ⟨t, hturns ▸ ht, rfl, rfl⟩) hlive
    (fun _ _ => (hterminal _ _).mpr) (fun sid tid _ ho => Or.inr ⟨fun ht => ho.1 ((hterminal _ _).mp ht), ?_⟩)
    (fun _ _ _ _ _ => (hterminal _ _).mp) (fun t ht _ hp hterm => Or.inr ⟨t, hturns ▸ ht, rfl, rfl, hp, hterm⟩)
    fun c continuation hd => ?_
  · refine ho.2.imp ?_ (Or.imp ?_ ?_)
    · rintro ⟨t, ht, hp⟩
      exact ⟨t, (hhas _ _ t).mpr ht, hp⟩
    · rintro ⟨d, hd, hk⟩
      exact ⟨d, hdeciding ▸ hd, hk⟩
    · rintro ⟨a, ha, hundecided, hsession, t, ht, hmatch⟩
      refine ⟨a, hpending ▸ ha, ?_, hsession, t, (hhas _ _ t).mpr ht, hmatch⟩
      rwa [undecided, hclock]
  · obtain ⟨k, hk, hor⟩ := h.facade c continuation (hdeciding ▸ hd)
    refine ⟨k, hk, hor.imp (hterminal _ _).mpr ?_⟩
    rintro ⟨a, ha, hid, hlt⟩
    exact ⟨a, hpending ▸ ha, hid, hclock ▸ hlt⟩

theorem hasTurn_modifyTurn {f : Turn → Turn}
    (hf : ∀ t, (f t).sessionId = t.sessionId ∧ (f t).turnId = t.turnId) {t : Turn}
    (h : s.HasTurn session turn t) :
    (s.modifyTurn turnId f).HasTurn session turn (if t.turnId = turnId then f t else t) := by
  refine ⟨mem_modifyTurn_of_mem h.1, ?_, ?_⟩ <;> split
  · exact (hf t).1.trans h.2.1
  · exact h.2.1
  · exact (hf t).2.trans h.2.2
  · exact h.2.2

/-- A change that neither ends a turn nor forgets a refresh keeps what is open open. -/
theorem Open.modifyTurn {f : Turn → Turn} (h : s.Open session turn)
    (hf : ∀ t, (f t).sessionId = t.sessionId ∧ (f t).turnId = t.turnId)
    (hphase : ∀ t ∈ s.turns, t.turnId = turnId → t.phase ≠ .finished → (f t).phase ≠ .finished)
    (hrefresh : ∀ t, ∀ r ∈ t.refreshIds, r ∈ (f t).refreshIds) :
    (s.modifyTurn turnId f).Open session turn := by
  refine ⟨h.1, h.2.imp ?_ (Or.imp id ?_)⟩
  · rintro ⟨t, ht, hp⟩
    refine ⟨_, hasTurn_modifyTurn hf ht, ?_⟩
    split
    · next hid => exact hphase t ht.1 hid hp
    · exact hp
  · rintro ⟨a, ha, hundecided, hsession, t, ht, hmatch⟩
    refine ⟨a, ha, hundecided, hsession, _, hasTurn_modifyTurn hf ht, ?_⟩
    split
    · exact refreshMatches_mono (hrefresh t) hmatch
    · exact hmatch

theorem ids_modifyTurn {f : Turn → Turn}
    (hf : ∀ t, (f t).sessionId = t.sessionId ∧ (f t).turnId = t.turnId) :
    (∀ t' ∈ (s.modifyTurn turnId f).turns, ∃ t ∈ s.turns,
      t.sessionId = t'.sessionId ∧ t.turnId = t'.turnId) ∧
    ∀ t ∈ s.turns, ∃ t' ∈ (s.modifyTurn turnId f).turns,
      t'.sessionId = t.sessionId ∧ t'.turnId = t.turnId := by
  constructor
  · intro t' ht'
    rcases mem_modifyTurn ht' with ⟨ht', _⟩ | ⟨t, ht, _, rfl⟩
    · exact ⟨t', ht', rfl, rfl⟩
    · exact ⟨t, ht, (hf t).1.symm, (hf t).2.symm⟩
  · intro t ht
    obtain ⟨hmem, hids⟩ := @hasTurn_modifyTurn _ _ turnId _ _ hf _ ⟨ht, rfl, rfl⟩
    exact ⟨_, hmem, hids⟩

theorem Accounted.modifyTurn {f : Turn → Turn} (h : s.Accounted)
    (hf : ∀ t, (f t).sessionId = t.sessionId ∧ (f t).turnId = t.turnId)
    (hphase : ∀ t ∈ s.turns, t.turnId = turnId → t.phase ≠ .finished → (f t).phase ≠ .finished)
    (hrefresh : ∀ t, ∀ r ∈ t.refreshIds, r ∈ (f t).refreshIds)
    (hended : ∀ t ∈ s.turns, t.turnId = turnId → (f t).phase = .finished →
      (f t).runner.reducer.terminal = true → t.phase = .finished ∧ t.runner.reducer.terminal = true) :
    (s.modifyTurn turnId f).Accounted := by
  refine h.keep (ids_modifyTurn hf).1 (ids_modifyTurn hf).2 (flags_same fun _ => rfl) (fun _ _ => id)
    (fun _ _ _ ho => Or.inr (ho.modifyTurn hf hphase hrefresh)) (fun _ _ _ _ _ => id)
    (fun t' ht' _ hp hterm => Or.inr ?_) h.facade
  rcases mem_modifyTurn ht' with ⟨ht', _⟩ | ⟨t, ht, hid, rfl⟩
  · exact ⟨t', ht', rfl, rfl, hp, hterm⟩
  · obtain ⟨hp, hterm⟩ := hended t ht hid hp hterm
    exact ⟨t, ht, (hf t).1.symm, (hf t).2.symm, hp, hterm⟩

/-! ## The steps -/

/-- Time passes the expiry of no approval that a turn waits for. -/
theorem Accounted.tick {ms : Nat} (h : s.Accounted) (hs : s.Sound) (hinvoking : s.Invoking)
    (hconclusive : s.Conclusive (.tick ms)) : ({ s with now := s.now + ms } : Server).Accounted := by
  have hclock : ({ s with now := s.now + ms } : Server).clock = s.clock + ms := (Nat.add_assoc _ _ _).symm
  refine h.keep (fun t ht => ⟨t, ht, rfl, rfl⟩) (fun t ht => ⟨t, ht, rfl, rfl⟩)
    (fun sid session' hl => ⟨session', SessionRegistry.live?_of_later (Nat.le_add_right _ _) hl, id⟩)
    (fun _ _ => id) (fun sid tid _ ho => ?_) (fun _ _ _ _ _ => id)
    (fun t ht _ hp hterm => Or.inr ⟨t, ht, rfl, rfl, hp, hterm⟩) fun c continuation hd => ?_
  · rcases ho.2 with hr | hr | ⟨a, ha, hundecided, hsession, t, ht, hmatch⟩
    · exact Or.inr ⟨ho.1, Or.inl hr⟩
    · exact Or.inr ⟨ho.1, Or.inr (Or.inl hr)⟩
    · rcases hconclusive a ha hundecided with hlt | hterm
      · refine Or.inr ⟨ho.1, Or.inr (Or.inr ⟨a, ha, ?_, hsession, t, ht, hmatch⟩)⟩
        rw [undecided_iff, hclock]
        exact ⟨(undecided_iff.mp hundecided).1, hlt⟩
      · refine Or.inl ?_
        have := hterm t ht.1 hmatch
        rwa [ht.2.1, ht.2.2] at this
  · obtain ⟨k, rfl, hor⟩ := h.facade c continuation hd
    refine ⟨k, rfl, ?_⟩
    rcases hor with hterm | ⟨a, ha, hid, hlt⟩
    · exact Or.inl hterm
    -- the approval in the facade's hands is undecided, and its turn is the continuation's
    · obtain ⟨b, hb, hbid, hnone, _, hmatch⟩ := hinvoking c (some k) hd
      obtain rfl := hs.approvals.eq_of_mem ha hb (hid.trans hbid.symm)
      rcases hconclusive a ha (undecided_iff.mpr ⟨hnone, hlt⟩) with hlt | hterm
      · exact Or.inr ⟨a, ha, hid, hclock ▸ hlt⟩
      · obtain ⟨t, ht, _⟩ := hs.objects k (hs.decidingObject hd rfl).1
        have := hterm t ht.1 (hmatch k rfl t ht)
        rw [ht.2.1, ht.2.2] at this
        exact Or.inl this

theorem Accounted.createSession {registry : SessionRegistry} {state : SessionState} (h : s.Accounted)
    (hnew : s.newSessionId sessionId = true) (hstate : state.activeTurn = false)
    (hlive : ∀ other, registry.live? s.now other =
      if other = sessionId then some state else s.live? other) :
    ({ s with registry }.emitAll sessionId "session" [.sessionStarted]).1.Accounted := by
  simp only [newSessionId, Bool.and_eq_true, List.all_eq_true, decide_eq_true_eq] at hnew
  have hterminal : ∀ sid tid, (({ s with registry }.emitAll sessionId "session"
      [.sessionStarted]).1).Terminal sid tid ↔ s.Terminal sid tid := fun sid tid =>
    terminal_emitAll_plain { s with registry } sessionId "session" (by simp [SseBody.isTerminal])
  have hother : ∀ t ∈ s.turns, ∀ session, registry.live? s.now t.sessionId = some session →
      s.live? t.sessionId = some session := by
    intro t ht session hl
    rwa [hlive, if_neg (hnew.1 t ht)] at hl
  refine ⟨fun t ht hl => ?_, fun sid session hl hactive => ?_, fun t ht hl hp hterm => ?_,
    fun c continuation hd => ?_⟩
  · obtain ⟨session, hsession⟩ := Option.isSome_iff_exists.mp hl
    rcases h.turns t ht (by rw [hother t ht session hsession]; rfl) with hterm | ho
    · exact Or.inl ((hterminal _ _).mpr hterm)
    · exact Or.inr ⟨fun hterm => ho.1 ((hterminal _ _).mp hterm), ho.2⟩
  · have hl : registry.live? s.now sid = some session := hl
    rw [hlive] at hl
    split at hl
    · obtain rfl := Option.some.inj hl
      rw [hstate] at hactive
      cases hactive
    · obtain ⟨t, ht, hts, hnot⟩ := h.flag sid session hl hactive
      exact ⟨t, ht, hts, fun hterm => hnot ((hterminal _ _).mp hterm)⟩
  · obtain ⟨session, hsession⟩ := Option.isSome_iff_exists.mp hl
    exact (hterminal _ _).mpr (h.ended t ht (by rw [hother t ht session hsession]; rfl) hp hterm)
  · obtain ⟨k, hk, hor⟩ := h.facade c continuation hd
    exact ⟨k, hk, hor.imp_left (hterminal _ _).mpr⟩

theorem Accounted.reserved {registry : SessionRegistry} {state : SessionState} (h : s.Accounted)
    (hnew : s.newTurnId turnId = true) (hsession : s.live? sessionId = some state)
    (hlive : ∀ other, registry.live? s.now other =
      if other = sessionId then (s.live? sessionId).map .reserve else s.live? other) :
    ({ s with registry, turns := s.turns ++ [{ sessionId, turnId }] } : Server).Accounted := by
  simp only [newTurnId, Bool.and_eq_true, List.all_eq_true, decide_eq_true_eq] at hnew
  have hnot : ¬s.Terminal sessionId turnId := by
    intro hterm
    obtain ⟨e, he, hof⟩ := List.any_eq_true.mp hterm
    simp only [Bool.and_eq_true, SseHub.isOf_iff] at hof
    exact hnew.1.2 e he hof.1.2
  have hsome : ∀ sid, (registry.live? s.now sid).isSome → (s.live? sid).isSome := by
    intro sid hl
    rw [hlive] at hl
    split at hl
    · next heq => rw [heq, hsession]; rfl
    · exact hl
  have hself : ({ s with registry, turns := s.turns ++ [{ sessionId, turnId }] } : Server).HasTurn
      sessionId turnId { sessionId, turnId } :=
    ⟨List.mem_append_right _ List.mem_cons_self, rfl, rfl⟩
  refine ⟨fun t ht hl => ?_, fun sid session hl hactive => ?_, fun t ht hl hp hterm => ?_, h.facade⟩
  · rcases List.mem_append.mp ht with ht | ht
    · refine (h.turns t ht (hsome _ hl)).imp_right fun ho => ⟨ho.1, ho.2.imp ?_ (Or.imp_right ?_)⟩
      · rintro ⟨u, hu, hp⟩
        exact ⟨u, ⟨List.mem_append_left _ hu.1, hu.2⟩, hp⟩
      · rintro ⟨a, ha, hundecided, has, u, hu, hmatch⟩
        exact ⟨a, ha, hundecided, has, u, ⟨List.mem_append_left _ hu.1, hu.2⟩, hmatch⟩
    · obtain rfl := List.mem_singleton.mp ht
      exact Or.inr ⟨hnot, Or.inl ⟨_, hself, by simp⟩⟩
  · by_cases hsid : sid = sessionId
    · exact ⟨_, hself.1, hsid.symm, hnot⟩
    · have hl : registry.live? s.now sid = some session := hl
      rw [hlive, if_neg hsid] at hl
      obtain ⟨t, ht, hts, hn⟩ := h.flag sid session hl hactive
      exact ⟨t, List.mem_append_left _ ht, hts, hn⟩
  · rcases List.mem_append.mp ht with ht | ht
    · exact h.ended t ht (hsome _ hl) hp hterm
    · obtain rfl := List.mem_singleton.mp ht
      cases hp

theorem Accounted.rejected {t : Turn} (h : s.Accounted) (hs : s.Sound) (ht : t ∈ s.turns) :
    ({ s.releaseTurn t.sessionId with turns := s.turns.filter (·.turnId ≠ t.turnId) } : Server).Accounted := by
  have hlive : ∀ sid session', (s.registry.releaseTurn s.now t.sessionId).live? s.now sid = some session' →
      ∃ session, s.live? sid = some session ∧ (session'.activeTurn = true →
        sid ≠ t.sessionId ∧ session.activeTurn = true) := by
    intro sid session' hl
    rw [SessionRegistry.live?_releaseTurn] at hl
    split at hl
    · next heq =>
      obtain ⟨session, hsession, rfl⟩ := Option.map_eq_some_iff.mp hl
      exact ⟨session, heq ▸ hsession, fun hactive => nomatch hactive⟩
    · next hne => exact ⟨session', hl, fun hactive => ⟨hne, hactive⟩⟩
  have hsome : ∀ sid, ((s.registry.releaseTurn s.now t.sessionId).live? s.now sid).isSome →
      (s.live? sid).isSome := by
    intro sid hl
    obtain ⟨session', hsession'⟩ := Option.isSome_iff_exists.mp hl
    obtain ⟨session, hsession, _⟩ := hlive sid session' hsession'
    rw [hsession]
    rfl
  have hmem : ∀ u, u ∈ s.turns.filter (·.turnId ≠ t.turnId) ↔ u ∈ s.turns ∧ u.turnId ≠ t.turnId :=
    fun u => by simp
  refine ⟨fun u hu hl => ?_, fun sid session hl hactive => ?_, fun u hu hl hp hterm => ?_, h.facade⟩
  · obtain ⟨hu, hne⟩ := (hmem u).mp hu
    refine (h.turns u hu (hsome _ hl)).imp_right fun ho => ⟨ho.1, ho.2.imp ?_ (Or.imp_right ?_)⟩
    · rintro ⟨v, hv, hp⟩
      exact ⟨v, ⟨(hmem v).mpr ⟨hv.1, hv.2.2 ▸ hne⟩, hv.2⟩, hp⟩
    · rintro ⟨a, ha, hundecided, has, v, hv, hmatch⟩
      exact ⟨a, ha, hundecided, has, v, ⟨(hmem v).mpr ⟨hv.1, hv.2.2 ▸ hne⟩, hv.2⟩, hmatch⟩
  · obtain ⟨before, hbefore, hflag⟩ := hlive sid session hl
    obtain ⟨hne, hactive⟩ := hflag hactive
    obtain ⟨u, hu, hus, hnot⟩ := h.flag sid before hbefore hactive
    refine ⟨u, (hmem u).mpr ⟨hu, fun hid => hne ?_⟩, hus, hnot⟩
    rw [← hus, hs.turns.eq_of_mem hu ht hid]
  · exact h.ended u ((hmem u).mp hu).1 (hsome _ hl) hp hterm

/-- `execute` gives up a turn whose session is not live. -/
theorem Accounted.gone {t : Turn} (h : s.Accounted) (hs : s.Sound) (ht : t ∈ s.turns)
    (hgone : s.live? t.sessionId = none) : (s.setPhase t.turnId .finished).Accounted := by
  have hids : ∀ u : Turn, ({ u with phase := .finished } : Turn).sessionId = u.sessionId ∧
      ({ u with phase := .finished } : Turn).turnId = u.turnId := fun _ => ⟨rfl, rfl⟩
  refine h.keep (ids_modifyTurn hids).1 (ids_modifyTurn hids).2 (flags_same fun _ => rfl) (fun _ _ => id)
    (fun sid tid hl ho => Or.inr ⟨ho.1, ho.2.imp ?_ (Or.imp_right ?_)⟩) (fun _ _ _ _ _ => id)
    (fun u hu hl hp hterm => Or.inr ?_) h.facade
  · rintro ⟨u, hu, hp⟩
    refine ⟨_, hasTurn_modifyTurn hids hu, ?_⟩
    split
    · next hid =>
      obtain rfl := hs.turns.eq_of_mem hu.1 ht hid
      have hsome : (s.live? sid).isSome := hl
      rw [← hu.2.1, hgone] at hsome
      exact nomatch hsome
    · exact hp
  · rintro ⟨a, ha, hundecided, hsession, u, hu, hmatch⟩
    refine ⟨a, ha, hundecided, hsession, _, hasTurn_modifyTurn hids hu, ?_⟩
    split <;> exact hmatch
  · rcases mem_modifyTurn hu with ⟨hu, _⟩ | ⟨v, hv, hid, rfl⟩
    · exact ⟨u, hu, rfl, rfl, hp, hterm⟩
    · obtain rfl := hs.turns.eq_of_mem hv ht hid
      have hsome : (s.live? v.sessionId).isSome := hl
      rw [hgone] at hsome
      exact nomatch hsome

theorem Accounted.registerRequired {a : PendingApproval} (h : s.Accounted) :
    (s.registerRequired a).1.Accounted := by
  unfold Server.registerRequired
  split
  · exact h
  · have hterminal : ∀ id sid tid, ((({ s with pending := s.pending ++ [a] } : Server).emitAll a.sessionId
        id [.approvalRequired (some a.approvalId)]).1).Terminal sid tid ↔ s.Terminal sid tid :=
      fun id sid tid => terminal_emitAll_plain { s with pending := s.pending ++ [a] } a.sessionId id
        (by simp [SseBody.isTerminal])
    refine h.keep (fun t ht => ⟨t, ht, rfl, rfl⟩) (fun t ht => ⟨t, ht, rfl, rfl⟩) (flags_same fun _ => rfl)
      (fun sid tid => (hterminal _ _ _).mpr) (fun sid tid _ ho => Or.inr ⟨fun hterm =>
        ho.1 ((hterminal _ _ _).mp hterm), ho.2.imp id (Or.imp_right ?_)⟩)
      (fun _ _ _ _ _ => (hterminal _ _ _).mp)
      (fun t ht _ hp hterm => Or.inr ⟨t, ht, rfl, rfl, hp, hterm⟩) fun c continuation hd => ?_
    · rintro ⟨b, hb, hrest⟩
      exact ⟨b, List.mem_append_left _ hb, hrest⟩
    · obtain ⟨k, hk, hor⟩ := h.facade c continuation hd
      refine ⟨k, hk, hor.imp (hterminal _ _ _).mpr ?_⟩
      rintro ⟨b, hb, hrest⟩
      exact ⟨b, List.mem_append_left _ hb, hrest⟩

/-- The flag of a session that was released is down. -/
theorem flags_releaseTurn (hlive : ∀ sid, s'.live? sid = (s.releaseTurn sessionId).live? sid) :
    ∀ sid session', s'.live? sid = some session' →
      ∃ session, s.live? sid = some session ∧
        (session'.activeTurn = true → sid ≠ sessionId ∧ session.activeTurn = true) := by
  intro sid session' hl
  rw [hlive] at hl
  have hl : (s.registry.releaseTurn s.now sessionId).live? s.now sid = some session' := hl
  rw [SessionRegistry.live?_releaseTurn] at hl
  split at hl
  · next heq =>
    obtain ⟨session, hsession, rfl⟩ := Option.map_eq_some_iff.mp hl
    exact ⟨session, heq ▸ hsession, fun hactive => nomatch hactive⟩
  · next hne => exact ⟨session', hl, fun hactive => ⟨hne, hactive⟩⟩

theorem isTerminal_projectLifecycle (artifact : Option Artifact) (e : AgentEvent) :
    (projectLifecycle artifact e).isTerminal = e.isTerminal := by
  cases e <;> rfl

/-- What `execute` does to its turn in the end. -/
theorem terminal_of_leaves {t : Turn} (hrecord : t.Recorded s.hub) (hover : t.phase.isOver = true)
    (hleaves : s.leaves t = true) :
    ((∃ b ∈ s.closingBodies t, b.isTerminal = true) ∨ s.Terminal t.sessionId t.turnId) ∨
      t.runner.reducer.terminal = false ∧
        (s.continuing t.turnId = true ∨ s.awaits t.sessionId t.turnId = true) := by
  unfold leaves at hleaves
  rw [Bool.or_eq_true] at hleaves
  rcases hleaves with hterm | hleaves
  · exact Or.inl (Or.inr hterm)
  cases hphase : t.phase with
  | returned outcome =>
    rw [hphase] at hleaves
    rcases hrecord.returned outcome hphase with ⟨hawaiting, hterm⟩ | ⟨_, hcancelled⟩ |
      ⟨hawaiting, hstate, hevents⟩
    · obtain ⟨state, artifact⟩ := outcome
      obtain rfl : state = .awaitingApproval := hawaiting
      refine Or.inr ⟨hterm, ?_⟩
      simpa using hleaves
    · exact Or.inl (Or.inr (hrecord.cancelled hcancelled))
    · have hnot : s.isAwaiting t.sessionId = false := by
        obtain ⟨state, artifact⟩ := outcome
        cases state <;> first | exact absurd rfl hawaiting | simpa using hleaves
      refine Or.inl (Or.inl ?_)
      obtain ⟨e, he, hterminal⟩ := List.any_eq_true.mp hevents
      refine ⟨projectLifecycle outcome.artifact e, ?_, ?_⟩
      · simp only [closingBodies, hphase, projected, if_neg hstate]
        refine List.mem_map_of_mem (List.mem_filter.mpr ⟨he, ?_⟩)
        simp [hnot]
      · rw [isTerminal_projectLifecycle, hterminal]
  | thrown => exact Or.inl (Or.inl ⟨_, by simp only [closingBodies, hphase]; exact List.mem_cons_self, rfl⟩)
  | _ =>
    rw [hphase] at hover
    exact nomatch hover

/-- While the session awaits an approval, no terminal event is published. -/
theorem closingBodies_of_awaiting {t : Turn} {outcome : TurnOutcome}
    (hphase : t.phase = .returned outcome) (hawaiting : s.isAwaiting t.sessionId = true) :
    ∀ b ∈ s.closingBodies t, b.isTerminal = false := by
  intro b hb
  simp only [closingBodies, hphase, projected] at hb
  split at hb
  · exact nomatch hb
  · obtain ⟨e, he, rfl⟩ := List.mem_map.mp hb
    have := (List.mem_filter.mp he).2
    rw [isTerminal_projectLifecycle]
    simpa [hawaiting] using this

theorem Accounted.unwind {t : Turn} (h : s.Accounted) (hs : s.Sound) (hrecords : s.Records)
    (ht : t ∈ s.turns) (hover : t.phase.isOver = true) (hleaves : s.leaves t = true) :
    (s.unwind t).Accounted := by
  obtain ⟨s₁, heq, hhub, hclosing, hunwind⟩ := unwind_cases s t
  obtain ⟨hturns, hpending, hdeciding, hnow, horigin, _⟩ := unwind_frame s t
  have hids : ∀ u : Turn, ({ u with phase := .finished } : Turn).sessionId = u.sessionId ∧
      ({ u with phase := .finished } : Turn).turnId = u.turnId := fun _ => ⟨rfl, rfl⟩
  have hawaiting : (s₁.setPhase t.turnId .finished).isAwaiting t.sessionId = s.isAwaiting t.sessionId := by
    rw [heq]
    rfl
  have hnew : (s.unwind t).hub = s₁.hub := by
    rw [hunwind]
    unfold finally_
    dsimp only
    split <;> rfl
  have hclock : (s.unwind t).clock = s.clock := by rw [clock, hnow, horigin, clock]
  have hmono : ∀ sid tid, s.Terminal sid tid → (s.unwind t).Terminal sid tid := fun sid tid hterm => by
    rw [Terminal, hnew]
    exact hhub.terminal hterm
  have hterm : (s.unwind t).Terminal t.sessionId t.turnId ↔
      (∃ b ∈ s.closingBodies t, b.isTerminal = true) ∨ s.Terminal t.sessionId t.turnId := by
    rw [Terminal, hnew]
    exact hclosing.symm
  have hother : ∀ sid tid, ¬(t.sessionId = sid ∧ t.turnId = tid) → (s.unwind t).Terminal sid tid →
      s.Terminal sid tid := fun sid tid hne hterm => by
    rw [Terminal, hnew] at hterm
    exact terminal_of_publishes hhub hne hterm
  have hturn : ∀ sid tid u, s.HasTurn sid tid u → (s.unwind t).HasTurn sid tid
      (if u.turnId = t.turnId then { u with phase := .finished } else u) := fun sid tid u hu => by
    unfold HasTurn
    rw [hturns]
    exact hasTurn_modifyTurn hids hu
  have hawaits : ∀ sid tid, s.AwaitsFor sid tid → (s.unwind t).AwaitsFor sid tid := by
    rintro sid tid ⟨a, ha, hundecided, hsession, u, hu, hmatch⟩
    refine ⟨a, hpending ▸ ha, ?_, hsession, _, hturn sid tid u hu, ?_⟩
    · rwa [undecided, hclock]
    · split <;> exact hmatch
  have hcontinuing : ∀ sid tid, s.Continuing sid tid → (s.unwind t).Continuing sid tid := by
    rintro sid tid ⟨d, hd, hk⟩
    exact ⟨d, hdeciding ▸ hd, hk⟩
  have hfinal := terminal_of_leaves (hrecords.turns t ht) hover hleaves
  -- the session is released, or no terminal event was published
  have hlive : ∀ sid session', (s.unwind t).live? sid = some session' → ∃ session,
      s.live? sid = some session ∧ (session'.activeTurn = true → session.activeTurn = true ∧
        (sid = t.sessionId → s.isAwaiting t.sessionId = true)) := by
    intro sid session' hl
    rw [hunwind] at hl
    unfold finally_ at hl
    dsimp only at hl
    rw [hawaiting] at hl
    split at hl
    · next hyes =>
      refine ⟨session', ?_, fun hactive => ⟨hactive, fun _ => hyes⟩⟩
      rw [heq] at hl
      exact hl
    · obtain ⟨session, hsession, hflag⟩ := flags_releaseTurn (fun _ => rfl) sid session' hl
      refine ⟨session, ?_, fun hactive => ⟨(hflag hactive).2, fun heq' => absurd heq' (hflag hactive).1⟩⟩
      rw [heq] at hsession
      exact hsession
  refine h.keep ?_ ?_ (fun sid session' hl => ?_) hmono (fun sid tid _ ho => ?_)
    (fun sid tid session' hl hactive hterm' => ?_) (fun u hu _ hp hreducer => ?_) fun c continuation hd => ?_
  · rw [hturns]
    exact (ids_modifyTurn hids).1
  · rw [hturns]
    exact (ids_modifyTurn hids).2
  · obtain ⟨session, hsession, hflag⟩ := hlive sid session' hl
    exact ⟨session, hsession, fun hactive => (hflag hactive).1⟩
  · by_cases hself : t.sessionId = sid ∧ t.turnId = tid
    · obtain ⟨rfl, rfl⟩ := hself
      rcases hfinal with hdone | ⟨_, hleft⟩
      · exact Or.inl (hterm.mpr hdone)
      · by_cases hdone : (s.unwind t).Terminal t.sessionId t.turnId
        · exact Or.inl hdone
        · refine Or.inr ⟨hdone, Or.inr ?_⟩
          rcases hleft with hleft | hleft
          · exact Or.inl (hcontinuing _ _ (continuing_iff hs ht |>.mp hleft))
          · exact Or.inr (hawaits _ _ (awaits_iff hs |>.mp hleft))
    · refine Or.inr ⟨fun hterm' => ho.1 (hother sid tid hself hterm'), ho.2.imp ?_ (Or.imp (hcontinuing _ _) (hawaits _ _))⟩
      rintro ⟨u, hu, hp⟩
      refine ⟨_, hturn sid tid u hu, ?_⟩
      split
      · next hid =>
        obtain rfl := hs.turns.eq_of_mem hu.1 ht hid
        exact absurd ⟨hu.2.1, hu.2.2⟩ hself
      · exact hp
  · by_cases hself : t.sessionId = sid ∧ t.turnId = tid
    · obtain ⟨rfl, rfl⟩ := hself
      obtain ⟨_, _, hflag⟩ := hlive _ session' hl
      have hyes := (hflag hactive).2 rfl
      rcases hterm.mp hterm' with ⟨b, hb, hterminal⟩ | hdone
      · cases hphase : t.phase with
        | returned outcome =>
          rw [closingBodies_of_awaiting hphase hyes b hb] at hterminal
          cases hterminal
        | thrown =>
          have hdone : s.hub.terminal t.sessionId t.turnId = true := by
            simpa [leaves, hphase, hyes] using hleaves
          exact hdone
        | _ =>
          rw [hphase] at hover
          cases hover
      · exact hdone
    · exact hother sid tid hself hterm'
  · rw [hturns] at hu
    rcases mem_modifyTurn hu with ⟨hu, _⟩ | ⟨v, hv, hid, rfl⟩
    · exact Or.inr ⟨u, hu, rfl, rfl, hp, hreducer⟩
    · obtain rfl := hs.turns.eq_of_mem hv ht hid
      refine Or.inl (hterm.mpr (hfinal.resolve_right fun hleft => ?_))
      have hreducer : v.runner.reducer.terminal = true := hreducer
      rw [hleft.1] at hreducer
      cases hreducer
  · rw [hdeciding] at hd
    obtain ⟨k, hk, hor⟩ := h.facade c continuation hd
    refine ⟨k, hk, hor.imp (hmono _ _) ?_⟩
    rw [hpending, hclock]
    exact id

theorem Accounted.cancels (h : s.Accounted) (hc : Cancels s sessionId turnId s') : s'.Accounted := by
  cases hc with
  | nothing _ hsame hdeciding _ _ hhub hlive =>
    refine h.same hsame.turns (flags_same hlive) (fun _ _ => by rw [Terminal, Terminal, hhub])
      hsame.pending ?_ hdeciding
    rw [clock, clock, hsame.timeOrigin, hsame.now]
  | cancelled s₀ s₁ hsame hdeciding _ _ hhub hlive hactive hs₁ =>
    have hids : ∀ u : Turn, ({ u with cancelled := true } : Turn).sessionId = u.sessionId ∧
        ({ u with cancelled := true } : Turn).turnId = u.turnId := fun _ => ⟨rfl, rfl⟩
    have h₀ : s₀.Accounted := h.same hsame.turns (flags_same hlive)
      (fun _ _ => by rw [Terminal, Terminal, hhub]) hsame.pending
      (by rw [clock, clock, hsame.timeOrigin, hsame.now]) hdeciding
    have hmodified : (s₀.modifyTurn turnId ({ · with cancelled := true })).Accounted :=
      h₀.modifyTurn hids (fun _ _ _ => id) (fun _ _ => id) fun _ _ _ hp hterm => ⟨hp, hterm⟩
    subst hs₁
    generalize s₀.modifyTurn turnId ({ · with cancelled := true }) = s₂ at hmodified
    have hpublishes : s₂.hub.Publishes (s₂.hub.emitAll sessionId turnId [.turnCompleted .cancelled]).1
      sessionId turnId 0 := .emitAll s₂.hub _
    refine hmodified.keep (fun t ht => ⟨t, ht, rfl, rfl⟩) (fun t ht => ⟨t, ht, rfl, rfl⟩)
      (fun sid session' hl => ?_) (fun _ _ => hpublishes.terminal) (fun sid tid _ ho => ?_)
      (fun sid tid session' hl hflag hterm => ?_)
      (fun t ht _ hp hterm => Or.inr ⟨t, ht, rfl, rfl, hp, hterm⟩) fun c continuation hd => ?_
    · obtain ⟨session, hsession, hflag⟩ := flags_releaseTurn (s := s₂) (fun _ => rfl) sid session' hl
      exact ⟨session, hsession, fun hactive => (hflag hactive).2⟩
    · by_cases hterm : (s₂.hub.emitAll sessionId turnId [.turnCompleted .cancelled]).1.terminal sid tid = true
      · exact Or.inl hterm
      · exact Or.inr ⟨hterm, ho.2⟩
    · obtain ⟨session, hsession, hne⟩ := flags_releaseTurn (s := s₂) (fun _ => rfl) sid session' hl
      exact terminal_of_publishes hpublishes (fun hids => (hne hflag).1 hids.1.symm) hterm
    · obtain ⟨k, hk, hor⟩ := hmodified.facade c continuation hd
      exact ⟨k, hk, hor.imp_left hpublishes.terminal⟩

/-- A pending approval's session has a continuation, and its turn is the continuation's. -/
theorem Checked.continuation {a : PendingApproval} {continuation : Option Continuation}
    (h : s.Checked c a continuation) (hs : s.Sound) :
    ∃ k t, continuation = some k ∧ k.sessionId = c.sessionId ∧ s.HasTurn k.sessionId k.turnId t ∧
      refreshMatches t a = true := by
  have ha := List.mem_of_find?_eq_some h.found
  obtain ⟨u, hu, hus, hc, _⟩ := hs.pending a ha
  obtain ⟨k, hk⟩ := Option.isSome_iff_exists.mp (hs.slot u hu hc)
  rw [hus, h.session, h.slot] at hk
  obtain ⟨hmem, hks⟩ := continuation?_mem (h.slot.trans hk)
  obtain ⟨t, ht, _⟩ := hs.objects k (Or.inl hmem)
  refine ⟨k, t, hk, hks, ht, h.matches_ k (by simp [hk]) t ?_⟩
  rw [← ht.2.2]
  exact hs.turn?_eq ht.1

/-- A decision ends before anything else waits for it. -/
theorem Accounted.settle {settlement : Settlement} (h : s.Accounted) (hnone : s.deciding = none) :
    (s.settle c settlement).Accounted :=
  h.same rfl (flags_same fun _ => rfl) (fun _ _ => Iff.rfl) rfl rfl hnone.symm

theorem Accounted.decides (h : s.Accounted) (hs : s.Sound) (hnone : s.deciding = none)
    (hd : Decides s c s') : s'.Accounted := by
  cases hd with
  | refused | same => exact h.settle hnone
  | invokes a continuation hchecked =>
    obtain ⟨k, t, hk, _⟩ := hchecked.continuation hs
    refine h.keep (fun t ht => ⟨t, ht, rfl, rfl⟩) (fun t ht => ⟨t, ht, rfl, rfl⟩) (flags_same fun _ => rfl)
      (fun _ _ => id) (fun sid tid _ ho => Or.inr ⟨ho.1, ho.2.imp id (Or.imp ?_ id)⟩) (fun _ _ _ _ _ => id)
      (fun t ht _ hp hterm => Or.inr ⟨t, ht, rfl, rfl, hp, hterm⟩) fun c' continuation' hd => ?_
    · exact fun hc => absurd hc (not_continuing_of_none hnone)
    · obtain ⟨rfl, hw⟩ := Prod.mk.inj (Option.some.inj hd)
      obtain rfl := Waiting.facade.inj hw
      exact ⟨k, hk, Or.inr ⟨a, List.mem_of_find?_eq_some hchecked.found,
        by simpa using List.find?_some hchecked.found, hchecked.unexpired⟩⟩
  | denies a continuation s₁ accepted hchecked hundecided hdecision hpublish =>
    obtain ⟨k, t, rfl, hks, ht, hmatch⟩ := hchecked.continuation hs
    have hs₁ : ((s.decideApproval c.approvalId .deny).emitAll c.sessionId k.turnId
      [.approvalResolved .deny, .turnCompleted .completed]).1 = s₁ := congrArg Prod.fst hpublish
    subst hs₁
    have hpublishes : s.hub.Publishes (s.hub.emitAll c.sessionId k.turnId
        [.approvalResolved .deny, .turnCompleted .completed]).1 c.sessionId k.turnId 0 :=
      .emitAll s.hub _
    have hterminal : (s.hub.emitAll c.sessionId k.turnId
        [.approvalResolved .deny, .turnCompleted .completed]).1.terminal c.sessionId k.turnId = true :=
      SseHub.terminal_emitAll_of_mem (List.mem_cons_of_mem _ List.mem_cons_self) rfl
    -- the approval that is decided is one of the turn that ends
    have hopen : ∀ sid tid, s.Open sid tid → (s.hub.emitAll c.sessionId k.turnId
        [.approvalResolved .deny, .turnCompleted .completed]).1.terminal sid tid = true ∨
          (s.decideApproval c.approvalId .deny).AwaitsFor sid tid ∨ s.Executing sid tid := by
      rintro sid tid ⟨_, hr | hr | ⟨b, hb, hundecided', hbs, u, hu, hmatch'⟩⟩
      · exact Or.inr (Or.inr hr)
      · exact absurd hr (not_continuing_of_none hnone)
      · by_cases hid : b.approvalId = c.approvalId
        · have ha := List.mem_of_find?_eq_some hchecked.found
          have haid : a.approvalId = c.approvalId := by simpa using List.find?_some hchecked.found
          obtain rfl := hs.approvals.eq_of_mem hb ha (hid.trans haid.symm)
          obtain rfl := hs.owner_unique hu.1 ht.1 hmatch' hmatch
          refine Or.inl ?_
          rw [← hu.2.1, ← hu.2.2, ht.2.1, ht.2.2, hks]
          exact hterminal
        · refine Or.inr (Or.inl ⟨b, ?_, hundecided', hbs, u, hu, hmatch'⟩)
          show _ ∈ updateWhere _ _ s.pending
          simpa [hid] using mem_updateWhere_of_mem (p := fun a : PendingApproval =>
            a.approvalId = c.approvalId) (f := PendingApproval.decided .deny) hb
    have hkeep : ∀ s' : Server, s'.turns = s.turns →
        s'.pending = (s.decideApproval c.approvalId .deny).pending → s'.clock = s.clock →
        s'.hub = (s.hub.emitAll c.sessionId k.turnId
          [.approvalResolved .deny, .turnCompleted .completed]).1 → s'.deciding = none →
        (∀ sid session', s'.live? sid = some session' → ∃ session, s.live? sid = some session ∧
          (session'.activeTurn = true → session.activeTurn = true ∧
            (s.Terminal c.sessionId k.turnId ∨ sid ≠ c.sessionId))) → s'.Accounted := by
      intro s' hturns hpending hclock hhub hdeciding hlive
      refine h.keep (fun t ht => ⟨t, hturns ▸ ht, rfl, rfl⟩) (fun t ht => ⟨t, hturns ▸ ht, rfl, rfl⟩)
        (fun sid session' hl => ?_) (fun sid tid hterm => ?_) (fun sid tid _ ho => ?_)
        (fun sid tid session' hl hactive hterm => ?_)
        (fun t ht _ hp hterm => Or.inr ⟨t, hturns ▸ ht, rfl, rfl, hp, hterm⟩)
        fun c continuation hd => by simp [hdeciding] at hd
      · obtain ⟨session, hsession, hflag⟩ := hlive sid session' hl
        exact ⟨session, hsession, fun hactive => (hflag hactive).1⟩
      · rw [Terminal, hhub]
        exact hpublishes.terminal hterm
      · by_cases hterm : s'.Terminal sid tid
        · exact Or.inl hterm
        · refine Or.inr ⟨hterm, ?_⟩
          rw [Terminal, hhub] at hterm
          rcases (hopen sid tid ho).resolve_left hterm with ⟨b, hb, hundecided', hrest⟩ | ⟨u, hu, hp⟩
          · refine Or.inr (Or.inr ⟨b, hpending ▸ hb, ?_, ?_⟩)
            · rwa [undecided, hclock]
            · unfold HasTurn
              rw [hturns]
              exact hrest
          · refine Or.inl ⟨u, ?_, hp⟩
            unfold HasTurn
            rwa [hturns]
      · obtain ⟨_, _, hflag⟩ := hlive sid session' hl
        rw [Terminal, hhub] at hterm
        by_cases hids : c.sessionId = sid ∧ k.turnId = tid
        · obtain ⟨rfl, rfl⟩ := hids
          exact (hflag hactive).2.resolve_right fun hne => hne rfl
        · exact terminal_of_publishes hpublishes hids hterm
    cases accepted with
    | true =>
      refine hkeep _ rfl rfl rfl rfl rfl fun sid session' hl => ?_
      obtain ⟨session, hsession, hflag⟩ := flags_releaseTurn (s := s) (fun _ => rfl) sid session' hl
      exact ⟨session, hsession, fun hactive => ⟨(hflag hactive).2, Or.inr (hflag hactive).1⟩⟩
    | false =>
      refine hkeep _ rfl rfl rfl rfl rfl fun sid session' hl => ⟨session', hl, fun hactive => ⟨hactive, ?_⟩⟩
      refine Or.inl ?_
      by_contra hnot
      have haccepted : (s.hub.emitAll c.sessionId k.turnId
          [.approvalResolved .deny, .turnCompleted .completed]).2 = true :=
        SseHub.emitAll_accepted (by simpa [Terminal] using hnot) (by simp [SseBody.isTerminal])
      have hrefused : (s.hub.emitAll c.sessionId k.turnId
          [.approvalResolved .deny, .turnCompleted .completed]).2 = false := congrArg Prod.snd hpublish
      rw [haccepted] at hrefused
      cases hrefused

theorem Finishes.publishes {bodies : Option (List SseBody)} (h : Finishes s c k bodies s') :
    s.hub.Publishes s'.hub k.sessionId k.turnId ((bodies.getD []).countP SseBody.isArtifact) := by
  cases h with
  | released _ _ _ _ _ hhub | threw _ _ _ _ _ hhub => exact hhub

/-- The end of a dispatch: its turn is terminal, or something else is still to end it. -/
theorem Finishes.accounted {bodies : Option (List SseBody)} (hfinish : Finishes s c k bodies s')
    (hturns : ∀ t ∈ s.turns, (s.live? t.sessionId).isSome →
      ¬(k.sessionId = t.sessionId ∧ k.turnId = t.turnId) →
        s.Terminal t.sessionId t.turnId ∨ s.Open t.sessionId t.turnId)
    (hflag : ∀ sid session, s.live? sid = some session → session.activeTurn = true →
      ∃ t ∈ s.turns, t.sessionId = sid ∧ ¬s.Terminal t.sessionId t.turnId)
    (hended : ∀ t ∈ s.turns, (s.live? t.sessionId).isSome → t.phase = .finished →
      t.runner.reducer.terminal = true → s'.Terminal t.sessionId t.turnId)
    (honly : ∀ sid tid, s.Continuing sid tid → k.sessionId = sid ∧ k.turnId = tid)
    (hlast : ∀ b ∈ (bodies.getD []).dropLast, b.isTerminal = false)
    (hleft : (s.live? k.sessionId).isSome → s'.Terminal k.sessionId k.turnId ∨
      s.Executing k.sessionId k.turnId ∨ s.AwaitsFor k.sessionId k.turnId) : s'.Accounted := by
  have hsame := hfinish.same.1
  have hnone := hfinish.same.2
  have hhub := hfinish.publishes
  -- the session was released, or its turn was terminal before
  have hlive : ∀ sid session', s'.live? sid = some session' → ∃ session, s.live? sid = some session ∧
      (session'.activeTurn = true → session.activeTurn = true ∧
        (s.Terminal k.sessionId k.turnId ∨ sid ≠ k.sessionId)) := by
    intro sid session' hl
    cases hfinish with
    | released s₁ hsame₁ hregistry =>
      have hl₁ : ∀ sid, s₁.live? sid = s.live? sid := fun sid => by
        rw [live?, live?, hregistry, hsame₁.now]
      obtain ⟨session, hsession, hf⟩ := flags_releaseTurn (s := s₁) (fun _ => rfl) sid session' hl
      exact ⟨session, (hl₁ sid).symm.trans hsession, fun ha => ⟨(hf ha).2, Or.inr (hf ha).1⟩⟩
    | threw s₁ hsame₁ hregistry _ _ _ _ hbefore _ =>
      refine ⟨session', ?_, fun ha => ⟨ha, Or.inl (hbefore hlast)⟩⟩
      have hl : s₁.registry.live? s₁.now sid = some session' := hl
      rwa [hregistry, hsame₁.now] at hl
  have hsome : ∀ sid, (s'.live? sid).isSome → (s.live? sid).isSome := by
    intro sid hl
    obtain ⟨session', hsession'⟩ := Option.isSome_iff_exists.mp hl
    obtain ⟨session, hsession, _⟩ := hlive sid session' hsession'
    rw [hsession]
    rfl
  have hreasons : ∀ sid tid, s.Executing sid tid ∨ s.AwaitsFor sid tid →
      s'.Executing sid tid ∨ s'.Continuing sid tid ∨ s'.AwaitsFor sid tid := fun sid tid hr =>
    hr.imp hsame.executing.mpr fun ha => Or.inr (hsame.awaitsFor.mpr ha)
  refine ⟨fun t ht hl => ?_, fun sid session' hl hactive => ?_, fun t ht hl hp hterm => ?_,
    fun c continuation hd => by simp [hnone] at hd⟩
  · rw [hsame.turns] at ht
    by_cases hterm : s'.Terminal t.sessionId t.turnId
    · exact Or.inl hterm
    refine Or.inr ⟨hterm, hreasons _ _ ?_⟩
    by_cases hself : k.sessionId = t.sessionId ∧ k.turnId = t.turnId
    · rw [← hself.1, ← hself.2] at hterm ⊢
      exact (hleft (hsome _ (hself.1 ▸ hl))).resolve_left hterm
    · rcases hturns t ht (hsome _ hl) hself with hbefore | ho
      · exact absurd (hhub.terminal hbefore) hterm
      · exact ho.2.imp_right fun hr => hr.resolve_left fun hc => hself (honly _ _ hc)
  · obtain ⟨session, hsession, hf⟩ := hlive sid session' hl
    obtain ⟨hactive, hor⟩ := hf hactive
    obtain ⟨t, ht, hts, hnot⟩ := hflag sid session hsession hactive
    refine ⟨t, hsame.turns ▸ ht, hts, fun hterm => hnot ?_⟩
    by_cases hself : k.sessionId = t.sessionId ∧ k.turnId = t.turnId
    · rw [← hself.1, ← hself.2]
      exact hor.resolve_right fun hne => hne (hts.symm.trans hself.1.symm)
    · exact terminal_of_publishes hhub hself hterm
  · rw [hsame.turns] at ht
    exact hended t ht (hsome _ hl) hp hterm

theorem only_continuing {w : Waiting} (hdeciding : s.deciding = some (c, w)) (hw : w.continues = some k)
    (h : s.Continuing session turn) : k.sessionId = session ∧ k.turnId = turn := by
  obtain ⟨d, hd, k', hk', hids⟩ := h
  rw [hdeciding] at hd
  obtain rfl := Option.some.inj hd
  obtain rfl := Option.some.inj (hw.symm.trans hk')
  exact hids

/-- The facade has approved, and one event is out. -/
structure Approves (s : Server) (c : DecideCall) (k : Continuation) (s' : Server) : Prop where
  turns : s'.turns = s.turns
  pending : s'.pending = (s.approve c).pending
  clock : s'.clock = s.clock
  live : ∀ sid, s'.live? sid = s.live? sid
  terminal : ∀ sid tid, s'.Terminal sid tid ↔ s.Terminal sid tid

theorem approves (s : Server) (c : DecideCall) (k : Continuation) (d : Option (DecideCall × Waiting))
    (settled : List (DecideCall × Settlement)) :
    Approves s c k { ((s.approve c).emitAll c.sessionId k.turnId [.approvalResolved .approve]).1 with
      deciding := d, settled } where
  turns := rfl
  pending := rfl
  clock := rfl
  live _ := rfl
  terminal _ _ := by
    have hplain : ∀ b ∈ [SseBody.approvalResolved .approve], b.isTerminal = false := by
      simp [SseBody.isTerminal]
    exact terminal_emitAll_plain (s.approve c) c.sessionId k.turnId hplain

/-- What another turn waited for it still waits for. -/
theorem Approves.reasons (h : Approves s c k s') (hs : s.Sound) (hinvoking : s.Invoking)
    (hdeciding : s.deciding = some (c, .facade (some k)))
    (hself : ¬(k.sessionId = session ∧ k.turnId = turn)) (ho : s.Open session turn) :
    s'.Executing session turn ∨ s'.AwaitsFor session turn := by
  have hhas : ∀ t, s'.HasTurn session turn t ↔ s.HasTurn session turn t := fun t => by
    unfold HasTurn
    rw [h.turns]
  rcases ho.2 with ⟨t, ht, hp⟩ | hc | ⟨b, hb, hundecided, hbs, t, ht, hmatch⟩
  · exact Or.inl ⟨t, (hhas t).mpr ht, hp⟩
  · exact absurd hc (not_continuing_of_facade hdeciding)
  · refine Or.inr ⟨b, ?_, ?_, hbs, t, (hhas t).mpr ht, hmatch⟩
    · by_cases hid : b.approvalId = c.approvalId
      · obtain ⟨a, ha, haid, _, _, hmatch'⟩ := hinvoking c (some k) hdeciding
        obtain rfl := hs.approvals.eq_of_mem hb ha (hid.trans haid.symm)
        obtain ⟨u, hu, _⟩ := hs.objects k (hs.decidingObject hdeciding rfl).1
        obtain rfl := hs.owner_unique hu.1 ht.1 (hmatch' k rfl u hu) hmatch
        exact absurd ⟨hu.2.1.symm.trans ht.2.1, hu.2.2.symm.trans ht.2.2⟩ hself
      · rw [h.pending]
        show _ ∈ updateWhere _ _ s.pending
        simpa [hid] using mem_updateWhere_of_mem (p := fun a : PendingApproval =>
          a.approvalId = c.approvalId) (f := PendingApproval.decided .approve) hb
    · rwa [undecided, h.clock]

theorem Approves.accounted (h : Approves s c k s') (ha : s.Accounted) (hs : s.Sound)
    (hinvoking : s.Invoking) (hdeciding : s.deciding = some (c, .facade (some k)))
    (hnot : ∀ c' continuation, s'.deciding ≠ some (c', .facade continuation))
    (hk : (s.live? k.sessionId).isSome → ¬s'.Terminal k.sessionId k.turnId →
      s'.Continuing k.sessionId k.turnId) : s'.Accounted := by
  refine ha.keep (fun t ht => ⟨t, h.turns ▸ ht, rfl, rfl⟩) (fun t ht => ⟨t, h.turns ▸ ht, rfl, rfl⟩)
    (flags_same h.live) (fun _ _ => (h.terminal _ _).mpr) (fun sid tid hl ho => ?_)
    (fun _ _ _ _ _ => (h.terminal _ _).mp)
    (fun t ht _ hp hterm => Or.inr ⟨t, h.turns ▸ ht, rfl, rfl, hp, hterm⟩)
    fun c' continuation' hd => absurd hd (hnot c' continuation')
  have hterm : ¬s'.Terminal sid tid := fun hterm => ho.1 ((h.terminal _ _).mp hterm)
  refine Or.inr ⟨hterm, ?_⟩
  by_cases hself : k.sessionId = sid ∧ k.turnId = tid
  · obtain ⟨rfl, rfl⟩ := hself
    exact Or.inr (Or.inl (hk (by rwa [← h.live]) hterm))
  · exact (h.reasons hs hinvoking hdeciding hself ho).imp_right Or.inr

theorem Accounted.answers {continuation : Option Continuation} {ok : Bool} (h : s.Accounted)
    (hs : s.Sound) (hinvoking : s.Invoking) (hdeciding : s.deciding = some (c, .facade continuation))
    (hanswers : Answers s c continuation ok s') : s'.Accounted := by
  obtain ⟨k, rfl, hfacade⟩ := h.facade c continuation hdeciding
  have hcaller := (hs.decidingObject hdeciding rfl).2
  cases hanswers with
  | refused =>
    refine h.keep (fun t ht => ⟨t, ht, rfl, rfl⟩) (fun t ht => ⟨t, ht, rfl, rfl⟩) (flags_same fun _ => rfl)
      (fun _ _ => id) (fun sid tid _ ho => Or.inr ⟨ho.1, ho.2.imp id (Or.imp ?_ id)⟩) (fun _ _ _ _ _ => id)
      (fun t ht _ hp hterm => Or.inr ⟨t, ht, rfl, rfl, hp, hterm⟩) fun c' continuation' hd => nomatch hd
    exact fun hc => absurd hc (not_continuing_of_facade hdeciding)
  | threw s₁ hpublish =>
    obtain rfl : ((s.approve c).emitAll c.sessionId k.turnId
      [.approvalResolved .approve]).1 = s₁ := congrArg Prod.fst hpublish
    refine (approves s c k none _).accounted h hs hinvoking hdeciding (fun _ _ hd => nomatch hd)
      fun _ hnot => absurd ?_ hnot
    rw [hcaller]
    exact terminal_of_emitAll_refused (congrArg Prod.snd hpublish)
  | kept s₁ hpublish hkept =>
    obtain rfl : ((s.approve c).emitAll c.sessionId k.turnId
      [.approvalResolved .approve]).1 = s₁ := congrArg Prod.fst hpublish
    refine (approves s c k none _).accounted h hs hinvoking hdeciding (fun _ _ hd => nomatch hd)
      fun hl hnot => ?_
    rcases hfacade with hterm | ⟨a, ha, hid, hlt⟩
    · exact absurd (((approves s c k none _).terminal _ _).mpr hterm) hnot
    · -- the approval has not expired, so the session is not live
      have hdecided : a.decided .approve ∈ (s.approve c).pending := by
        show _ ∈ updateWhere _ _ s.pending
        simpa [hid] using mem_updateWhere_of_mem (p := fun a : PendingApproval =>
          a.approvalId = c.approvalId) (f := PendingApproval.decided .approve) ha
      have hfound := hs.approve.approvals.find?_eq_some.mpr ⟨hdecided, hid⟩
      have hgone := hkept k rfl _ hfound hlt
      have hgone : s.live? c.sessionId = none := hgone
      rw [hcaller, hgone] at hl
      exact nomatch hl
  | dispatched s₁ _ k' a hpublish hcontinuation hfound hunexpired hdispatch =>
    obtain rfl := Option.some.inj hcontinuation
    obtain rfl : ((s.approve c).emitAll c.sessionId k.turnId
      [.approvalResolved .approve]).1 = s₁ := congrArg Prod.fst hpublish
    cases hdispatch with
    | skipped hgone =>
      refine (approves s c k none _).accounted h hs hinvoking hdeciding (fun _ _ hd => nomatch hd)
        fun hl => ?_
      have hgone : s.live? k.sessionId = none := hgone
      rw [hgone] at hl
      exact nomatch hl
    | waits =>
      refine (approves s c k (some (c, .outcome k)) s.settled).accounted h hs hinvoking hdeciding
        (fun _ _ hd => nomatch hd) fun _ _ => ⟨_, rfl, k, rfl, rfl, rfl⟩
    | failed _ hdeadline hfinish =>
      have happ := approves s c k s.deciding s.settled
      refine hfinish.accounted (fun t ht hl hself => ?_) (fun sid session hl hactive => ?_)
        (fun t ht hl hp hterm => ?_) (fun sid tid hc => ?_) (by simp)
        fun _ => Or.inl (hfinish.terminal (Or.inl rfl))
      · refine (h.turns t ht hl).imp (happ.terminal _ _).mpr fun ho => ?_
        exact ⟨fun hterm => ho.1 ((happ.terminal _ _).mp hterm),
          (happ.reasons hs hinvoking hdeciding hself ho).imp_right Or.inr⟩
      · obtain ⟨t, ht, hts, hnot⟩ := h.flag sid session hl hactive
        exact ⟨t, ht, hts, fun hterm => hnot ((happ.terminal _ _).mp hterm)⟩
      · have := (happ.terminal _ _).mpr (h.ended t ht hl hp hterm)
        exact hfinish.publishes.terminal this
      · exact absurd hc (not_continuing_of_facade hdeciding)

theorem Accounted.resumes (h : s.Accounted) (hs : s.Sound) (hrecords : s.Records)
    (hdeciding : s.deciding = some (c, .outcome k)) (hresolved : k.ref ∈ s.resolved)
    (hr : Resumes s c k s') : s'.Accounted := by
  obtain ⟨hobject, hcaller⟩ := hs.decidingObject hdeciding rfl
  have hended : ∀ bodies, Finishes s c k bodies s' → bodies = none ∨ bodies = some [] →
      ((s.live? k.sessionId).isSome → s'.Terminal k.sessionId k.turnId) → s'.Accounted := by
    intro bodies hfinish hbodies hleft
    exact hfinish.accounted (fun t ht hl _ => h.turns t ht hl) h.flag
      (fun t ht hl hp hterm => hfinish.publishes.terminal (h.ended t ht hl hp hterm))
      (fun sid tid hc => only_continuing hdeciding rfl hc)
      (by rcases hbodies with rfl | rfl <;> simp) fun hl => Or.inl (hleft hl)
  cases hr with
  | gone _ _ hfinish => exact hended _ hfinish (Or.inl rfl) fun _ => hfinish.terminal (Or.inl rfl)
  | ended _ t ht hstate hfinish =>
    refine hended _ hfinish (Or.inr rfl) fun hl => hfinish.publishes.terminal ?_
    -- the run had ended, so its terminal event was published when `execute` ended
    obtain ⟨u, hu, hcreated⟩ := hs.objects k hobject
    obtain ⟨hmem, hid⟩ := turn?_mem ht
    obtain rfl := hs.turns.eq_of_mem hu.1 hmem (hu.2.2.trans hid.symm)
    have hterm := ((hrecords.turns u hmem).plain hcreated).1.2.mpr hstate
    have := h.ended u hmem (by rwa [hu.2.1]) (hs.done k hobject hresolved u hu) hterm
    rwa [hu.2.1, hu.2.2] at this
  | prompts t ht hstate =>
    have hmodified : (s.modifyTurn k.turnId fun t => { t with
        runner.awaitingApproval := false }).Accounted :=
      h.modifyTurn (fun _ => ⟨rfl, rfl⟩) (fun _ _ _ => id) (fun _ _ => id) fun _ _ _ hp hterm => ⟨hp, hterm⟩
    refine hmodified.keep (fun t ht => ⟨t, ht, rfl, rfl⟩) (fun t ht => ⟨t, ht, rfl, rfl⟩)
      (flags_same fun _ => rfl) (fun _ _ => id)
      (fun sid tid _ ho => Or.inr ⟨ho.1, ho.2.imp id (Or.imp ?_ id)⟩) (fun _ _ _ _ _ => id)
      (fun t ht _ hp hterm => Or.inr ⟨t, ht, rfl, rfl, hp, hterm⟩) fun c' continuation' hd => nomatch hd
    intro hc
    exact ⟨_, rfl, k, rfl, only_continuing hdeciding rfl hc⟩

theorem mem_dropLast_of_mem_drop {α : Type} {l : List α} {n : Nat} {x : α}
    (h : x ∈ (l.drop n).dropLast) : x ∈ l.dropLast := by
  by_cases hnil : l.drop n = []
  · rw [hnil] at h
    exact nomatch h
  · rw [← List.take_append_drop n l, List.dropLast_append_of_ne_nil hnil]
    exact List.mem_append_right _ h

theorem Accounted.ends {n : Nat} {prompt : PromptEnd} (h : s.Accounted) (hs : s.Sound)
    (hrecords : s.Records) (hdeciding : s.deciding = some (c, .prompt k n))
    (hconclusive : s.Conclusive (.resumed prompt)) (he : Ends s c k n prompt s') : s'.Accounted := by
  obtain ⟨hobject, hcaller⟩ := hs.decidingObject hdeciding rfl
  cases he with
  | threw hfinish =>
    exact hfinish.accounted (fun t ht hl _ => h.turns t ht hl) h.flag
      (fun t ht hl hp hterm => hfinish.publishes.terminal (h.ended t ht hl hp hterm))
      (fun sid tid hc => only_continuing hdeciding rfl hc) (by simp)
      fun _ => Or.inl (hfinish.terminal (Or.inl rfl))
  | ended t runner outcome ht hrunner hfinish =>
    obtain ⟨u, hu, hcreated⟩ := hs.objects k hobject
    obtain ⟨hmem, hid⟩ := turn?_mem ht
    obtain rfl := hs.turns.eq_of_mem hu.1 hmem (hu.2.2.trans hid.symm)
    obtain ⟨hsound, hevents, hclosing⟩ := (hrecords.turns u hmem).finished_runner hcreated hrunner
    have hids : ∀ t : Turn, ({ t with runner } : Turn).sessionId = t.sessionId ∧
        ({ t with runner } : Turn).turnId = t.turnId := fun _ => ⟨rfl, rfl⟩
    have hstart := (hrecords.prompt c k n hdeciding u hu).1
    -- what the resumed run closes with is published
    have hpublished : outcome.terminalState ≠ .awaitingApproval → s'.Terminal k.sessionId k.turnId := by
      intro hne
      obtain ⟨e, he, hterminal⟩ := List.any_eq_true.mp (hclosing hne)
      refine hfinish.terminal (Or.inr ⟨projectLifecycle outcome.artifact e, ?_, ?_⟩)
      · refine List.mem_map_of_mem ?_
        rw [hevents, List.drop_append_of_le_length hstart]
        exact List.mem_append_right _ he
      · rw [isTerminal_projectLifecycle, hterminal]
    have hmono := fun sid tid => hfinish.publishes.terminal (s := sid) (t := tid)
    refine hfinish.accounted (fun t' ht' hl _ => ?_) (fun sid session hl hactive => ?_)
      (fun t' ht' hl hp hterm => ?_) (fun sid tid hc => only_continuing (s := s) hdeciding rfl hc)
      (fun b hb => ?_) fun _ => ?_
    · obtain ⟨t, ht, hts, htid⟩ := (ids_modifyTurn hids).1 t' ht'
      rw [← hts, ← htid]
      have hl : (s.live? t'.sessionId).isSome := hl
      exact (h.turns t ht (hts ▸ hl)).imp_right fun ho => ho.modifyTurn hids (fun _ _ _ => id) fun _ _ => id
    · obtain ⟨t, ht, hts, hnot⟩ := h.flag sid session hl hactive
      obtain ⟨t', ht', hts', htid'⟩ := (@ids_modifyTurn s k.turnId _ hids).2 t ht
      refine ⟨t', ht', hts'.trans hts, ?_⟩
      rw [hts', htid']
      exact hnot
    · rcases mem_modifyTurn ht' with ⟨ht', _⟩ | ⟨v, hv, hvid, rfl⟩
      · exact hmono _ _ (h.ended t' ht' hl hp hterm)
      · obtain rfl := hs.turns.eq_of_mem hv hmem (hvid.trans hid.symm)
        by_cases hne : outcome.terminalState = .awaitingApproval
        · -- nothing was added, so the run had been terminal before
          have hbefore : v.runner.reducer.terminal = true := by
            have hterm : runner.reducer.terminal = true := hterm
            rw [hsound.reducer.terminal, hevents, (awaiting_of_finish hrunner hne).2.2.2,
              List.append_nil] at hterm
            rw [(hrecords.turns v hmem).reducer.terminal, hterm]
          exact hmono _ _ (h.ended v hv hl hp hbefore)
        · show s'.Terminal v.sessionId v.turnId
          rw [hu.2.1, hu.2.2]
          exact hpublished hne
    · rw [Option.getD_some, ← List.map_dropLast] at hb
      obtain ⟨e, he, rfl⟩ := List.mem_map.mp hb
      rw [isTerminal_projectLifecycle]
      exact hsound.reducer.last e (mem_dropLast_of_mem_drop he)
    · by_cases hne : outcome.terminalState = .awaitingApproval
      · obtain ⟨hcancelled, rfl, hawaiting, _⟩ := awaiting_of_finish hrunner hne
        simp only [Conclusive, hdeciding] at hconclusive
        rcases hconclusive u ht hcancelled hawaiting with hterm | hawaits
        · rw [hu.2.1, hu.2.2] at hterm
          exact Or.inl (hmono _ _ hterm)
        · rw [hu.2.1, hu.2.2] at hawaits
          obtain ⟨a, ha, hundecided, hsession, v, hv, hmatch⟩ := (awaits_iff hs).mp hawaits
          refine Or.inr (Or.inr ⟨a, ha, hundecided, hsession, _, hasTurn_modifyTurn hids hv, ?_⟩)
          split <;> exact hmatch
      · exact Or.inl (hpublished hne)

theorem Accounted.step {a : Action} (h : s.Accounted) (hs : s.Sound) (hrecords : s.Records)
    (hinvoking : s.Invoking) (hconclusive : s.Conclusive a) (hstep : Takes s a s') : s'.Accounted := by
  cases hstep with
  | tick => exact h.tick hs hinvoking hconclusive
  | createSession hnew hlive => exact h.createSession hnew rfl hlive
  | touch sessionId =>
    refine h.same rfl (fun sid session' hl => ?_) (fun _ _ => Iff.rfl) rfl rfl rfl
    have hl : (s.registry.touch s.now sessionId).live? s.now sid = some session' := hl
    by_cases hother : sid = sessionId
    · subst hother
      obtain ⟨before, hbefore, hflag⟩ := SessionRegistry.live?_touch hl
      exact ⟨before, hbefore, fun hactive => hflag ▸ hactive⟩
    · rw [SessionRegistry.live?_touch_of_ne hother] at hl
      exact ⟨session', hl, id⟩
  | closeSession sessionId =>
    refine h.same rfl (fun sid session' hl => ?_) (fun _ _ => Iff.rfl) rfl rfl rfl
    have hl : (s.registry.close sessionId).live? s.now sid = some session' := hl
    rw [SessionRegistry.live?_close] at hl
    split at hl
    · exact nomatch hl
    · exact ⟨session', hl, id⟩
  | refused _ _ _ hlive => exact h.same rfl (flags_same hlive) (fun _ _ => Iff.rfl) rfl rfl rfl
  | queueDecide => exact h.same rfl (flags_same fun _ => rfl) (fun _ _ => Iff.rfl) rfl rfl rfl
  | reserved sessionId turnId registry session hnew hsession _ hlive =>
    exact h.reserved hnew hsession hlive
  | rejectMessage t ht => exact h.rejected hs ht
  | gone t ht hphase hgone => exact h.gone hs ht hgone
  | start t | bootFails t | threw t | returned t =>
    exact h.modifyTurn (fun _ => ⟨rfl, rfl⟩) (fun _ _ _ _ hp => nomatch hp) (fun _ _ => id)
      fun _ _ _ hp => nomatch hp
  | turnCreated t =>
    have hmodified : (s.modifyTurn t.turnId fun t => { t with
        phase := .running
        deadline := s.now + turnDeadlineMs
        runner := { reducer := { hasStarted := true, events := [.turnStarted] } } }).Accounted :=
      h.modifyTurn (fun _ => ⟨rfl, rfl⟩) (fun _ _ _ _ hp => nomatch hp) (fun _ _ => id)
        fun _ _ _ hp => nomatch hp
    have hplain : ∀ b ∈ [SseBody.turnStarted], b.isTerminal = false := by simp [SseBody.isTerminal]
    refine hmodified.same rfl (flags_same fun _ => rfl) (fun sid tid => ?_) rfl rfl rfl
    exact @terminal_emitAll_plain sid tid (s.modifyTurn t.turnId _) t.sessionId t.turnId _ hplain
  | registerRefresh t refresh =>
    exact h.modifyTurn (fun _ => ⟨rfl, rfl⟩) (fun _ _ _ => id) (fun _ _ hr => List.mem_append_left _ hr)
      fun _ _ _ hp hterm => ⟨hp, hterm⟩
  | refreshResult | finalizeResult =>
    exact h.modifyTurn (fun _ => ⟨rfl, rfl⟩) (fun _ _ _ => id) (fun _ _ => id)
      fun _ _ _ hp hterm => ⟨hp, hterm⟩
  | observed _ t event reducer ht hprompting hevent hreducer =>
    refine h.modifyTurn (fun _ => ⟨rfl, rfl⟩) (fun _ _ _ => id) (fun _ _ => id) fun _ _ _ _ hterm => ?_
    have hterm : reducer.terminal = true := hterm
    rw [LifecycleReducer.transition_terminal hreducer, hevent.1] at hterm
    exact nomatch hterm
  | approvalRequired t =>
    refine Accounted.registerRequired ?_
    exact h.modifyTurn (fun _ => ⟨rfl, rfl⟩) (fun _ _ _ => id) (fun _ _ => id)
      fun _ _ _ hp hterm => ⟨hp, hterm⟩
  | unwind t ht hphase =>
    exact h.unwind hs hrecords ht hphase (hconclusive t (hs.turn?_eq ht))
  | cancel _ _ _ hc => exact h.cancels hc
  | decide c queue _ hnone _ hd =>
    have h' : ({ s with decideQueue := queue } : Server).Accounted :=
      h.same rfl (flags_same fun _ => rfl) (fun _ _ => Iff.rfl) rfl rfl rfl
    exact h'.decides (hs.congr rfl rfl rfl rfl rfl rfl rfl) hnone hd
  | facadeReturns ok c continuation _ hdeciding hanswers => exact h.answers hs hinvoking hdeciding hanswers
  | outcomeReady c k _ hdeciding hresolved hr => exact h.resumes hs hrecords hdeciding hresolved hr
  | resumed prompt c k n _ hdeciding he => exact h.ends hs hrecords hdeciding hconclusive he

theorem Concluded.of_accounted (h : s.Accounted) (hrecords : s.Records) : s.Concluded := by
  intro hquiet t ht session hlive
  have hopen : ∀ u ∈ s.turns, ¬s.Open u.sessionId u.turnId := by
    rintro u hu ⟨_, ⟨v, hv, hp⟩ | ⟨d, hd, _⟩ | ⟨a, ha, hundecided, _⟩⟩
    · exact hp (hquiet.turns v hv.1)
    · simp [hquiet.deciding] at hd
    · rw [hquiet.pending a ha] at hundecided
      exact nomatch hundecided
  have hterminal : ∀ u ∈ s.turns, (s.live? u.sessionId).isSome → s.Terminal u.sessionId u.turnId :=
    fun u hu hl => (h.turns u hu hl).resolve_right (hopen u hu)
  have hflag : session.activeTurn = false := by
    by_contra hactive
    obtain ⟨u, hu, hus, hnot⟩ := h.flag t.sessionId session hlive (by simpa using hactive)
    exact hnot (hterminal u hu (by rw [hus, hlive]; rfl))
  refine ⟨?_, hflag, fun hcount => ?_⟩
  · obtain ⟨before, last, hhistory, hlast, hbefore⟩ :=
      hrecords.onlyLast.history_of_terminal (hterminal t ht (by rw [hlive]; rfl))
    refine ⟨before, last, hhistory, hlast, hbefore, ?_⟩
    have hrecord := hrecords.turns t ht
    have hcount := hrecord.artifacts
    rw [if_pos (hquiet.turns t ht), SseHub.artifacts, hhistory, List.countP_append] at hcount
    have := hrecord.reducer.count_artifact_le
    omega
  · exact SessionRegistry.reserveTurn_of_idle hlive hflag hcount

end Server

theorem Run.accounted {origin : Nat} {s : Server} (h : Run Server.Conclusive origin s) :
    s.Invoking ∧ s.Accounted := by
  refine Reached.invariant_of (I := fun s => s.Sound ∧ s.Records) (J := fun s => s.Invoking ∧ s.Accounted)
    (fun _ hr => ⟨Run.sound hr, Run.records hr⟩) ⟨.of_none rfl, ?_⟩ ?_ h
  · exact ⟨(fun _ ht => nomatch ht), (fun _ _ hl => nomatch hl), (fun _ ht => nomatch ht),
      (fun _ _ hd => nomatch hd)⟩
  · intro s a t ⟨hs, hrecords⟩ ⟨hinvoking, haccounted⟩ hconclusive hstep
    exact ⟨hinvoking.step hs (Server.step_takes hstep),
      haccounted.step hs hrecords hinvoking hconclusive (Server.step_takes hstep)⟩

/-- In a run without a step that leaves a turn behind every quiescent state is concluded. -/
theorem turns_concluded {origin : Nat} {s : Server} (h : Run Server.Conclusive origin s) :
    s.Concluded :=
  .of_accounted h.accounted.2 (Run.records h)

/-- Turn `a` is approved and finalises its artifact after its `execute` has ended; `b` is cancelled
while its prompt runs. -/
def concludedRun : List Action :=
  approvedRun ++ [.start "b", .turnCreated "b", .cancel "s" "b", .returns "b" .returned, .unwind "b"]

theorem turns_concluded_concludedRun :
    ∃ s, replay Server.step {} concludedRun = some s ∧ s.Quiescent ∧ s.Concluded := by
  have hrun : (replay Server.step {} concludedRun).any (fun s => s.Quiescent) = true ∧
      Permitted Server.step Server.Conclusive {} concludedRun := by decide
  obtain ⟨s, hs, hquiet⟩ := Option.any_eq_true _ _ |>.mp hrun.1
  have hreached : Run Server.Conclusive 0 s := Reached.start.replay hrun.2 hs
  exact ⟨s, hs, by simpa using hquiet, turns_concluded hreached⟩

/-- Nobody decides the approval that turn `a` waits for. -/
def expiredRun : List Action :=
  [.createSession "s" "analyst" "scope", .message "s" "a", .start "a", .turnCreated "a",
    .registerRefresh "a" ⟨"refresh", "fingerprint"⟩, .approvalRequired "a" "approval" 60000,
    .returns "a" .returned, .unwind "a", .tick 60000]

/-- After the approval has expired the turn has no terminal event, and its session no next turn. -/
theorem not_concluded : ¬∀ origin s, Run Anything origin s → s.Concluded := by
  intro h
  have hrun : (replay Server.step {} expiredRun).any (fun s => s.Quiescent && s.turns.any fun t =>
      (s.live? t.sessionId).any (·.activeTurn)) = true := by decide
  obtain ⟨s, hs, hstate⟩ := Option.any_eq_true _ _ |>.mp hrun
  simp only [Bool.and_eq_true, List.any_eq_true, decide_eq_true_eq, Option.any_eq_true] at hstate
  obtain ⟨hquiet, t, ht, session, hlive, hactive⟩ := hstate
  have hreached : Run Anything 0 s := Reached.start.replay (permitted_anything _ _) hs
  obtain ⟨_, hflag, _⟩ := h 0 s hreached hquiet t ht session hlive
  rw [hactive] at hflag
  exact nomatch hflag

end NanFung.Runtime
