import NanFung.Runtime.Views
import Mathlib.Data.Option.Basic

/-!
# What the coordinators' calls do

One inversion lemma for each call that a step makes. `SameMaps` says that a call left the turns and
the coordinators' maps alone: publishing, releasing and settling do.
-/

namespace NanFung.Runtime

open Table

namespace Server

/-- The turns and the maps of the coordinators are as they were, and so is the clock. -/
structure SameMaps (s s' : Server) : Prop where
  timeOrigin : s'.timeOrigin = s.timeOrigin
  now : s'.now = s.now
  turns : s'.turns = s.turns
  activeTurns : s'.activeTurns = s.activeTurns
  pending : s'.pending = s.pending
  continuations : s'.continuations = s.continuations
  nextRef : s'.nextRef = s.nextRef
  resolved : s'.resolved = s.resolved
  approved : s'.approved = s.approved

variable {s s' s'' : Server} {sessionId session : SessionId} {turnId turn : TurnId}

namespace SameMaps

theorem refl : SameMaps s s := ⟨rfl, rfl, rfl, rfl, rfl, rfl, rfl, rfl, rfl⟩

theorem trans (h : SameMaps s s') (h' : SameMaps s' s'') : SameMaps s s'' where
  timeOrigin := h'.timeOrigin.trans h.timeOrigin
  now := h'.now.trans h.now
  turns := h'.turns.trans h.turns
  activeTurns := h'.activeTurns.trans h.activeTurns
  pending := h'.pending.trans h.pending
  continuations := h'.continuations.trans h.continuations
  nextRef := h'.nextRef.trans h.nextRef
  resolved := h'.resolved.trans h.resolved
  approved := h'.approved.trans h.approved

theorem emitAll (s : Server) (bodies : List SseBody) :
    SameMaps s (s.emitAll sessionId turnId bodies).1 := ⟨rfl, rfl, rfl, rfl, rfl, rfl, rfl, rfl, rfl⟩

theorem releaseTurn (s : Server) : SameMaps s (s.releaseTurn sessionId) :=
  ⟨rfl, rfl, rfl, rfl, rfl, rfl, rfl, rfl, rfl⟩

theorem settle (s : Server) (c : DecideCall) (settlement : Settlement) :
    SameMaps s (s.settle c settlement) := ⟨rfl, rfl, rfl, rfl, rfl, rfl, rfl, rfl, rfl⟩

theorem withDeciding (s : Server) (d : Option (DecideCall × Waiting)) :
    SameMaps s { s with deciding := d } := ⟨rfl, rfl, rfl, rfl, rfl, rfl, rfl, rfl, rfl⟩

variable (h : SameMaps s s')

include h

theorem undecided (a : PendingApproval) : s'.undecided a = s.undecided a := by
  unfold Server.undecided clock
  rw [h.timeOrigin, h.now]

theorem hasTurn {t : Turn} : s'.HasTurn session turn t ↔ s.HasTurn session turn t := by
  simp [HasTurn, h.turns]

theorem executing : s'.Executing session turn ↔ s.Executing session turn := by
  simp [Executing, h.hasTurn]

theorem awaitsFor : s'.AwaitsFor session turn ↔ s.AwaitsFor session turn := by
  simp [AwaitsFor, h.pending, h.undecided, h.hasTurn]

theorem isAwaiting : s'.isAwaiting session = s.isAwaiting session := by
  simp [Server.isAwaiting, h.pending, h.undecided]

theorem latest? : s'.latest? session = s.latest? session := by
  simp [Server.latest?, reservations, h.turns]

theorem turn? : s'.turn? turn = s.turn? turn := by simp [Server.turn?, h.turns]

theorem continuation? : s'.continuation? session = s.continuation? session := by
  simp [Server.continuation?, h.continuations]

theorem sound (hs : s.Sound)
    (hcaller : ∀ d ∈ s'.deciding, ∀ k, d.2.continuation = some k →
      s.Object k ∧ k.sessionId = d.1.sessionId)
    (hprompt : ∀ c k n, s'.deciding = some (c, .prompt k n) → k.ref ∈ s.resolved) : s'.Sound :=
  hs.deciding h.turns h.activeTurns h.pending h.continuations h.nextRef h.resolved hcaller hprompt

theorem sound_of_none (hs : s.Sound) (hnone : s'.deciding = none) : s'.Sound :=
  h.sound hs (fun d hd => by simp [hnone] at hd) fun c k n hp => by simp [hnone] at hp

end SameMaps

/-! ## Decisions -/

section

variable {c : DecideCall} {a : PendingApproval} {continuation : Option Continuation}
  {k : Continuation}

/-- The checks of `#decide` that passed. -/
structure Checked (s : Server) (c : DecideCall) (a : PendingApproval)
    (continuation : Option Continuation) : Prop where
  found : s.pending.find? (·.approvalId = c.approvalId) = some a
  slot : s.continuation? c.sessionId = continuation
  session : a.sessionId = c.sessionId
  unexpired : s.clock < a.expiresAtMs
  scope : a.capabilityScopeId = c.scopeId
  principal : a.principal = c.principal
  policy : a.policyVersion = testPolicyVersion
  matches_ : ∀ k ∈ continuation, ∀ t, s.turn? k.turnId = some t → refreshMatches t a = true
  decision : ∀ d ∈ a.decision, d = c.decision

theorem check_eq_ok : s.check c = .ok (a, continuation) ↔ s.Checked c a continuation := by
  unfold check
  simp only [bind_ok, orThrow_ok, require_ok, pure_ok, exists_and_left, Prod.mk.injEq,
    Option.mem_def, Option.bind_eq_some_iff, forall_exists_index, and_imp, exists_const]
  constructor
  · rintro ⟨b, hfind, hsession, hclock, hscope, hprincipal, hpolicy, hmatch, hdecision, rfl, rfl⟩
    exact ⟨hfind, rfl, hsession, hclock, hscope, hprincipal, hpolicy,
      fun k hk t ht => hmatch t k hk ht, hdecision⟩
  · intro h
    obtain rfl := h.slot
    exact ⟨a, h.found, h.session, h.unexpired, h.scope, h.principal, h.policy,
      fun t k hk ht => h.matches_ k hk t ht, h.decision, rfl, rfl⟩

/-- What `#decide` does before it first waits. -/
inductive Decides (s : Server) (c : DecideCall) : Server → Prop
  | refused (reason : DecisionFailure) (h : s.check c = .error reason) :
    Decides s c (s.settle c (.refused reason))
  | same (a : PendingApproval) (continuation : Option Continuation)
      (h : s.Checked c a continuation) (hdecided : a.decision = some c.decision) :
    Decides s c (s.settle c (.same c.decision))
  | invokes (a : PendingApproval) (continuation : Option Continuation)
      (h : s.Checked c a continuation) (hundecided : a.decision = none)
      (hdecision : c.decision = .approve) :
    Decides s c { s with deciding := some (c, .facade continuation) }
  | denies (a : PendingApproval) (continuation : Option Continuation) (s₁ : Server)
      (accepted : Bool) (h : s.Checked c a continuation) (hundecided : a.decision = none)
      (hdecision : c.decision = .deny)
      (hpublish : (s.decideApproval c.approvalId .deny).emitAll c.sessionId (turnOf continuation)
        [.approvalResolved .deny, .turnCompleted .completed] = (s₁, accepted)) :
    Decides s c (if accepted then (s₁.releaseTurn c.sessionId).settle c (.decided .deny)
      else s₁.settle c .threw)

theorem decide_cases (s : Server) (c : DecideCall) : Decides s c (s.decide c) := by
  unfold Server.decide
  cases hcheck : s.check c with
  | error reason => exact .refused reason hcheck
  | ok checked =>
    obtain ⟨a, continuation⟩ := checked
    have h := check_eq_ok.mp hcheck
    dsimp only
    cases hdecision : a.decision with
    | some d =>
      rw [if_pos (by rfl)]
      exact .same a continuation h (by rw [hdecision, h.decision d (by simp [hdecision])])
    | none =>
      rw [if_neg (by simp)]
      cases hc : c.decision with
      | approve => exact .invokes a continuation h hdecision hc
      | deny => exact .denies a continuation _ _ h hdecision hc rfl

/-- How a dispatch ends: the events of the continued run are out and the session is released, or the
turn is terminal and the decision throws. -/
inductive Finishes (s : Server) (c : DecideCall) (k : Continuation) (bodies : Option (List SseBody)) :
    Server → Prop
  | released (s₁ : Server) (hsame : SameMaps s s₁) (hregistry : s₁.registry = s.registry)
      (hsettled : s₁.settled = s.settled) (hqueue : s₁.decideQueue = s.decideQueue)
      (hhub : s.hub.Publishes s₁.hub k.sessionId k.turnId
        ((bodies.getD []).countP SseBody.isArtifact))
      (hterminal : bodies = none ∨ (∃ b ∈ bodies.getD [], b.isTerminal = true) →
        s₁.Terminal k.sessionId k.turnId) :
    Finishes s c k bodies ((s₁.releaseTurn k.sessionId).settle c (.decided .approve))
  | threw (s₁ : Server) (hsame : SameMaps s s₁) (hregistry : s₁.registry = s.registry)
      (hsettled : s₁.settled = s.settled) (hqueue : s₁.decideQueue = s.decideQueue)
      (hhub : s.hub.Publishes s₁.hub k.sessionId k.turnId
        ((bodies.getD []).countP SseBody.isArtifact))
      (hterminal : s₁.Terminal k.sessionId k.turnId)
      (hbefore : (∀ b ∈ (bodies.getD []).dropLast, b.isTerminal = false) →
        s.Terminal k.sessionId k.turnId) (hnonempty : bodies ≠ some []) : Finishes s c k bodies (s₁.settle c .threw)

theorem finishDispatch_cases (s : Server) (c : DecideCall) (k : Continuation)
    (bodies : Option (List SseBody)) : Finishes s c k bodies (s.finishDispatch c k bodies) := by
  have hfailed : ∀ s₁ : Server, (s₁.emitAll k.sessionId k.turnId
      [.turnFailed .runtimeUnavailable]).1.Terminal k.sessionId k.turnId := fun s₁ =>
    terminal_emitAll_of_mem List.mem_cons_self rfl
  unfold finishDispatch
  cases bodies with
  | none =>
    dsimp only
    have hhub := @SseHub.Publishes.emitAll k.sessionId k.turnId s.hub
      [.turnFailed .runtimeUnavailable]
    cases hacc : (s.emitAll k.sessionId k.turnId [.turnFailed .runtimeUnavailable]).2 with
    | true =>
      simp only [Bool.false_eq_true, if_false, hacc, if_true]
      exact .released _ (.emitAll s _) rfl rfl rfl hhub fun _ => hfailed s
    | false =>
      simp only [Bool.false_eq_true, if_false, hacc]
      refine .threw _ (.emitAll s _) rfl rfl rfl hhub (hfailed s) (fun _ => ?_) (by simp)
      by_contra hne
      have := @SseHub.emitAll_accepted s.hub _ _ [.turnFailed .runtimeUnavailable]
        (by simpa [Terminal] using hne) (by simp)
      exact absurd hacc (by simpa [emitAll] using this)
  | some bodies =>
    dsimp only
    have hhub := @SseHub.Publishes.emitAll k.sessionId k.turnId s.hub bodies
    cases hpub : (s.emitAll k.sessionId k.turnId bodies).2 with
    | true =>
      simp only [if_true]
      refine .released _ (.emitAll s _) rfl rfl rfl hhub fun h => ?_
      obtain ⟨b, hb, hterminal⟩ := h.resolve_left (by simp)
      exact terminal_emitAll_of_mem hb hterminal
    | false =>
      -- the turn is terminal, so the event of the failure is refused as well
      have hterminal : (s.emitAll k.sessionId k.turnId bodies).1.Terminal k.sessionId k.turnId :=
        terminal_of_emitAll_refused hpub
      have hrefused : ((s.emitAll k.sessionId k.turnId bodies).1.emitAll k.sessionId k.turnId
          [.turnFailed .runtimeUnavailable]) = ((s.emitAll k.sessionId k.turnId bodies).1, false) := by
        have hemit := (@SseHub.emit_eq_none _ _ _ (.turnFailed .runtimeUnavailable)).mpr hterminal
        simp only [emitAll] at hemit ⊢
        simp only [SseHub.emitAll, hemit]
      simp only [Bool.false_eq_true, if_false, hrefused]
      refine .threw _ (.emitAll s _) rfl rfl rfl hhub hterminal (fun hlast => ?_) fun hnil => ?_
      · by_contra hne
        have := @SseHub.emitAll_accepted s.hub _ _ bodies
          (by simpa [Terminal] using hne) hlast
        exact absurd hpub (by simpa [emitAll] using this)
      · cases hnil
        cases hpub

/-- A run that was not published in full leaves a terminal turn. -/
theorem Finishes.terminal {bodies : Option (List SseBody)} (h : Finishes s c k bodies s')
    (hbodies : bodies = none ∨ ∃ b ∈ bodies.getD [], b.isTerminal = true) :
    s'.Terminal k.sessionId k.turnId := by
  cases h with
  | released s₁ _ _ _ _ _ hterminal => exact hterminal hbodies
  | threw s₁ _ _ _ _ _ hterminal => exact hterminal

/-- What `#dispatch` does before it first waits. -/
inductive Dispatches (s : Server) (c : DecideCall) (k : Continuation) : Server → Prop
  | skipped (h : s.registry.live? s.now k.sessionId = none) :
    Dispatches s c k (s.settle c (.decided .approve))
  | failed (s' : Server) (hdeadline : (s.turn? k.turnId).any (·.deadline ≤ s.now) = true)
      (h : Finishes s c k none s') : Dispatches s c k s'
  | waits (h : (s.registry.live? s.now k.sessionId).isSome)
      (hdeadline : (s.turn? k.turnId).any (·.deadline ≤ s.now) = false) :
    Dispatches s c k { s with deciding := some (c, .outcome k) }

theorem dispatch_cases (s : Server) (c : DecideCall) (k : Continuation) :
    Dispatches s c k (s.dispatch c k) := by
  unfold dispatch
  split
  · next h => exact .skipped (by simpa using h)
  · next h =>
    split
    · next hdeadline => exact .failed _ hdeadline (finishDispatch_cases s c k none)
    · next hdeadline =>
      exact .waits (by simpa [Option.isSome_iff_ne_none] using h) (by simpa using hdeadline)

/-- What the answer of the facade leads to. -/
inductive Answers (s : Server) (c : DecideCall) (continuation : Option Continuation) :
    Bool → Server → Prop
  | refused : Answers s c continuation false (s.settle c (.refused .unknown))
  | threw (s₁ : Server) (hpublish : (s.approve c).emitAll c.sessionId (turnOf continuation)
      [.approvalResolved .approve] = (s₁, false)) :
    Answers s c continuation true (s₁.settle c .threw)
  | kept (s₁ : Server) (hpublish : (s.approve c).emitAll c.sessionId (turnOf continuation)
      [.approvalResolved .approve] = (s₁, true))
      (hkept : ∀ k ∈ continuation, ∀ a, s₁.pending.find? (·.approvalId = c.approvalId) = some a →
        s₁.clock < a.expiresAtMs → s₁.registry.live? s₁.now c.sessionId = none) :
    Answers s c continuation true (s₁.settle c (.decided .approve))
  | dispatched (s₁ s' : Server) (k : Continuation) (a : PendingApproval)
      (hpublish : (s.approve c).emitAll c.sessionId (turnOf continuation)
        [.approvalResolved .approve] = (s₁, true))
      (hcontinuation : continuation = some k)
      (hfound : s₁.pending.find? (·.approvalId = c.approvalId) = some a)
      (hunexpired : s₁.clock < a.expiresAtMs) (hdispatch : Dispatches s₁ c k s') :
    Answers s c continuation true s'

theorem facadeReturns_cases (s : Server) (c : DecideCall) (continuation : Option Continuation)
    (ok : Bool) : Answers s c continuation ok (s.facadeReturns c continuation ok) := by
  unfold facadeReturns
  cases ok with
  | false => exact .refused
  | true =>
    simp only [Bool.not_true, Bool.false_eq_true, if_false]
    rcases hpublish : (s.approve c).emitAll c.sessionId (turnOf continuation)
      [.approvalResolved .approve] with ⟨s₁, _ | _⟩
    · exact .threw s₁ hpublish
    · simp only [Bool.not_true, Bool.false_eq_true, if_false]
      cases continuation with
      | none => exact .kept s₁ hpublish fun k hk => nomatch hk
      | some k =>
        cases hfound : s₁.pending.find? (·.approvalId = c.approvalId) with
        | none => exact .kept s₁ hpublish fun _ _ a ha => nomatch hfound.symm.trans ha
        | some a =>
          dsimp only
          split
          · next h =>
            exact .dispatched s₁ _ k a hpublish rfl hfound h.2 (dispatch_cases s₁ c k)
          · next h =>
            refine .kept s₁ hpublish fun _ _ b hb hlt => ?_
            obtain rfl := Option.some.inj (hfound.symm.trans hb)
            simpa [hlt] using h

/-- What happens once the outcome of the turn is there. -/
inductive Resumes (s : Server) (c : DecideCall) (k : Continuation) : Server → Prop
  | gone (s' : Server) (h : s.turn? k.turnId = none) (hfinish : Finishes s c k none s') :
    Resumes s c k s'
  | ended (s' : Server) (t : Turn) (ht : s.turn? k.turnId = some t)
      (hstate : t.runner.reducer.state ≠ .running) (hfinish : Finishes s c k (some []) s') :
    Resumes s c k s'
  | prompts (t : Turn) (ht : s.turn? k.turnId = some t)
      (hstate : t.runner.reducer.state = .running) :
    Resumes s c k { s.modifyTurn k.turnId fun t => { t with runner.awaitingApproval := false } with
      deciding := some (c, .prompt k t.runner.reducer.events.length) }

theorem resume_cases (s : Server) (c : DecideCall) (k : Continuation) :
    Resumes s c k (s.resume c k) := by
  unfold resume
  cases ht : s.turn? k.turnId with
  | none => exact .gone _ ht (finishDispatch_cases s c k none)
  | some t =>
    dsimp only
    split
    · next h => exact .ended _ t ht h (finishDispatch_cases s c k (some []))
    · next h => exact .prompts t ht (by simpa using h)

/-- What the end of the continued prompt leads to. -/
inductive Ends (s : Server) (c : DecideCall) (k : Continuation) (n : Nat) (prompt : PromptEnd) :
    Server → Prop
  | threw (s' : Server) (hfinish : Finishes s c k none s') : Ends s c k n prompt s'
  | ended (s' : Server) (t : Turn) (runner : RunnerState) (outcome : TurnOutcome)
      (ht : s.turn? k.turnId = some t)
      (hrunner : t.runner.finish t.cancelled prompt = some (runner, outcome))
      (hfinish : Finishes (s.modifyTurn k.turnId ({ · with runner })) c k
        (some ((runner.reducer.events.drop n).map (projectLifecycle outcome.artifact))) s') :
    Ends s c k n prompt s'

theorem resumed_cases (s : Server) (c : DecideCall) (k : Continuation) (n : Nat)
    (prompt : PromptEnd) : Ends s c k n prompt (s.resumed c k n prompt) := by
  unfold resumed
  cases ht : s.turn? k.turnId with
  | none => exact .threw _ (finishDispatch_cases s c k none)
  | some t =>
    dsimp only
    cases hrunner : t.runner.finish t.cancelled prompt with
    | none => exact .threw _ (finishDispatch_cases s c k none)
    | some result => exact .ended _ t result.1 result.2 ht hrunner (finishDispatch_cases _ c k _)

end

/-! ## Cancellation -/

/-- What `cancel` does: nothing, or it ends the turn that is registered, terminal or not. -/
inductive Cancels (s : Server) (sessionId : SessionId) (turnId : TurnId) : Server → Prop
  | nothing (s' : Server) (hsame : SameMaps s s') (hdeciding : s'.deciding = s.deciding)
      (hqueue : s'.decideQueue = s.decideQueue) (hsettled : s'.settled = s.settled)
      (hhub : s'.hub = s.hub)
      (hlive : ∀ session, s'.registry.live? s'.now session = s.registry.live? s.now session) :
    Cancels s sessionId turnId s'
  | cancelled (s₀ s₁ : Server) (hsame : SameMaps s s₀) (hdeciding : s₀.deciding = s.deciding)
      (hqueue : s₀.decideQueue = s.decideQueue) (hsettled : s₀.settled = s.settled)
      (hhub : s₀.hub = s.hub)
      (hlive : ∀ session, s₀.registry.live? s₀.now session = s.registry.live? s.now session)
      (hactive : s.activeTurn? sessionId = some ⟨sessionId, turnId⟩)
      (hs₁ : s₁ = ((s₀.modifyTurn turnId ({ · with cancelled := true })).emitAll sessionId turnId
        [.turnCompleted .cancelled]).1) :
    Cancels s sessionId turnId ({ s₁ with
      activeTurns := s₁.activeTurns.filter (·.sessionId ≠ sessionId)
      terminalTurns := s₁.terminalTurns ++ [ActiveTurn.mk sessionId turnId] }.releaseTurn sessionId)

theorem cancel_cases (s : Server) (sessionId : SessionId) (turnId : TurnId) :
    Cancels s sessionId turnId (s.cancel sessionId turnId).2 := by
  have hlive : ∀ session, (s.registry.status s.now sessionId).2.live? s.now session =
      s.registry.live? s.now session := fun session => SessionRegistry.live?_status
  have hnothing : Cancels s sessionId turnId
      { s with registry := (s.registry.status s.now sessionId).2 } :=
    .nothing _ ⟨rfl, rfl, rfl, rfl, rfl, rfl, rfl, rfl, rfl⟩ rfl rfl rfl rfl hlive
  unfold cancel
  dsimp only
  split
  · exact hnothing
  · cases hactive : activeTurn? { s with registry := (s.registry.status s.now sessionId).2 }
      sessionId with
    | none => exact hnothing
    | some active =>
      dsimp only
      split
      · exact hnothing
      · next hturn =>
        have hsession : active.sessionId = sessionId := by simpa using List.find?_some hactive
        obtain rfl : active = ⟨sessionId, turnId⟩ := by
          cases active
          simp only [ActiveTurn.mk.injEq]
          exact ⟨hsession, by simpa using hturn⟩
        exact .cancelled { s with registry := (s.registry.status s.now sessionId).2 } _
          ⟨rfl, rfl, rfl, rfl, rfl, rfl, rfl, rfl, rfl⟩ rfl rfl rfl rfl hlive hactive rfl

/-! ## The steps -/

/-- The steps that a server can take, with what their guards say. -/
inductive Takes (s : Server) : Action → Server → Prop
  | tick (ms : Nat) : Takes s (.tick ms) { s with now := s.now + ms }
  | createSession {sessionId : SessionId} {principal scopeId : String} {registry : SessionRegistry}
      (hnew : s.newSessionId sessionId = true)
      (hlive : ∀ other, registry.live? s.now other =
        if other = sessionId then
          some { id := sessionId, principal, scopeId, expiresAtMs := s.now + idleTimeoutMs }
        else s.registry.live? s.now other) :
    Takes s (.createSession sessionId principal scopeId)
      ({ s with registry }.emitAll sessionId "session" [.sessionStarted]).1
  | touch (sessionId : SessionId) :
    Takes s (.touch sessionId) { s with registry := s.registry.touch s.now sessionId }
  | closeSession (sessionId : SessionId) :
    Takes s (.closeSession sessionId) { s with registry := s.registry.close sessionId }
  | refused (sessionId : SessionId) (turnId : TurnId) (registry : SessionRegistry)
      (hlive : ∀ other, registry.live? s.now other = s.registry.live? s.now other) :
    Takes s (.message sessionId turnId) { s with registry }
  | reserved (sessionId : SessionId) (turnId : TurnId) (registry : SessionRegistry)
      (session : SessionState) (hnew : s.newTurnId turnId = true)
      (hsession : s.registry.live? s.now sessionId = some session)
      (hflag : session.activeTurn = false)
      (hlive : ∀ other, registry.live? s.now other =
        if other = sessionId then (s.registry.live? s.now sessionId).map .reserve
        else s.registry.live? s.now other) :
    Takes s (.message sessionId turnId)
      { s with registry, turns := s.turns ++ [{ sessionId, turnId }] }
  | rejectMessage (t : Turn) (ht : t ∈ s.turns) (hphase : t.phase = .reading) :
    Takes s (.rejectMessage t.turnId)
      { s.releaseTurn t.sessionId with turns := s.turns.filter (·.turnId ≠ t.turnId) }
  | gone (t : Turn) (ht : t ∈ s.turns) (hphase : t.phase = .reading)
      (hgone : s.registry.live? s.now t.sessionId = none) :
    Takes s (.start t.turnId) (s.setPhase t.turnId .finished)
  | start (t : Turn) (session : SessionState) (ht : t ∈ s.turns) (hphase : t.phase = .reading) :
    Takes s (.start t.turnId) (s.modifyTurn t.turnId ({ · with
      phase := .booting, principal := session.principal, capabilityScopeId := session.scopeId }))
  | turnCreated (t : Turn) (ht : t ∈ s.turns) (hphase : t.phase = .booting) :
    Takes s (.turnCreated t.turnId) (s.turnCreated t)
  | bootFails (t : Turn) (ht : t ∈ s.turns) (hphase : t.phase = .booting) :
    Takes s (.bootFails t.turnId) (s.setPhase t.turnId .thrown)
  | observed (a : Action) (t : Turn) (event : AgentEvent) (reducer : LifecycleReducer)
      (ht : t ∈ s.turns) (hprompting : s.prompting t = true)
      (hevent : event.isTerminal = false ∧ event ≠ .approvalRequired ∧ event ≠ .artifactFinal)
      (hreducer : t.runner.reducer.transition event = some reducer)
      (ha : (∃ tool, a = .toolStarted t.turnId tool) ∨ ∃ tool ok, a = .toolCompleted t.turnId tool ok) :
    Takes s a (s.modifyTurn t.turnId ({ · with runner.reducer := reducer }))
  | registerRefresh (t : Turn) (refresh : Refresh) (ht : t ∈ s.turns)
      (hallowed : s.toolAllowed t = true)
      (hnew : ∀ u ∈ s.turns, ∀ r ∈ u.refreshIds, r.refreshRequestId ≠ refresh.refreshRequestId) :
    Takes s (.registerRefresh t.turnId refresh)
      (s.modifyTurn t.turnId fun t => { t with refreshIds := t.refreshIds ++ [refresh] })
  | refreshResult (t : Turn) (required : Bool) (ht : t ∈ s.turns)
      (hallowed : s.toolAllowed t = true) :
    Takes s (.refreshResult t.turnId required)
      (s.modifyTurn t.turnId ({ · with runner.awaitingApproval := required }))
  | approvalRequired (t : Turn) (approvalId : ApprovalId) (expiresAtMs : Nat) (refresh : Refresh)
      (ht : t ∈ s.turns) (hallowed : s.toolAllowed t = true) (hrefresh : refresh ∈ t.refreshIds) :
    Takes s (.approvalRequired t.turnId approvalId expiresAtMs)
      ((s.modifyTurn t.turnId ({ · with runner.awaitingApproval := true })).registerRequired
        (pendingApproval t approvalId expiresAtMs refresh)).1
  | finalizeResult (t : Turn) (artifact : Artifact) (ht : t ∈ s.turns)
      (hallowed : s.toolAllowed t = true) :
    Takes s (.finalizeResult t.turnId artifact)
      (s.modifyTurn t.turnId ({ · with runner.artifact := some artifact }))
  | threw (t : Turn) (prompt : PromptEnd) (ht : t ∈ s.turns) (hphase : t.phase = .running)
      (hfinish : t.runner.finish t.cancelled prompt = none) :
    Takes s (.returns t.turnId prompt) (s.setPhase t.turnId .thrown)
  | returned (t : Turn) (prompt : PromptEnd) (runner : RunnerState) (outcome : TurnOutcome)
      (ht : t ∈ s.turns) (hphase : t.phase = .running)
      (hfinish : t.runner.finish t.cancelled prompt = some (runner, outcome)) :
    Takes s (.returns t.turnId prompt)
      (s.modifyTurn t.turnId ({ · with phase := .returned outcome, runner }))
  | unwind (t : Turn) (ht : t ∈ s.turns) (hphase : t.phase.isOver = true) :
    Takes s (.unwind t.turnId) (s.unwind t)
  | cancel (sessionId : SessionId) (turnId : TurnId) (s' : Server)
      (h : Cancels s sessionId turnId s') : Takes s (.cancel sessionId turnId) s'
  | queueDecide (c : DecideCall) :
    Takes s (.queueDecide c) { s with decideQueue := s.decideQueue ++ [c] }
  | decide (c : DecideCall) (queue : List DecideCall) (s' : Server) (hnone : s.deciding = none)
      (hqueue : s.decideQueue = c :: queue)
      (h : Decides { s with decideQueue := queue } c s') : Takes s .decide s'
  | facadeReturns (ok : Bool) (c : DecideCall) (continuation : Option Continuation) (s' : Server)
      (hdeciding : s.deciding = some (c, .facade continuation)) (h : Answers s c continuation ok s') :
    Takes s (.facadeReturns ok) s'
  | outcomeReady (c : DecideCall) (k : Continuation) (s' : Server)
      (hdeciding : s.deciding = some (c, .outcome k)) (hresolved : k.ref ∈ s.resolved)
      (h : Resumes s c k s') : Takes s .outcomeReady s'
  | resumed (prompt : PromptEnd) (c : DecideCall) (k : Continuation) (n : Nat) (s' : Server)
      (hdeciding : s.deciding = some (c, .prompt k n)) (h : Ends s c k n prompt s') :
    Takes s (.resumed prompt) s'

theorem observe_takes {event : AgentEvent} {a : Action} (h : s.observe turnId event = some s')
    (hevent : event.isTerminal = false ∧ event ≠ .approvalRequired ∧ event ≠ .artifactFinal)
    (ha : (∃ tool, a = .toolStarted turnId tool) ∨ ∃ tool ok, a = .toolCompleted turnId tool ok) :
    Takes s a s' := by
  simp only [observe, Option.bind_eq_bind, Option.bind_eq_some_iff, Option.guard_eq_some', exists_const] at h
  obtain ⟨t, ht, hprompting, reducer, hreducer, hs'⟩ := h
  obtain ⟨hmem, rfl⟩ := turn?_mem ht
  cases hs'
  exact .observed a t event reducer hmem hprompting hevent hreducer ha

theorem useTool_takes {f : Turn → Turn} (h : s.useTool turnId f = some s') :
    ∃ t, s.turn? turnId = some t ∧ t ∈ s.turns ∧ turnId = t.turnId ∧ s.toolAllowed t = true ∧
      s' = s.modifyTurn t.turnId f := by
  simp only [useTool, Option.bind_eq_bind, Option.bind_eq_some_iff, Option.guard_eq_some', exists_const] at h
  obtain ⟨t, ht, hallowed, hs'⟩ := h
  obtain ⟨hmem, rfl⟩ := turn?_mem ht
  cases hs'
  exact ⟨t, ht, hmem, rfl, hallowed, rfl⟩

theorem step_takes {a : Action} (h : s.step a = some s') : Takes s a s' := by
  cases a with
  | tick ms =>
    cases h
    exact .tick ms
  | createSession sessionId principal scopeId =>
    simp only [step] at h
    split at h
    · next hnew =>
      obtain ⟨registry, hregistry, hs'⟩ := Option.bind_eq_some_iff.mp h
      cases hs'
      exact .createSession hnew.2 (SessionRegistry.live?_createSession hregistry)
    · exact nomatch h
  | touch sessionId =>
    cases h
    exact .touch sessionId
  | closeSession sessionId =>
    cases h
    exact .closeSession sessionId
  | message sessionId turnId =>
    simp only [step, Option.bind_eq_bind, Option.bind_eq_some_iff, Option.guard_eq_some', exists_const] at h
    obtain ⟨hnew, hs'⟩ := h
    rcases hreserve : s.registry.reserveTurn s.now sessionId with ⟨_ | _, registry⟩
    · rw [hreserve] at hs'
      cases hs'
      exact .refused sessionId turnId registry fun other =>
        SessionRegistry.live?_of_reserveTurn_error hreserve
    · rw [hreserve] at hs'
      cases hs'
      obtain ⟨session, hsession, hflag, _, hlive⟩ := SessionRegistry.reserveTurn_ok hreserve
      exact .reserved sessionId turnId registry session hnew hsession hflag hlive
  | rejectMessage turnId =>
    simp only [step, Option.bind_eq_bind, Option.bind_eq_some_iff, Option.guard_eq_some', exists_const] at h
    obtain ⟨t, ht, hphase, hs'⟩ := h
    obtain ⟨hmem, rfl⟩ := turn?_mem ht
    cases hs'
    exact .rejectMessage t hmem hphase
  | start turnId =>
    simp only [step, Option.bind_eq_bind, Option.bind_eq_some_iff, Option.guard_eq_some', exists_const] at h
    obtain ⟨t, ht, hphase, hs'⟩ := h
    obtain ⟨hmem, rfl⟩ := turn?_mem ht
    cases hlive : s.registry.live? s.now t.sessionId with
    | none =>
      rw [hlive] at hs'
      cases hs'
      exact .gone t hmem hphase hlive
    | some session =>
      rw [hlive] at hs'
      cases hs'
      exact .start t session hmem hphase
  | turnCreated turnId =>
    simp only [step, Option.bind_eq_bind, Option.bind_eq_some_iff, Option.guard_eq_some', exists_const] at h
    obtain ⟨t, ht, hphase, hs'⟩ := h
    obtain ⟨hmem, rfl⟩ := turn?_mem ht
    cases hs'
    exact .turnCreated t hmem hphase
  | bootFails turnId =>
    simp only [step, Option.bind_eq_bind, Option.bind_eq_some_iff, Option.guard_eq_some', exists_const] at h
    obtain ⟨t, ht, hphase, hs'⟩ := h
    obtain ⟨hmem, rfl⟩ := turn?_mem ht
    cases hs'
    exact .bootFails t hmem hphase
  | toolStarted turnId tool =>
    exact observe_takes h ⟨rfl, by simp, by simp⟩ (Or.inl ⟨tool, rfl⟩)
  | toolCompleted turnId tool ok =>
    exact observe_takes h ⟨rfl, by simp, by simp⟩ (Or.inr ⟨tool, ok, rfl⟩)
  | registerRefresh turnId refresh =>
    simp only [step, Option.bind_eq_bind, Option.bind_eq_some_iff, Option.guard_eq_some', exists_const] at h
    obtain ⟨hnew, hs'⟩ := h
    obtain ⟨t, _, hmem, rfl, hallowed, rfl⟩ := useTool_takes hs'
    exact .registerRefresh t refresh hmem hallowed (by simpa using hnew)
  | refreshResult turnId required =>
    obtain ⟨t, _, hmem, rfl, hallowed, rfl⟩ := useTool_takes h
    exact .refreshResult t required hmem hallowed
  | approvalRequired turnId approvalId expiresAtMs =>
    simp only [step, Option.bind_eq_bind, Option.bind_eq_some_iff] at h
    obtain ⟨t, ht, refresh, hrefresh, s₁, hs₁, hs'⟩ := h
    obtain ⟨u, hu, hmem, rfl, hallowed, rfl⟩ := useTool_takes hs₁
    obtain rfl := Option.some.inj (hu.symm.trans ht)
    cases hs'
    exact .approvalRequired u approvalId expiresAtMs refresh hmem hallowed
      (List.mem_of_getLast? hrefresh)
  | finalizeResult turnId artifact =>
    obtain ⟨t, _, hmem, rfl, hallowed, rfl⟩ := useTool_takes h
    exact .finalizeResult t artifact hmem hallowed
  | returns turnId prompt =>
    simp only [step, Option.bind_eq_bind, Option.bind_eq_some_iff, Option.guard_eq_some', exists_const] at h
    obtain ⟨t, ht, hphase, hs'⟩ := h
    obtain ⟨hmem, rfl⟩ := turn?_mem ht
    cases hfinish : t.runner.finish t.cancelled prompt with
    | none =>
      rw [hfinish] at hs'
      cases hs'
      exact .threw t prompt hmem hphase hfinish
    | some result =>
      rw [hfinish] at hs'
      cases hs'
      exact .returned t prompt result.1 result.2 hmem hphase hfinish
  | unwind turnId =>
    simp only [step, Option.bind_eq_bind, Option.bind_eq_some_iff, Option.guard_eq_some', exists_const] at h
    obtain ⟨t, ht, hphase, hs'⟩ := h
    obtain ⟨hmem, rfl⟩ := turn?_mem ht
    cases hs'
    exact .unwind t hmem hphase
  | cancel sessionId turnId =>
    cases h
    exact .cancel sessionId turnId _ (cancel_cases s sessionId turnId)
  | queueDecide c =>
    cases h
    exact .queueDecide c
  | decide =>
    simp only [step] at h
    split at h
    · next c queue hnone hqueue =>
      cases h
      exact .decide c queue _ hnone hqueue (decide_cases _ c)
    · exact nomatch h
  | facadeReturns ok =>
    simp only [step] at h
    split at h
    · next c continuation hdeciding =>
      cases h
      exact .facadeReturns ok c continuation _ hdeciding (facadeReturns_cases s c continuation ok)
    · exact nomatch h
  | outcomeReady =>
    simp only [step] at h
    split at h
    · next c k hdeciding =>
      split at h
      · next hresolved =>
        cases h
        exact .outcomeReady c k _ hdeciding hresolved (resume_cases s c k)
      · exact nomatch h
    · exact nomatch h
  | resumed prompt =>
    simp only [step] at h
    split at h
    · next c k n hdeciding =>
      cases h
      exact .resumed prompt c k n _ hdeciding (resumed_cases s c k n prompt)
    · exact nomatch h

end Server

end NanFung.Runtime
