import NanFung.Runtime.Sessions

/-!
# Events of a turn

`LifecycleReducer` and the end of `execute` in `turn-runner.ts`, which decide what events a turn's
runner produces, and `SseHub` of `sse.ts`, which publishes them. The hub refuses an event of a turn
that already has a terminal one; `emit` and `emitAll` say so, and `OnlyLast` is what follows for the
history. The history is every event ever accepted: the ring that replays it to clients forgets old
ones.
-/

namespace NanFung.Runtime

/-- The JSON text of an artifact. -/
abbrev Artifact := String

inductive DecisionKind where
  | approve | deny
  deriving DecidableEq, Repr

inductive TurnFailureReason where
  | turnDeadlineExceeded | noFinalArtifact | numericGuardRejected | runtimeUnavailable
  deriving DecidableEq, Repr

inductive TurnState where
  | running | awaitingApproval | completed | cancelled | failed
  deriving DecidableEq, Repr

/-- How a turn that did not fail ended. -/
inductive TerminalState where
  | completed | cancelled
  deriving DecidableEq, Repr

inductive AgentEvent where
  | turnStarted
  | toolStarted (tool : String)
  | toolCompleted (tool : String) (ok : Bool)
  | approvalRequired
  | approvalResolved (decision : DecisionKind)
  | artifactFinal
  | turnCompleted (state : TerminalState)
  | turnFailed (reason : TurnFailureReason)
  deriving DecidableEq, Repr

def AgentEvent.isTerminal : AgentEvent → Bool
  | .turnCompleted _ | .turnFailed _ => true
  | _ => false

structure LifecycleReducer where
  state : TurnState := .running
  hasStarted : Bool := false
  hasFinalArtifact : Bool := false
  terminal : Bool := false
  events : List AgentEvent := []
  deriving DecidableEq, Repr

namespace LifecycleReducer

/-- `#apply`; `none` is a `StateTransitionError`. -/
def apply (r : LifecycleReducer) (event : AgentEvent) : Option LifecycleReducer :=
  if r.terminal then none
  else match event with
  | .turnStarted => if r.hasStarted then none else some { r with hasStarted := true }
  | .toolStarted _ | .toolCompleted _ _ =>
    if !r.hasStarted || r.state ≠ .running then none else some r
  | .approvalRequired =>
    if !r.hasStarted || r.state ≠ .running then none
    else some { r with state := .awaitingApproval }
  | .approvalResolved _ =>
    if r.state ≠ .awaitingApproval then none else some { r with state := .running }
  | .artifactFinal =>
    if !r.hasStarted || r.state ≠ .running || r.hasFinalArtifact then none
    else some { r with hasFinalArtifact := true }
  | .turnCompleted .completed =>
    if !r.hasStarted || !r.hasFinalArtifact then none
    else some { r with state := .completed, terminal := true }
  | .turnCompleted .cancelled =>
    if !r.hasStarted then none else some { r with state := .cancelled, terminal := true }
  | .turnFailed _ =>
    if !r.hasStarted then none else some { r with state := .failed, terminal := true }

def transition (r : LifecycleReducer) (event : AgentEvent) : Option LifecycleReducer :=
  (r.apply event).map fun r => { r with events := r.events ++ [event] }

end LifecycleReducer

/-! ## The runner -/

/-- The part of `RunnerState` that outlives a tool call. -/
structure RunnerState where
  reducer : LifecycleReducer := {}
  awaitingApproval : Bool := false
  artifact : Option Artifact := none
  deriving DecidableEq, Repr

inductive OutcomeState where
  | awaitingApproval | completed | cancelled | failed
  deriving DecidableEq, Repr

/-- The events of an outcome are the reducer's own list, which the runner goes on extending. -/
structure TurnOutcome where
  terminalState : OutcomeState
  artifact : Option Artifact := none
  deriving DecidableEq, Repr

/-- What the race between prompt, deadline and cancellation came to: `error` is a prompt that
rejects with anything but the deadline. -/
inductive PromptEnd where
  | returned | deadline | error
  deriving DecidableEq, Repr

namespace RunnerState

/-- The events with which a run ends. -/
def close (s : RunnerState) (events : List AgentEvent) (terminalState : OutcomeState) :
    Option (RunnerState × TurnOutcome) := do
  let reducer ← events.foldlM LifecycleReducer.transition s.reducer
  return ({ s with reducer }, { terminalState, artifact := s.artifact })

/-- `execute` from the end of the prompt on. `none` is an exception. -/
def finish (s : RunnerState) (cancelled : Bool) (prompt : PromptEnd) :
    Option (RunnerState × TurnOutcome) :=
  if cancelled then s.close [.turnCompleted .cancelled] .cancelled
  else match prompt with
  | .error => none
  | .deadline => s.close [.turnFailed .turnDeadlineExceeded] .failed
  | .returned =>
    if s.awaitingApproval then s.close [] .awaitingApproval
    else if s.artifact.isSome then s.close [.artifactFinal, .turnCompleted .completed] .completed
    else s.close [.turnFailed .noFinalArtifact] .failed

end RunnerState

/-! ## The hub -/

inductive SseBody where
  | sessionStarted
  | turnStarted
  | toolStarted (tool : String)
  | toolCompleted (tool : String) (ok : Bool)
  | approvalRequired (approvalId : Option String)
  | approvalResolved (decision : DecisionKind)
  | artifactFinal (artifact : Option Artifact)
  | turnCompleted (state : TerminalState)
  | turnFailed (reason : TurnFailureReason)
  deriving DecidableEq, Repr

namespace SseBody

def isTerminal : SseBody → Bool
  | turnCompleted _ | turnFailed _ => true
  | _ => false

def isArtifact : SseBody → Bool
  | artifactFinal _ => true
  | _ => false

end SseBody

/-- `projectLifecycle` -/
def projectLifecycle (artifact : Option Artifact) : AgentEvent → SseBody
  | .turnStarted => .turnStarted
  | .toolStarted tool => .toolStarted tool
  | .toolCompleted tool ok => .toolCompleted tool ok
  | .approvalRequired => .approvalRequired none
  | .approvalResolved decision => .approvalResolved decision
  | .artifactFinal => .artifactFinal artifact
  | .turnCompleted state => .turnCompleted state
  | .turnFailed reason => .turnFailed reason

structure SseEvent where
  sessionId : SessionId
  turnId : TurnId
  body : SseBody
  deriving DecidableEq, Repr

/-- An event of the turn. -/
def SseEvent.isOf (e : SseEvent) (sessionId : SessionId) (turnId : TurnId) : Bool :=
  e.sessionId = sessionId && e.turnId = turnId

structure SseHub where
  events : List SseEvent := []
  deriving DecidableEq, Repr

namespace SseHub

section

variable (hub : SseHub) (sessionId : SessionId) (turnId : TurnId)

/-- `#terminals` has the turn: a terminal event of it was accepted. -/
def terminal : Bool := hub.events.any fun e => e.isOf sessionId turnId && e.body.isTerminal

/-- `emit`; `none` is the `SseProtocolError` of a turn that is already terminal. -/
def emit (body : SseBody) : Option SseHub :=
  if hub.terminal sessionId turnId then none
  else some { hub with events := hub.events ++ [⟨sessionId, turnId, body⟩] }

/-- The events of a turn. -/
def history : List SseBody := (hub.events.filter (·.isOf sessionId turnId)).map (·.body)

/-- Nothing of a turn comes after its terminal event. -/
def OnlyLast : Prop :=
  hub.events.Pairwise fun e f => e.body.isTerminal = true → f.isOf e.sessionId e.turnId = false

end

/-- `emit` one event after the other, up to the first that is refused. -/
def emitAll (hub : SseHub) (sessionId : SessionId) (turnId : TurnId) : List SseBody → SseHub × Bool
  | [] => (hub, true)
  | body :: bodies =>
    match hub.emit sessionId turnId body with
    | none => (hub, false)
    | some hub => emitAll hub sessionId turnId bodies

end SseHub

/-! ## What the reducer accepts -/

namespace LifecycleReducer

variable {r r' : LifecycleReducer} {event : AgentEvent}

/-- What the fields say of the events accepted so far. -/
structure Sound (r : LifecycleReducer) : Prop where
  artifacts : r.events.count .artifactFinal = if r.hasFinalArtifact then 1 else 0
  terminal : r.terminal = r.events.any AgentEvent.isTerminal
  last : ∀ e ∈ r.events.dropLast, e.isTerminal = false

theorem Sound.init : Sound {} := ⟨rfl, rfl, fun _ he => nomatch he⟩

theorem apply_spec (h : r.apply event = some r') :
    r.terminal = false ∧ r'.events = r.events ∧ r'.terminal = event.isTerminal ∧
      (event = .artifactFinal → r.hasFinalArtifact = false ∧ r'.hasFinalArtifact = true) ∧
      (event ≠ .artifactFinal → r'.hasFinalArtifact = r.hasFinalArtifact) := by
  unfold apply at h
  split at h
  · exact nomatch h
  · next hterminal =>
    have hterminal : r.terminal = false := by simpa using hterminal
    cases event with
    | turnCompleted state =>
      cases state <;> simp only [Option.ite_none_left_eq_some, Option.some.injEq] at h <;>
        obtain ⟨_, rfl⟩ := h <;> simp [hterminal, AgentEvent.isTerminal]
    | artifactFinal =>
      simp only [Option.ite_none_left_eq_some, Option.some.injEq] at h
      obtain ⟨hguard, rfl⟩ := h
      simp only [Bool.or_eq_true, not_or, Bool.not_eq_true] at hguard
      simp [hterminal, hguard.2, AgentEvent.isTerminal]
    | _ =>
      simp only [Option.ite_none_left_eq_some, Option.some.injEq] at h
      obtain ⟨_, rfl⟩ := h
      simp [hterminal, AgentEvent.isTerminal]

theorem transition_hasStarted (h : r.transition event = some r') (hstarted : r.hasStarted = true) :
    r'.hasStarted = true := by
  obtain ⟨r₁, hr₁, rfl⟩ := Option.map_eq_some_iff.mp h
  unfold apply at hr₁
  split at hr₁
  · exact nomatch hr₁
  · cases event with
    | turnCompleted state =>
      cases state <;> simp only [Option.ite_none_left_eq_some, Option.some.injEq] at hr₁ <;>
        obtain ⟨_, rfl⟩ := hr₁ <;> exact hstarted
    | turnStarted => exact nomatch hr₁
    | _ =>
      simp only [Option.ite_none_left_eq_some, Option.some.injEq] at hr₁
      obtain ⟨_, rfl⟩ := hr₁
      exact hstarted

theorem transition_events (h : r.transition event = some r') :
    r'.events = r.events ++ [event] := by
  obtain ⟨r₁, hr₁, rfl⟩ := Option.map_eq_some_iff.mp h
  rw [(apply_spec hr₁).2.1]

theorem transition_terminal (h : r.transition event = some r') : r'.terminal = event.isTerminal := by
  obtain ⟨r₁, hr₁, rfl⟩ := Option.map_eq_some_iff.mp h
  exact (apply_spec hr₁).2.2.1

theorem Sound.transition (h : r.Sound) (ht : r.transition event = some r') : r'.Sound := by
  have hevents := transition_events ht
  obtain ⟨r₁, hr₁, rfl⟩ := Option.map_eq_some_iff.mp ht
  obtain ⟨hterminal, _, hterminal', hartifact, hother⟩ := apply_spec hr₁
  constructor
  · rw [hevents, List.count_append, h.artifacts]
    by_cases hevent : event = .artifactFinal
    · subst hevent
      obtain ⟨hbefore, hafter⟩ := hartifact rfl
      simp [hbefore, hafter]
    · rw [List.count_eq_zero_of_not_mem (by simpa using fun h => hevent h.symm)]
      simp [hother hevent]
  · rw [hevents, List.any_append, ← h.terminal, hterminal]
    simpa using hterminal'
  · rw [hevents, List.dropLast_concat]
    intro e he
    by_contra hne
    have : r.events.any AgentEvent.isTerminal = true := List.any_eq_true.mpr ⟨e, he, by simpa using hne⟩
    exact absurd (h.terminal.trans this) (by simp [hterminal])

/-- No reducer has accepted a second artifact. -/
theorem Sound.count_artifact_le (h : r.Sound) : r.events.count .artifactFinal ≤ 1 := by
  rw [h.artifacts]
  split <;> omega

/-- The reducer's part of a turn that only uses tools and ends: it is running until it ends. -/
def Plain (r : LifecycleReducer) : Prop :=
  r.hasStarted = true ∧ (r.terminal = true ↔ r.state ≠ .running)

theorem Plain.transition (h : r.Plain) (ht : r.transition event = some r')
    (hrequired : event ≠ .approvalRequired) : r'.Plain := by
  obtain ⟨r₁, hr₁, rfl⟩ := Option.map_eq_some_iff.mp ht
  obtain ⟨hstarted, hrunning⟩ := h
  unfold apply at hr₁
  split at hr₁
  · exact nomatch hr₁
  · next hterminal =>
    have hstate : r.state = .running := by
      by_contra hne
      exact hterminal (hrunning.mpr hne)
    cases event with
    | turnCompleted state =>
      cases state <;> simp only [Option.ite_none_left_eq_some, Option.some.injEq] at hr₁ <;>
        obtain ⟨_, rfl⟩ := hr₁ <;> simp [Plain, hstarted]
    | approvalRequired => exact absurd rfl hrequired
    | approvalResolved decision => simp [hstate] at hr₁
    | turnFailed reason =>
      simp only [Option.ite_none_left_eq_some, Option.some.injEq] at hr₁
      obtain ⟨_, rfl⟩ := hr₁
      exact ⟨hstarted, by simp⟩
    | turnStarted => simp at hr₁
    | _ =>
      simp only [Option.ite_none_left_eq_some, Option.some.injEq] at hr₁
      obtain ⟨_, rfl⟩ := hr₁
      exact ⟨hstarted, hrunning⟩

end LifecycleReducer

/-! ## How a run ends -/

namespace RunnerState

open LifecycleReducer

variable {s s' : RunnerState} {outcome : TurnOutcome} {cancelled : Bool} {prompt : PromptEnd}

/-- Between the start and the end of a run the runner's reducer is running. -/
structure Sound (s : RunnerState) : Prop where
  reducer : s.reducer.Sound
  plain : s.reducer.Plain

theorem Sound.transitions {r r' : LifecycleReducer} {events : List AgentEvent} (h : r.Sound)
    (hplain : r.Plain) (hrequired : ∀ e ∈ events, e ≠ .approvalRequired)
    (ht : events.foldlM LifecycleReducer.transition r = some r') :
    r'.Sound ∧ r'.Plain ∧ r'.events = r.events ++ events := by
  induction events generalizing r with
  | nil =>
    cases ht
    exact ⟨h, hplain, (List.append_nil _).symm⟩
  | cons e events ih =>
    obtain ⟨r₁, hr₁, hrest⟩ := Option.bind_eq_some_iff.mp ht
    obtain ⟨hsound, hplain', hevents⟩ := ih (h.transition hr₁)
      (hplain.transition hr₁ (hrequired e List.mem_cons_self))
      (fun e' he' => hrequired e' (List.mem_cons_of_mem _ he')) hrest
    rw [LifecycleReducer.transition_events hr₁] at hevents
    exact ⟨hsound, hplain', by simpa using hevents⟩

/-- The events with which a run that comes to an end closes. -/
def closing (s : RunnerState) (cancelled : Bool) (prompt : PromptEnd) : List AgentEvent :=
  if cancelled then [.turnCompleted .cancelled]
  else match prompt with
  | .error => []
  | .deadline => [.turnFailed .turnDeadlineExceeded]
  | .returned =>
    if s.awaitingApproval then []
    else if s.artifact.isSome then [.artifactFinal, .turnCompleted .completed]
    else [.turnFailed .noFinalArtifact]

theorem close_spec {events : List AgentEvent} {state : OutcomeState} (h : s.Sound)
    (hrequired : ∀ e ∈ events, e ≠ .approvalRequired)
    (hclose : s.close events state = some (s', outcome)) :
    s'.Sound ∧ s'.reducer.events = s.reducer.events ++ events ∧
      s'.awaitingApproval = s.awaitingApproval ∧ outcome = ⟨state, s.artifact⟩ := by
  obtain ⟨r, hr, heq⟩ := Option.bind_eq_some_iff.mp hclose
  obtain ⟨rfl, rfl⟩ := Prod.mk.inj (Option.some.inj heq)
  obtain ⟨hsound, hplain, hevents⟩ := Sound.transitions h.reducer h.plain hrequired hr
  exact ⟨⟨hsound, hplain⟩, hevents, rfl, rfl⟩

theorem close_hasStarted {events : List AgentEvent} {state : OutcomeState}
    (hstarted : s.reducer.hasStarted = true) (hclose : s.close events state = some (s', outcome)) :
    s'.reducer.hasStarted = true := by
  obtain ⟨r, hr, heq⟩ := Option.bind_eq_some_iff.mp hclose
  obtain ⟨rfl, rfl⟩ := Prod.mk.inj (Option.some.inj heq)
  clear heq hclose
  revert hr
  generalize s.reducer = r₀ at hstarted
  intro hr
  induction events generalizing r₀ with
  | nil =>
    cases hr
    exact hstarted
  | cons e events ih =>
    obtain ⟨r₁, hr₁, hrest⟩ := Option.bind_eq_some_iff.mp hr
    exact ih r₁ (transition_hasStarted hr₁ hstarted) hrest

theorem finish_hasStarted (hstarted : s.reducer.hasStarted = true)
    (hfinish : s.finish cancelled prompt = some (s', outcome)) : s'.reducer.hasStarted = true := by
  unfold finish at hfinish
  split at hfinish
  · exact close_hasStarted hstarted hfinish
  · cases prompt with
    | error => exact nomatch hfinish
    | deadline => exact close_hasStarted hstarted hfinish
    | returned =>
      dsimp only at hfinish
      split at hfinish
      · exact close_hasStarted hstarted hfinish
      · split at hfinish <;> exact close_hasStarted hstarted hfinish

/-- A run ends with its closing events, and without a terminal one only to wait for an approval. -/
theorem finish_spec (h : s.Sound) (hfinish : s.finish cancelled prompt = some (s', outcome)) :
    s'.Sound ∧ s'.reducer.events = s.reducer.events ++ s.closing cancelled prompt ∧
      s'.awaitingApproval = s.awaitingApproval ∧
      (outcome.terminalState = .awaitingApproval ∧ s.awaitingApproval = true ∨
        outcome.terminalState ≠ .awaitingApproval ∧
          (s.closing cancelled prompt).any AgentEvent.isTerminal = true) := by
  unfold finish at hfinish
  unfold closing
  split at hfinish
  · next hc =>
    obtain ⟨hsound, hevents, hawait, rfl⟩ := close_spec h (by simp) hfinish
    exact ⟨hsound, by simpa [hc] using hevents, hawait, Or.inr ⟨by simp, by simp [hc, AgentEvent.isTerminal]⟩⟩
  · next hc =>
    cases prompt with
    | error => exact nomatch hfinish
    | deadline =>
      obtain ⟨hsound, hevents, hawait, rfl⟩ := close_spec h (by simp) hfinish
      exact ⟨hsound, by simpa [hc] using hevents, hawait, Or.inr ⟨by simp, by simp [hc, AgentEvent.isTerminal]⟩⟩
    | returned =>
      dsimp only at hfinish
      split at hfinish
      · next ha =>
        obtain ⟨hsound, hevents, hawait, rfl⟩ := close_spec h (by simp) hfinish
        exact ⟨hsound, by simpa [hc, ha] using hevents, hawait, Or.inl ⟨rfl, ha⟩⟩
      · next ha =>
        split at hfinish
        · next hart =>
          obtain ⟨hsound, hevents, hawait, rfl⟩ := close_spec h (by simp) hfinish
          exact ⟨hsound, by simpa [hc, ha, hart] using hevents, hawait,
            Or.inr ⟨by simp, by simp [hc, ha, hart, AgentEvent.isTerminal]⟩⟩
        · next hart =>
          obtain ⟨hsound, hevents, hawait, rfl⟩ := close_spec h (by simp) hfinish
          exact ⟨hsound, by simpa [hc, ha, hart] using hevents, hawait,
            Or.inr ⟨by simp, by simp [hc, ha, hart, AgentEvent.isTerminal]⟩⟩

end RunnerState

/-! ## What the hub accepts -/

namespace SseHub

variable {hub hub' : SseHub} {sessionId : SessionId} {turnId : TurnId} {body : SseBody}
  {bodies : List SseBody} {s : SessionId} {t : TurnId}

theorem isOf_iff {e : SseEvent} : e.isOf s t = true ↔ e.sessionId = s ∧ e.turnId = t := by
  simp [SseEvent.isOf]

theorem emit_eq_some : hub.emit sessionId turnId body = some hub' ↔
    hub.terminal sessionId turnId = false ∧
      hub' = { hub with events := hub.events ++ [⟨sessionId, turnId, body⟩] } := by
  unfold emit
  cases hub.terminal sessionId turnId <;> simp [eq_comm]

theorem emit_eq_none : hub.emit sessionId turnId body = none ↔
    hub.terminal sessionId turnId = true := by
  unfold emit
  cases hub.terminal sessionId turnId <;> simp

@[simp] theorem history_append (events : List SseEvent) :
    SseHub.history ⟨events ++ [⟨sessionId, turnId, body⟩]⟩ s t =
      SseHub.history ⟨events⟩ s t ++ if sessionId = s ∧ turnId = t then [body] else [] := by
  unfold history
  rw [List.filter_append, List.map_append]
  congr 1
  by_cases h : sessionId = s ∧ turnId = t <;> simp [SseEvent.isOf, h]

theorem terminal_eq_any : hub.terminal s t = (hub.history s t).any SseBody.isTerminal := by
  unfold terminal history
  rw [List.any_map, List.any_filter]
  rfl

/-- The history of a turn grows by what was accepted. -/
theorem emit_history (h : hub.emit sessionId turnId body = some hub') :
    hub'.history s t = hub.history s t ++ if sessionId = s ∧ turnId = t then [body] else [] := by
  obtain ⟨_, rfl⟩ := emit_eq_some.mp h
  exact history_append hub.events

theorem emit_terminal (h : hub.emit sessionId turnId body = some hub') :
    hub'.terminal s t = (hub.terminal s t || (sessionId = s && turnId = t && body.isTerminal)) := by
  rw [terminal_eq_any, emit_history h, List.any_append, ← terminal_eq_any]
  by_cases hs : sessionId = s <;> by_cases ht : turnId = t <;> simp [hs, ht]

/-- What `emitAll` publishes is a prefix, cut after the first terminal event. -/
theorem emitAll_history (hub : SseHub) (bodies : List SseBody) :
    ∃ published, published <+: bodies ∧ ∀ s t, (hub.emitAll sessionId turnId bodies).1.history s t =
      hub.history s t ++ if sessionId = s ∧ turnId = t then published else [] := by
  induction bodies generalizing hub with
  | nil => exact ⟨[], List.prefix_rfl, fun s t => by simp [emitAll]⟩
  | cons body bodies ih =>
    unfold emitAll
    cases hemit : hub.emit sessionId turnId body with
    | none => exact ⟨[], List.nil_prefix, fun s t => by simp⟩
    | some hub' =>
      obtain ⟨published, hstart, hhistory⟩ := ih hub'
      refine ⟨body :: published, List.prefix_cons_inj body |>.mpr hstart, fun s t => ?_⟩
      dsimp only
      rw [hhistory, emit_history hemit]
      split <;> simp

theorem terminal_emitAll_of_terminal (h : hub.terminal s t = true) :
    (hub.emitAll sessionId turnId bodies).1.terminal s t = true := by
  obtain ⟨published, _, hhistory⟩ := @emitAll_history sessionId turnId hub bodies
  rw [terminal_eq_any] at h ⊢
  rw [hhistory, List.any_append, h, Bool.true_or]

theorem terminal_emitAll_other (h : ¬(sessionId = s ∧ turnId = t)) :
    (hub.emitAll sessionId turnId bodies).1.terminal s t = hub.terminal s t := by
  obtain ⟨published, _, hhistory⟩ := @emitAll_history sessionId turnId hub bodies
  rw [terminal_eq_any, terminal_eq_any, hhistory, if_neg h, List.append_nil]

/-- After a terminal event was offered the turn is terminal, whether it was accepted or not. -/
theorem terminal_emitAll_of_mem (hbody : body ∈ bodies) (hterminal : body.isTerminal = true) :
    (hub.emitAll sessionId turnId bodies).1.terminal sessionId turnId = true := by
  induction bodies generalizing hub with
  | nil => exact nomatch hbody
  | cons first bodies ih =>
    unfold emitAll
    cases hemit : hub.emit sessionId turnId first with
    | none => exact emit_eq_none.mp hemit
    | some hub' =>
      dsimp only
      rcases List.mem_cons.mp hbody with rfl | hrest
      · apply terminal_emitAll_of_terminal
        rw [emit_terminal hemit]
        simp [hterminal]
      · exact ih hrest

/-- Publishing makes a turn terminal only by a terminal event. -/
theorem terminal_emitAll_iff :
    (hub.emitAll sessionId turnId bodies).1.terminal sessionId turnId = true ↔
      (∃ body ∈ bodies, body.isTerminal = true) ∨ hub.terminal sessionId turnId = true := by
  constructor
  · intro h
    obtain ⟨published, hstart, hhistory⟩ :=
      @emitAll_history sessionId turnId hub bodies
    rw [terminal_eq_any, hhistory, if_pos ⟨rfl, rfl⟩, List.any_append, Bool.or_eq_true,
      ← terminal_eq_any] at h
    refine h.symm.imp_left fun h => ?_
    obtain ⟨body, hbody, hterminal⟩ := List.any_eq_true.mp h
    exact ⟨body, hstart.subset hbody, hterminal⟩
  · rintro (⟨body, hbody, hterminal⟩ | h)
    · exact terminal_emitAll_of_mem hbody hterminal
    · exact terminal_emitAll_of_terminal h

/-- A refusal means that the turn is terminal. -/
theorem terminal_of_emitAll_false (h : (hub.emitAll sessionId turnId bodies).2 = false) :
    (hub.emitAll sessionId turnId bodies).1.terminal sessionId turnId = true := by
  induction bodies generalizing hub with
  | nil => exact nomatch h
  | cons first bodies ih =>
    unfold emitAll at h ⊢
    cases hemit : hub.emit sessionId turnId first with
    | none => exact emit_eq_none.mp hemit
    | some hub' =>
      rw [hemit] at h
      exact ih h

/-- Events a turn may still have, with the terminal one last, are all accepted. -/
theorem emitAll_accepted (h : hub.terminal sessionId turnId = false)
    (hlast : ∀ body ∈ bodies.dropLast, body.isTerminal = false) :
    (hub.emitAll sessionId turnId bodies).2 = true := by
  induction bodies generalizing hub with
  | nil => rfl
  | cons first bodies ih =>
    unfold emitAll
    cases hemit : hub.emit sessionId turnId first with
    | none => exact absurd (emit_eq_none.mp hemit) (by simp [h])
    | some hub' =>
      cases bodies with
      | nil => rfl
      | cons second bodies =>
        rw [List.dropLast_cons_cons] at hlast
        refine ih ?_ fun body hbody => hlast body (List.mem_cons_of_mem _ hbody)
        rw [emit_terminal hemit, h, hlast first List.mem_cons_self]
        simp

theorem OnlyLast.init : OnlyLast {} := List.Pairwise.nil

theorem OnlyLast.emit (h : hub.OnlyLast) (hemit : hub.emit sessionId turnId body = some hub') :
    hub'.OnlyLast := by
  obtain ⟨hterminal, rfl⟩ := emit_eq_some.mp hemit
  refine List.pairwise_append.mpr ⟨h, List.pairwise_singleton _ _, ?_⟩
  intro e he f hf hbody
  obtain rfl := List.mem_singleton.mp hf
  by_contra hof
  have hof : sessionId = e.sessionId ∧ turnId = e.turnId := by
    simpa [SseEvent.isOf] using hof
  have : hub.terminal sessionId turnId = true :=
    List.any_eq_true.mpr ⟨e, he, by simp [SseEvent.isOf, hof, hbody]⟩
  exact absurd this (by simp [hterminal])

theorem OnlyLast.emitAll (h : hub.OnlyLast) : (hub.emitAll sessionId turnId bodies).1.OnlyLast := by
  induction bodies generalizing hub with
  | nil => exact h
  | cons first bodies ih =>
    unfold SseHub.emitAll
    cases hemit : hub.emit sessionId turnId first with
    | none => exact h
    | some hub' => exact ih (h.emit hemit)

/-- The history of a terminal turn: its terminal event is the last, and the only one. -/
theorem OnlyLast.history_of_terminal (h : hub.OnlyLast) (hterminal : hub.terminal s t = true) :
    ∃ before last, hub.history s t = before ++ [last] ∧ last.isTerminal = true ∧
      ∀ body ∈ before, body.isTerminal = false := by
  have hpairwise : (hub.history s t).Pairwise fun a _ => a.isTerminal = false := by
    unfold history
    refine List.pairwise_map.mpr ((h.filter _).imp_of_mem fun {e f} he hf hlast => ?_)
    have he := isOf_iff.mp (List.mem_filter.mp he).2
    have hf := (List.mem_filter.mp hf).2
    by_contra hbody
    rw [he.1, he.2] at hlast
    exact absurd hf (by simp [hlast (by simpa using hbody)])
  rw [terminal_eq_any] at hterminal
  obtain ⟨last, hmem, hlast⟩ := List.any_eq_true.mp hterminal
  obtain ⟨before, after, hsplit⟩ := List.append_of_mem hmem
  rw [hsplit] at hpairwise ⊢
  obtain ⟨_, htail, hbefore⟩ := List.pairwise_append.mp hpairwise
  cases after with
  | nil => exact ⟨before, last, rfl, hlast, fun body hbody => hbefore body hbody last List.mem_cons_self⟩
  | cons next after =>
    have := List.rel_of_pairwise_cons htail List.mem_cons_self
    exact absurd hlast (by simp [this])

/-- What a job publishes is of one turn, with at most so many artifacts. -/
structure Publishes (hub hub' : SseHub) (sessionId : SessionId) (turnId : TurnId) (artifacts : Nat) :
    Prop where
  history : ∃ published, published.countP SseBody.isArtifact ≤ artifacts ∧
    ∀ s t, hub'.history s t =
      hub.history s t ++ if sessionId = s ∧ turnId = t then published else []
  onlyLast : hub.OnlyLast → hub'.OnlyLast

namespace Publishes

variable {hub'' : SseHub} {m n : Nat}

theorem refl (hub : SseHub) : Publishes hub hub sessionId turnId 0 :=
  ⟨⟨[], le_rfl, fun s t => by simp⟩, id⟩

theorem emitAll (hub : SseHub) (bodies : List SseBody) :
    Publishes hub (hub.emitAll sessionId turnId bodies).1 sessionId turnId
      (bodies.countP SseBody.isArtifact) := by
  obtain ⟨published, hstart, hhistory⟩ :=
    @emitAll_history sessionId turnId hub bodies
  exact ⟨⟨published, hstart.sublist.countP_le, hhistory⟩, OnlyLast.emitAll⟩

theorem trans (h : Publishes hub hub' sessionId turnId m)
    (h' : Publishes hub' hub'' sessionId turnId n) : Publishes hub hub'' sessionId turnId (m + n) := by
  obtain ⟨l, hl, hhistory⟩ := h.history
  obtain ⟨l', hl', hhistory'⟩ := h'.history
  refine ⟨⟨l ++ l', ?_, fun s t => ?_⟩, h'.onlyLast ∘ h.onlyLast⟩
  · rw [List.countP_append]
    omega
  · rw [hhistory', hhistory]
    split <;> simp

theorem mono (h : Publishes hub hub' sessionId turnId m) (hle : m ≤ n) :
    Publishes hub hub' sessionId turnId n := by
  obtain ⟨l, hl, hhistory⟩ := h.history
  exact ⟨⟨l, hl.trans hle, hhistory⟩, h.onlyLast⟩

/-- A turn stays terminal. -/
theorem terminal (h : Publishes hub hub' sessionId turnId m) (hterminal : hub.terminal s t = true) :
    hub'.terminal s t = true := by
  obtain ⟨l, _, hhistory⟩ := h.history
  rw [terminal_eq_any] at hterminal ⊢
  rw [hhistory, List.any_append, hterminal, Bool.true_or]

end Publishes

end SseHub

end NanFung.Runtime
