import NanFung.Lib.Proc
import NanFung.Lib.Runs
import NanFung.Runtime.Events

/-!
# The agent runtime as a system of steps

The server of `app.ts`: `SessionRegistry`, `SseHub`, `CancelCoordinator` and `ApprovalCoordinator`
over one state, and the calls of `execute` that are under way. JavaScript runs one job at a time, so
a step is what happens between two points where some call waits: for a request body, the runtime's
boot, the prompt, the facade, or the promise of a turn's outcome. Anything may happen in between.

Ids drawn from `randomBytes` are new; the guards of the steps that draw one say so.
-/

namespace NanFung.Runtime

open Table

abbrev ApprovalId := String
abbrev RefreshId := String
abbrev Fingerprint := String

def turnDeadlineMs : Nat := 120000
def testPolicyVersion : String := "test-online-v1"

/-- Where a call of `execute` is: the request body is being read, the runtime boots, the prompt
runs, `runTurn` has an outcome or an exception for `execute`, or `execute` is done. -/
inductive Phase where
  | reading
  | booting
  | running
  | returned (outcome : TurnOutcome)
  | thrown
  | finished
  deriving DecidableEq, Repr

/-- `runTurn` is over, `execute` is not. -/
def Phase.isOver : Phase → Bool
  | .returned _ | .thrown => true
  | _ => false

structure Refresh where
  refreshRequestId : RefreshId
  fingerprint : Fingerprint
  deriving DecidableEq, Repr

/-- A reserved turn, with its `TurnContext` and `RunnerState`. -/
structure Turn where
  sessionId : SessionId
  turnId : TurnId
  principal : String := ""
  capabilityScopeId : String := ""
  phase : Phase := .reading
  deadline : Nat := 0
  cancelled : Bool := false
  refreshIds : List Refresh := []
  runner : RunnerState := {}
  deriving DecidableEq, Repr

structure PendingApproval where
  approvalId : ApprovalId
  sessionId : SessionId
  principal : String
  capabilityScopeId : String
  refreshRequestId : RefreshId
  fingerprint : Fingerprint
  policyVersion : String := testPolicyVersion
  expiresAtMs : Nat
  decision : Option DecisionKind := none
  deriving DecidableEq, Repr

def PendingApproval.decided (decision : DecisionKind) (a : PendingApproval) : PendingApproval :=
  { a with decision := some decision }

/-- `ref` is the object's identity: it tells the promise that `prepareContinuation` made for a turn
from the one `enqueueContinuation` makes when the slot holds another turn. -/
structure Continuation where
  sessionId : SessionId
  turnId : TurnId
  ref : Nat
  deriving DecidableEq, Repr

structure ActiveTurn where
  sessionId : SessionId
  turnId : TurnId
  deriving DecidableEq, Repr

inductive CancelResult where
  | cancelled | unknownTurn | notActive | sessionGone
  deriving DecidableEq, Repr

/-- The arguments of `decide`. -/
structure DecideCall where
  sessionId : SessionId
  approvalId : ApprovalId
  decision : DecisionKind
  principal : String
  scopeId : String
  deriving DecidableEq, Repr

inductive DecisionFailure where
  | unknown | expired | replayOpposite | scopeMismatch | principalMismatch | fingerprintMismatch
  | policyVersionMismatch
  deriving DecidableEq, Repr

/-- How a `decide` call settles: `ApprovalDecision`, or an exception. -/
inductive Settlement where
  | decided (decision : DecisionKind)
  | same (decision : DecisionKind)
  | refused (reason : DecisionFailure)
  | threw
  deriving DecidableEq, Repr

/-- What the `decide` call that holds `#decisionTail` waits for: the facade, the outcome of the turn
it continues, or the resumed prompt. `previousEventCount` is the number of events the turn's runner
had when the prompt was resumed. -/
inductive Waiting where
  | facade (continuation : Option Continuation)
  | outcome (continuation : Continuation)
  | prompt (continuation : Continuation) (previousEventCount : Nat)
  deriving DecidableEq, Repr

/-- `timeOrigin` is what `performance.timeOrigin` adds to the registry's clock. `decideQueue` are the
calls behind `#decisionTail`, `settled` the calls that are done and `approved` the approvals for
which `approve_refresh` succeeded. -/
structure Server where
  timeOrigin : Nat := 0
  now : Nat := 0
  registry : SessionRegistry := {}
  hub : SseHub := {}
  turns : List Turn := []
  activeTurns : List ActiveTurn := []
  terminalTurns : List ActiveTurn := []
  pending : List PendingApproval := []
  continuations : List Continuation := []
  nextRef : Nat := 0
  resolved : List Nat := []
  deciding : Option (DecideCall × Waiting) := none
  decideQueue : List DecideCall := []
  settled : List (DecideCall × Settlement) := []
  approved : List ApprovalId := []
  deriving DecidableEq, Repr

namespace Server

variable (s : Server)

/-- The clock of approvals. -/
def clock : Nat := s.timeOrigin + s.now

def turn? (turnId : TurnId) : Option Turn := s.turns.find? (·.turnId = turnId)

def modifyTurn (turnId : TurnId) (f : Turn → Turn) : Server :=
  { s with turns := updateWhere (·.turnId = turnId) f s.turns }

def setPhase (turnId : TurnId) (phase : Phase) : Server :=
  s.modifyTurn turnId ({ · with phase })

def releaseTurn (sessionId : SessionId) : Server :=
  { s with registry := s.registry.releaseTurn s.now sessionId }

/-- Publish events of a turn, up to the first that is refused. -/
def emitAll (sessionId : SessionId) (turnId : TurnId) (bodies : List SseBody) : Server × Bool :=
  let (hub, accepted) := s.hub.emitAll sessionId turnId bodies
  ({ s with hub }, accepted)

/-! ## `ApprovalCoordinator` -/

/-- The approval can still be decided. -/
def undecided (a : PendingApproval) : Bool := a.decision = none && s.clock < a.expiresAtMs

def isAwaiting (sessionId : SessionId) : Bool :=
  s.pending.any fun a => a.sessionId = sessionId && s.undecided a

def continuation? (sessionId : SessionId) : Option Continuation :=
  s.continuations.find? (·.sessionId = sessionId)

/-- `#continuations.set` with a new object. -/
def setContinuation (sessionId : SessionId) (turnId : TurnId) : Server :=
  { s with
    continuations := upsert Continuation.sessionId ⟨sessionId, turnId, s.nextRef⟩ s.continuations
    nextRef := s.nextRef + 1 }

def prepareContinuation (sessionId : SessionId) (turnId : TurnId) : Server :=
  s.setContinuation sessionId turnId

/-- The outcome goes to the object in the slot if that is the turn's, else a new object replaces
it. -/
def enqueueContinuation (sessionId : SessionId) (turnId : TurnId) : Server :=
  match s.continuation? sessionId with
  | some existing =>
    if existing.turnId = turnId then { s with resolved := s.resolved ++ [existing.ref] }
    else { s.setContinuation sessionId turnId with resolved := s.resolved ++ [s.nextRef] }
  | none => { s.setContinuation sessionId turnId with resolved := s.resolved ++ [s.nextRef] }

/-- The approval is one the turn asked for. -/
def refreshMatches (turn : Turn) (a : PendingApproval) : Bool :=
  turn.refreshIds.any fun refresh =>
    refresh.refreshRequestId = a.refreshRequestId && refresh.fingerprint = a.fingerprint

def registerRequired (a : PendingApproval) : Server × Bool :=
  if a.policyVersion ≠ testPolicyVersion ∨ s.pending.any (·.approvalId = a.approvalId) then (s, true)
  else
    let s := { s with pending := s.pending ++ [a] }
    let turnId := ((s.continuation? a.sessionId).map (·.turnId)).getD "host-approval"
    s.emitAll a.sessionId turnId [.approvalRequired (some a.approvalId)]

/-- The checks of `#decide`, in their order; the approval and the continuation if all pass. -/
def check (c : DecideCall) : Except DecisionFailure (PendingApproval × Option Continuation) := do
  let a ← orThrow (s.pending.find? (·.approvalId = c.approvalId)) .unknown
  require (a.sessionId = c.sessionId) .unknown
  require (s.clock < a.expiresAtMs) .expired
  require (a.capabilityScopeId = c.scopeId) .scopeMismatch
  require (a.principal = c.principal) .principalMismatch
  require (a.policyVersion = testPolicyVersion) .policyVersionMismatch
  let continuation := s.continuation? c.sessionId
  let turn := continuation.bind fun k => s.turn? k.turnId
  require (∀ t ∈ turn, refreshMatches t a = true) .fingerprintMismatch
  require (∀ d ∈ a.decision, d = c.decision) .replayOpposite
  return (a, continuation)

def settle (c : DecideCall) (settlement : Settlement) : Server :=
  { s with deciding := none, settled := s.settled ++ [(c, settlement)] }

/-- `approval.decision = decision` -/
def decideApproval (approvalId : ApprovalId) (decision : DecisionKind) : Server :=
  { s with
    pending := updateWhere (·.approvalId = approvalId) (.decided decision) s.pending }

/-- The turn whose events a decision publishes. -/
def turnOf (continuation : Option Continuation) : TurnId :=
  (continuation.map (·.turnId)).getD "host-approval"

/-- The end of `#dispatch` for one continuation: the events of the resumed run, or of its failure. -/
def finishDispatch (c : DecideCall) (k : Continuation) (bodies : Option (List SseBody)) : Server :=
  let (s, published) := match bodies with
    | none => (s, false)
    | some bodies => s.emitAll k.sessionId k.turnId bodies
  let (s, accepted) := if published then (s, true)
    else s.emitAll k.sessionId k.turnId [.turnFailed .runtimeUnavailable]
  if accepted then (s.releaseTurn k.sessionId).settle c (.decided .approve) else s.settle c .threw

/-- `#resume` once the outcome is there: a run that has ended is not resumed. -/
def resume (c : DecideCall) (k : Continuation) : Server :=
  match s.turn? k.turnId with
  | none => s.finishDispatch c k none
  | some turn =>
    if turn.runner.reducer.state ≠ .running then s.finishDispatch c k (some [])
    else { s.modifyTurn k.turnId fun t => { t with runner.awaitingApproval := false } with
      deciding := some (c, .prompt k turn.runner.reducer.events.length) }

/-- `#dispatch`. Decisions are taken one at a time, so the queue never holds a second entry. -/
def dispatch (c : DecideCall) (k : Continuation) : Server :=
  if (s.registry.live? s.now k.sessionId).isNone then s.settle c (.decided .approve)
  else if (s.turn? k.turnId).any (·.deadline ≤ s.now) then
    let (s, accepted) := s.emitAll k.sessionId k.turnId [.turnFailed .runtimeUnavailable]
    if accepted then (s.releaseTurn k.sessionId).settle c (.decided .approve) else s.settle c .threw
  else { s with deciding := some (c, .outcome k) }

/-- `#decide` up to the call of the facade, or to its end. -/
def decide (c : DecideCall) : Server :=
  match s.check c with
  | .error reason => s.settle c (.refused reason)
  | .ok (a, continuation) =>
    if a.decision.isSome then s.settle c (.same c.decision)
    else match c.decision with
    | .approve => { s with deciding := some (c, .facade continuation) }
    | .deny =>
      let s := s.decideApproval c.approvalId .deny
      let (s, accepted) := s.emitAll c.sessionId (turnOf continuation)
        [.approvalResolved .deny, .turnCompleted .completed]
      if accepted then (s.releaseTurn c.sessionId).settle c (.decided .deny) else s.settle c .threw

/-- The facade approved: `approval.decision = "approve"`. -/
def approve (c : DecideCall) : Server :=
  { s.decideApproval c.approvalId .approve with approved := s.approved ++ [c.approvalId] }

/-- `#decide` after the facade's answer. -/
def facadeReturns (c : DecideCall) (continuation : Option Continuation) (ok : Bool) : Server :=
  if !ok then s.settle c (.refused .unknown)
  else
    let (s, accepted) := (s.approve c).emitAll c.sessionId (turnOf continuation) [.approvalResolved .approve]
    if !accepted then s.settle c .threw
    else match continuation, s.pending.find? (·.approvalId = c.approvalId) with
    | some k, some a =>
      if (s.registry.live? s.now c.sessionId).isSome ∧ s.clock < a.expiresAtMs then s.dispatch c k
      else s.settle c (.decided .approve)
    | _, _ => s.settle c (.decided .approve)

/-- The continuation's prompt is over. -/
def resumed (c : DecideCall) (k : Continuation) (previousEventCount : Nat) (prompt : PromptEnd) :
    Server :=
  match s.turn? k.turnId with
  | none => s.finishDispatch c k none
  | some turn =>
    match turn.runner.finish turn.cancelled prompt with
    | none => s.finishDispatch c k none
    | some (runner, outcome) =>
      (s.modifyTurn k.turnId ({ · with runner })).finishDispatch c k
        (some ((runner.reducer.events.drop previousEventCount).map
          (projectLifecycle outcome.artifact)))

/-! ## `CancelCoordinator` -/

def activeTurn? (sessionId : SessionId) : Option ActiveTurn :=
  s.activeTurns.find? (·.sessionId = sessionId)

/-- Both branches after `emitTerminal` end the turn's registration and release the session. -/
def cancel (sessionId : SessionId) (turnId : TurnId) : CancelResult × Server :=
  let (status, registry) := s.registry.status s.now sessionId
  let s := { s with registry }
  if status ≠ .active then (.sessionGone, s)
  else match s.activeTurn? sessionId with
  | none => (if ActiveTurn.mk sessionId turnId ∈ s.terminalTurns then .notActive else .unknownTurn, s)
  | some active =>
    if active.turnId ≠ turnId then (.unknownTurn, s)
    else
      let s := s.modifyTurn turnId ({ · with cancelled := true })
      let (s, emitted) := s.emitAll sessionId turnId [.turnCompleted .cancelled]
      let s := { s with
        activeTurns := s.activeTurns.filter (·.sessionId ≠ sessionId)
        terminalTurns := s.terminalTurns ++ [ActiveTurn.mk sessionId turnId] }
      (if emitted then .cancelled else .notActive, s.releaseTurn sessionId)

/-! ## `execute` -/

/-- `onTurnCreated` -/
def turnCreated (turn : Turn) : Server :=
  let s := s.modifyTurn turn.turnId fun t => { t with
    phase := .running
    deadline := s.now + turnDeadlineMs
    runner := { reducer := { hasStarted := true, events := [.turnStarted] } } }
  let s := { s with activeTurns := upsert ActiveTurn.sessionId ⟨turn.sessionId, turn.turnId⟩ s.activeTurns }
  let s := s.prepareContinuation turn.sessionId turn.turnId
  (s.emitAll turn.sessionId turn.turnId [.turnStarted]).1

/-- The events of an outcome that `execute` publishes: none of a cancelled turn, and no terminal one
while the session awaits an approval. -/
def projected (turn : Turn) (outcome : TurnOutcome) : List SseBody :=
  if outcome.terminalState = .cancelled then []
  else ((turn.runner.reducer.events.drop 1).filter fun e =>
    !(s.isAwaiting turn.sessionId && e.isTerminal)).map (projectLifecycle outcome.artifact)

/-- The events of the outcome, or of the failure to publish them. -/
def publishOutcome (turn : Turn) (outcome : TurnOutcome) : Server :=
  let (s, accepted) := s.emitAll turn.sessionId turn.turnId (s.projected turn outcome)
  if accepted then s
  else (s.emitAll turn.sessionId turn.turnId [.turnFailed .runtimeUnavailable]).1

/-- The `finally` block. -/
def finally_ (turn : Turn) : Server :=
  let s := s.setPhase turn.turnId .finished
  if s.isAwaiting turn.sessionId then s else s.releaseTurn turn.sessionId

/-- `execute` after `runTurn`: the job that publishes the outcome and ends in the `finally` block. -/
def unwind (turn : Turn) : Server :=
  match turn.phase with
  | .returned outcome =>
    ((s.enqueueContinuation turn.sessionId turn.turnId).publishOutcome turn outcome).finally_ turn
  | _ => (s.emitAll turn.sessionId turn.turnId [.turnFailed .runtimeUnavailable]).1.finally_ turn

end Server

/-! ## Steps -/

inductive Action where
  | tick (ms : Nat)
  | createSession (sessionId : SessionId) (principal scopeId : String)
  | touch (sessionId : SessionId)
  | closeSession (sessionId : SessionId)
  /-- `POST messages`: reserve, then read the body. -/
  | message (sessionId : SessionId) (turnId : TurnId)
  | rejectMessage (turnId : TurnId)
  /-- `execute` starts, and boots the runtime. -/
  | start (turnId : TurnId)
  | turnCreated (turnId : TurnId)
  | bootFails (turnId : TurnId)
  | toolStarted (turnId : TurnId) (tool : String)
  | toolCompleted (turnId : TurnId) (tool : String) (ok : Bool)
  | registerRefresh (turnId : TurnId) (refresh : Refresh)
  /-- A result of `request_data_refresh` that asks for no approval the runtime keeps. -/
  | refreshResult (turnId : TurnId) (approvalRequired : Bool)
  /-- A result of `request_data_refresh` with a pending approval. -/
  | approvalRequired (turnId : TurnId) (approvalId : ApprovalId) (expiresAtMs : Nat)
  | finalizeResult (turnId : TurnId) (artifact : Artifact)
  /-- `runTurn` ends. -/
  | returns (turnId : TurnId) (prompt : PromptEnd)
  | unwind (turnId : TurnId)
  | cancel (sessionId : SessionId) (turnId : TurnId)
  /-- A call of `decide` queues behind `#decisionTail`. -/
  | queueDecide (call : DecideCall)
  | decide
  | facadeReturns (ok : Bool)
  | outcomeReady
  | resumed (prompt : PromptEnd)
  deriving DecidableEq, Repr

namespace Server

variable (s : Server)

/-- The prompt of the turn is running, for the first time or resumed: its tools may be called. -/
def prompting (turn : Turn) : Bool :=
  turn.phase = .running ||
    match s.deciding with
    | some (_, .prompt k _) => k.turnId = turn.turnId
    | _ => false

/-- An event of the session's subscription, while the prompt runs. -/
def observe (turnId : TurnId) (event : AgentEvent) : Option Server := do
  let turn ← s.turn? turnId
  guard (s.prompting turn = true)
  let reducer ← turn.runner.reducer.transition event
  return s.modifyTurn turnId ({ · with runner.reducer := reducer })

/-- `beforeToolCall` and `chargeAccumulators` let a tool of the turn through. -/
def toolAllowed (turn : Turn) : Bool :=
  s.prompting turn && !turn.cancelled && s.now < turn.deadline

/-- A tool's effect on its turn. -/
def useTool (turnId : TurnId) (f : Turn → Turn) : Option Server := do
  let turn ← s.turn? turnId
  guard (s.toolAllowed turn = true)
  return s.modifyTurn turnId f

/-- `pendingApproval` -/
def pendingApproval (turn : Turn) (approvalId : ApprovalId) (expiresAtMs : Nat) (refresh : Refresh) :
    PendingApproval where
  approvalId := approvalId
  expiresAtMs := expiresAtMs
  sessionId := turn.sessionId
  principal := turn.principal
  capabilityScopeId := turn.capabilityScopeId
  refreshRequestId := refresh.refreshRequestId
  fingerprint := refresh.fingerprint

/-- An id no turn has had. -/
def newTurnId (turnId : TurnId) : Bool :=
  s.turns.all (·.turnId ≠ turnId) && s.hub.events.all (·.turnId ≠ turnId) &&
    turnId ≠ "host-approval"

/-- An id no session has had. -/
def newSessionId (sessionId : SessionId) : Bool :=
  s.turns.all (·.sessionId ≠ sessionId) && s.pending.all (·.sessionId ≠ sessionId)

def step : Action → Option Server
  | .tick ms => some { s with now := s.now + ms }
  | .createSession sessionId principal scopeId =>
    if h : (∀ x ∈ s.registry.sessions, x.id ≠ sessionId) ∧ s.newSessionId sessionId then do
      let registry ← s.registry.createSession s.now sessionId principal scopeId h.1
      return ({ s with registry }.emitAll sessionId "session" [.sessionStarted]).1
    else none
  | .touch sessionId => some { s with registry := s.registry.touch s.now sessionId }
  | .closeSession sessionId => some { s with registry := s.registry.close sessionId }
  | .message sessionId turnId => do
    guard (s.newTurnId turnId = true)
    match s.registry.reserveTurn s.now sessionId with
    | (.error _, registry) => return { s with registry }
    | (.ok (), registry) => return { s with registry, turns := s.turns ++ [{ sessionId, turnId }] }
  | .rejectMessage turnId => do
    let turn ← s.turn? turnId
    guard (turn.phase = .reading)
    return { s.releaseTurn turn.sessionId with turns := s.turns.filter (·.turnId ≠ turnId) }
  | .start turnId => do
    let turn ← s.turn? turnId
    guard (turn.phase = .reading)
    match s.registry.live? s.now turn.sessionId with
    | none => return s.setPhase turnId .finished
    | some session => return s.modifyTurn turnId ({ · with
        phase := .booting
        principal := session.principal
        capabilityScopeId := session.scopeId })
  | .turnCreated turnId => do
    let turn ← s.turn? turnId
    guard (turn.phase = .booting)
    return s.turnCreated turn
  | .bootFails turnId => do
    let turn ← s.turn? turnId
    guard (turn.phase = .booting)
    return s.setPhase turnId .thrown
  | .toolStarted turnId tool => s.observe turnId (.toolStarted tool)
  | .toolCompleted turnId tool ok => s.observe turnId (.toolCompleted tool ok)
  | .registerRefresh turnId refresh => do
    guard (s.turns.all fun t => t.refreshIds.all (·.refreshRequestId ≠ refresh.refreshRequestId))
    s.useTool turnId fun t => { t with refreshIds := t.refreshIds ++ [refresh] }
  | .refreshResult turnId approvalRequired =>
    s.useTool turnId ({ · with runner.awaitingApproval := approvalRequired })
  | .approvalRequired turnId approvalId expiresAtMs => do
    let turn ← s.turn? turnId
    let refresh ← turn.refreshIds.getLast?
    let s ← s.useTool turnId ({ · with runner.awaitingApproval := true })
    return (s.registerRequired (pendingApproval turn approvalId expiresAtMs refresh)).1
  | .finalizeResult turnId artifact =>
    s.useTool turnId ({ · with runner.artifact := some artifact })
  | .returns turnId prompt => do
    let turn ← s.turn? turnId
    guard (turn.phase = .running)
    match turn.runner.finish turn.cancelled prompt with
    | none => return s.setPhase turnId .thrown
    | some (runner, outcome) => return s.modifyTurn turnId ({ · with phase := .returned outcome, runner })
  | .unwind turnId => do
    let turn ← s.turn? turnId
    guard (turn.phase.isOver = true)
    return s.unwind turn
  | .cancel sessionId turnId => some (s.cancel sessionId turnId).2
  | .queueDecide call => some { s with decideQueue := s.decideQueue ++ [call] }
  | .decide =>
    match s.deciding, s.decideQueue with
    | none, c :: queue => some ({ s with decideQueue := queue }.decide c)
    | _, _ => none
  | .facadeReturns ok =>
    match s.deciding with
    | some (c, .facade continuation) => some (s.facadeReturns c continuation ok)
    | _ => none
  | .outcomeReady =>
    match s.deciding with
    | some (c, .outcome k) => if k.ref ∈ s.resolved then some (s.resume c k) else none
    | _ => none
  | .resumed prompt =>
    match s.deciding with
    | some (c, .prompt k previousEventCount) => some (s.resumed c k previousEventCount prompt)
    | _ => none

end Server

end NanFung.Runtime
