import NanFung.Brief.Confinement

/-!
# A turn of tool calls

`turn-runner.ts` and the budgets of `runtime.ts`: a tool call is checked before it reaches the facade,
and its result is entered in the ledger, charged, and read for what it says about refreshes. What the
facade answers, and when, is part of a call.
-/

namespace NanFung.Brief

/-! ## Budgets -/

structure TurnLimits where
  facadeCallsPerTurn : Nat
  statusPollsPerTurn : Nat
  finalizeCallsPerTurn : Nat
  itemsPerCall : Nat
  cumulativeRecords : Nat
  cumulativeCitations : Nat
  cumulativeModelToolBytes : Nat
  turnDeadlineMs : Nat
  renderedTokens : Nat
  deriving DecidableEq, Repr

def defaultTurnLimits : TurnLimits :=
  { facadeCallsPerTurn := 8
    statusPollsPerTurn := 3
    finalizeCallsPerTurn := 2
    itemsPerCall := 20
    cumulativeRecords := 40
    cumulativeCitations := 40
    cumulativeModelToolBytes := 128 * 1024
    turnDeadlineMs := 120000
    renderedTokens := 4096 }

structure TurnCounters where
  facadeCalls : Nat
  statusPolls : Nat
  finalizeCalls : Nat
  records : Nat
  citations : Nat
  modelToolBytes : Nat
  renderedTokens : Nat
  deriving DecidableEq, Repr

structure TurnContext where
  limits : TurnLimits
  deadline : Nat
  cancelled : Bool
  counters : TurnCounters
  ledger : Ledger
  deriving DecidableEq, Repr

inductive ToolErrorCode where
  | budgetExceeded | turnDeadlineExceeded | turnCancelled | finalizeRejected | typeError
  deriving DecidableEq, Repr

/-- The counters within their limits. -/
def TurnCounters.Within (counters : TurnCounters) (limits : TurnLimits) : Prop :=
  counters.records ≤ limits.cumulativeRecords ∧ counters.citations ≤ limits.cumulativeCitations ∧
    counters.modelToolBytes ≤ limits.cumulativeModelToolBytes ∧
    counters.renderedTokens ≤ limits.renderedTokens

instance (counters : TurnCounters) (limits : TurnLimits) : Decidable (counters.Within limits) :=
  inferInstanceAs (Decidable (_ ∧ _))

/-- The checks that every charge starts with. -/
def TurnContext.checkActive (turn : TurnContext) (items : Int) (now : Nat) : Except ToolErrorCode Unit := do
  require (turn.cancelled = false) .turnCancelled
  require (now < turn.deadline) .turnDeadlineExceeded
  require (items ≤ turn.limits.itemsPerCall) .budgetExceeded

/-- `beforeToolCall(toolName, { items })`. -/
def TurnContext.beforeToolCall (turn : TurnContext) (tool : ToolName) (items : Int) (now : Nat) :
    Except ToolErrorCode TurnContext := do
  let next := { turn.counters with
    facadeCalls := turn.counters.facadeCalls + 1
    statusPolls := turn.counters.statusPolls + if tool = .getRefreshStatus then 1 else 0
    finalizeCalls := turn.counters.finalizeCalls + if tool = .finalizeMarketBrief then 1 else 0 }
  turn.checkActive items now
  require (next.facadeCalls ≤ turn.limits.facadeCallsPerTurn) .budgetExceeded
  require (next.statusPolls ≤ turn.limits.statusPollsPerTurn) .budgetExceeded
  require (next.finalizeCalls ≤ turn.limits.finalizeCallsPerTurn) .budgetExceeded
  require (next.Within turn.limits) .budgetExceeded
  pure { turn with counters := next }

/-- `chargeAccumulators({ items, records, citations, modelToolBytes })`. -/
def TurnContext.chargeAccumulators (turn : TurnContext)
    (items records citations modelToolBytes now : Nat) : Except ToolErrorCode TurnContext := do
  let next := { turn.counters with
    records := turn.counters.records + records
    citations := turn.counters.citations + citations
    modelToolBytes := turn.counters.modelToolBytes + modelToolBytes }
  turn.checkActive items now
  require (next.Within turn.limits) .budgetExceeded
  pure { turn with counters := next }

/-! ## The runner -/

structure RunnerState where
  pollNotBefore : Dict String Nat
  pollIntervals : Dict String Nat
  populateLedger : Bool
  awaitingApproval : Bool
  requeryRequired : Bool
  artifact : Option Members
  deriving DecidableEq, Repr

structure TurnState where
  turn : TurnContext
  runner : RunnerState
  deriving DecidableEq, Repr

/-- A turn as `runTurn` starts it. -/
def newTurn (limits : TurnLimits) (populateLedger : Bool) (now : Nat) : TurnState where
  turn := ⟨limits, now + limits.turnDeadlineMs, false, ⟨0, 0, 0, 0, 0, 0, 0⟩, []⟩
  runner := ⟨[], [], populateLedger, false, false, none⟩

/-- `beforeTool(state, toolName, args)`: the code of the refusal. -/
def beforeTool (runner : RunnerState) (tool : ToolName) (args : Members) (now : Nat) :
    Option String :=
  if runner.artifact.isSome then some "BRIEF_FINALIZED"
  else if tool = .finalizeMarketBrief ∧ runner.requeryRequired then some "REQUERY_REQUIRED"
  else if tool ≠ .getRefreshStatus then none
  else
    match string? args "job_ref" with
    | some jobRef =>
      if now < (runner.pollNotBefore.get? jobRef).getD 0 then some "POLICY_DENIED" else none
    | none => none

def terminalJobStates : List String := ["succeeded", "empty", "failed", "dead_letter", "cancelled"]

/-- What makes a refresh status ask for a re-query: a terminal job that succeeded, or that changed
canonical data. -/
def RequiresRequery (data : Members) : Prop :=
  ∃ jobState ∈ string? data "job_state", jobState ∈ terminalJobStates ∧
    (Json.lookup "canonical_changed" data = some (.bool true) ∨ jobState = "succeeded")

instance (data : Members) : Decidable (RequiresRequery data) :=
  inferInstanceAs (Decidable (∃ jobState ∈ string? data "job_state", _))

def updateRefreshState (runner : RunnerState) (args : Members) (data : Option Members) (now : Nat) :
    RunnerState :=
  match data, string? args "job_ref" with
  | some data, some jobRef =>
    if (string? data "job_state").any (· ∈ terminalJobStates) then
      { runner with
        pollNotBefore := runner.pollNotBefore.filter fun e => e.1 ≠ jobRef
        pollIntervals := runner.pollIntervals.filter fun e => e.1 ≠ jobRef
        requeryRequired := runner.requeryRequired || decide (RequiresRequery data) }
    else
      match runner.pollIntervals.get? jobRef with
      | some interval =>
        { runner with pollNotBefore := runner.pollNotBefore.set jobRef (now + interval) }
      | none => runner
  | _, _ => runner

/-- What a request for a refresh leaves: the approval it waits for, and when to poll its job. -/
def updateRequestState (runner : RunnerState) (data : Option Members) (now : Nat) : RunnerState :=
  match data with
  | none => runner
  | some data =>
    let runner := { runner with
      awaitingApproval := decide
        (Json.lookup "disposition" data = some (.str "approval_required")) }
    match string? data "job_ref", Json.lookup "poll_after_seconds" data with
    | some jobRef, some (.int seconds) =>
      if 0 < seconds then
        let interval := seconds.toNat * 1000
        { runner with
          pollIntervals := runner.pollIntervals.set jobRef interval
          pollNotBefore := runner.pollNotBefore.set jobRef (now + interval) }
      else runner
    | _, _ => runner

/-- The end of `afterTool`, once the result is charged. -/
def afterCharge (runner : RunnerState) (tool : ToolName) (args : Members) (result : ToolResult)
    (now : Nat) : RunnerState :=
  match tool with
  | .requestDataRefresh => updateRequestState runner result.data now
  | .getRefreshStatus => updateRefreshState runner args result.data now
  | .queryMarketData => { runner with requeryRequired := false }
  | .finalizeMarketBrief => { runner with artifact := result.data }
  | _ => runner

def resultRecords (result : ToolResult) : List Members :=
  recordArray (result.data.bind (Json.lookup "records"))

/-- What a result adds to the ledger. -/
def populate (populateLedger : Bool) (ledger : Ledger) (tool : ToolName) (result : ToolResult) :
    Ledger :=
  match populateLedger, tool, result.data with
  | true, .queryMarketData, some data => addQueryLedger ledger data (resultRecords result)
  | true, .getCitationMetadata, some data => enrichQueryLedger ledger data
  | _, _, _ => ledger

/-- `afterTool(state, toolName, args, result, turn)`: an exception keeps the ledger's new entries. -/
def afterTool (s : TurnState) (tool : ToolName) (args : Members) (result : ToolResult) (now : Nat) :
    TurnState × Option ToolErrorCode :=
  if result.status = .error then (s, none)
  else
    let records := resultRecords result
    let citations := (records.map fun r => (stringArray (Json.lookup "citation_refs" r)).length).sum
    let items :=
      if tool = .getCitationMetadata then
        (stringArray (result.data.bind (Json.lookup "citation_refs"))).length
      else records.length
    let turn := { s.turn with
      ledger := populate s.runner.populateLedger s.turn.ledger tool result }
    match turn.chargeAccumulators items records.length citations (modelVisibleBytes result) now with
    | .error e => ({ s with turn := turn }, some e)
    | .ok turn => (⟨turn, afterCharge s.runner tool args result now⟩, none)

/-! ## Calls -/

/-- A tool call of the model: its resolved arguments, what the facade answers, when the call and the
answer come, and whether the turn was cancelled before the one and the other. -/
structure ToolCall where
  tool : ToolName
  args : Members
  result : ToolResult
  calledAt : Nat
  answeredAt : Nat
  cancelledBefore : Bool
  cancelledSince : Bool
  deriving DecidableEq, Repr

inductive Outcome where
  | blocked (code : String)
  | failed (code : ToolErrorCode)
  | answered (result : ToolResult)
  deriving DecidableEq, Repr

def argumentItems (args : Members) : Int :=
  match Json.lookup "citation_refs" args, Json.lookup "limit" args with
  | some (.arr refs), _ => refs.length
  | _, some (.int limit) => limit
  | _, _ => 0

/-- The draft that the application hands to `finalizeBrief`. -/
def draftOf (args : Members) : Json :=
  .obj (Json.merge [("schema_version", .str "market_brief_draft.v1")] args)

/-- The answer to a call that passed its checks. -/
def answer (engine : TextEngine) (ledger : Ledger) (c : ToolCall) :
    Except ToolErrorCode ToolResult :=
  match c.tool with
  | .finalizeMarketBrief =>
    match finalizeBrief engine (draftOf c.args) ledger with
    | .ok brief => .ok ⟨.ok, some brief.members⟩
    | .error (.rejected _ _) => .error .finalizeRejected
    | .error .typeError => .error .typeError
  | _ => .ok c.result

/-- `requestCancel()`, if it is called. -/
def TurnContext.cancelIf (turn : TurnContext) (cancelled : Bool) : TurnContext :=
  { turn with cancelled := turn.cancelled || cancelled }

/-- A call that `beforeTool` let through. -/
def runTool (engine : TextEngine) (s : TurnState) (c : ToolCall) : TurnState × Outcome :=
  let items := if c.tool = .finalizeMarketBrief then 0 else argumentItems c.args
  match s.turn.beforeToolCall c.tool items c.calledAt with
  | .error e => (s, .failed e)
  | .ok turn =>
    let turn := turn.cancelIf c.cancelledSince
    match answer engine turn.ledger c with
    | .error e => ({ s with turn := turn }, .failed e)
    | .ok result =>
      let p := afterTool { s with turn := turn } c.tool c.args result c.answeredAt
      (p.1, match p.2 with
        | some e => .failed e
        | none => .answered result)

/-- `execute` of a session tool. -/
def callTool (engine : TextEngine) (s : TurnState) (c : ToolCall) : TurnState × Outcome :=
  let s := { s with turn := s.turn.cancelIf c.cancelledBefore }
  match beforeTool s.runner c.tool c.args c.calledAt with
  | some code => (s, .blocked code)
  | none => runTool engine s c

/-- A run of calls. -/
def runCalls (engine : TextEngine) (s : TurnState) (calls : List ToolCall) : TurnState :=
  calls.foldl (fun s c => (callTool engine s c).1) s

/-! ## What a call can do -/

variable {engine : TextEngine} {s t : TurnState} {c : ToolCall} {outcome : Outcome}

/-- The effects of a call on the ledger and the runner. -/
inductive Called (engine : TextEngine) (s : TurnState) (c : ToolCall) (t : TurnState) :
    Outcome → Prop
  /-- The call was refused, or it failed in the facade or in the finaliser. -/
  | idle {outcome : Outcome} (hledger : t.turn.ledger = s.turn.ledger)
    (hrunner : t.runner = s.runner)
    (herror : ∀ result, outcome = .answered result →
      result.status = .error ∧ answer engine s.turn.ledger c = .ok result) :
    Called engine s c t outcome
  /-- The result was entered in the ledger, but its charge failed. -/
  | uncharged {result : ToolResult} {e : ToolErrorCode}
    (hallowed : beforeTool s.runner c.tool c.args c.calledAt = none)
    (hanswer : answer engine s.turn.ledger c = .ok result)
    (hledger : t.turn.ledger = populate s.runner.populateLedger s.turn.ledger c.tool result)
    (hrunner : t.runner = s.runner) : Called engine s c t (.failed e)
  | charged {result : ToolResult}
    (hallowed : beforeTool s.runner c.tool c.args c.calledAt = none)
    (hanswer : answer engine s.turn.ledger c = .ok result) (hstatus : result.status ≠ .error)
    (hledger : t.turn.ledger = populate s.runner.populateLedger s.turn.ledger c.tool result)
    (hrunner : t.runner = afterCharge s.runner c.tool c.args result c.answeredAt) :
    Called engine s c t (.answered result)

theorem beforeToolCall_ledger {turn turn' : TurnContext} {tool : ToolName} {items : Int} {now : Nat}
    (h : turn.beforeToolCall tool items now = .ok turn') : turn'.ledger = turn.ledger := by
  simp only [TurnContext.beforeToolCall, bind_ok, pure_ok] at h
  obtain ⟨-, -, -, -, -, -, -, -, -, -, rfl⟩ := h
  rfl

theorem chargeAccumulators_ledger {turn turn' : TurnContext}
    {items records citations modelToolBytes now : Nat}
    (h : turn.chargeAccumulators items records citations modelToolBytes now = .ok turn') :
    turn'.ledger = turn.ledger := by
  simp only [TurnContext.chargeAccumulators, bind_ok, pure_ok] at h
  obtain ⟨-, -, -, -, rfl⟩ := h
  rfl

/-- An error result leaves the turn alone; any other is entered in the ledger, then charged. -/
theorem afterTool_cases (s : TurnState) (tool : ToolName) (args : Members) (result : ToolResult)
    (now : Nat) :
    (result.status = .error ∧ afterTool s tool args result now = (s, none)) ∨
    ∃ t : TurnState, ∃ e? : Option ToolErrorCode, afterTool s tool args result now = (t, e?) ∧
      result.status ≠ .error ∧
      t.turn.ledger = populate s.runner.populateLedger s.turn.ledger tool result ∧
      t.runner = if e?.isSome then s.runner else afterCharge s.runner tool args result now := by
  unfold afterTool
  by_cases hstatus : result.status = .error
  · exact .inl ⟨hstatus, if_pos hstatus⟩
  · refine .inr ?_
    rw [if_neg hstatus]
    dsimp only
    split
    · exact ⟨_, _, rfl, hstatus, rfl, rfl⟩
    · next charged hcharged =>
      exact ⟨_, _, rfl, hstatus, chargeAccumulators_ledger hcharged, rfl⟩

theorem runTool_called (hallowed : beforeTool s.runner c.tool c.args c.calledAt = none) :
    Called engine s c (runTool engine s c).1 (runTool engine s c).2 := by
  unfold runTool
  dsimp only
  split
  · exact .idle rfl rfl fun _ h => nomatch h
  · next turn hturn =>
    have hbefore : (turn.cancelIf c.cancelledSince).ledger = s.turn.ledger := by
      show turn.ledger = s.turn.ledger
      exact beforeToolCall_ledger hturn
    split
    · exact .idle hbefore rfl fun _ h => nomatch h
    · next result hanswer =>
      rw [hbefore] at hanswer
      obtain ⟨hstatus, hp⟩ | ⟨t, e?, hp, hstatus, hledger, hrunner⟩ :=
        afterTool_cases { s with turn := turn.cancelIf c.cancelledSince } c.tool c.args result
          c.answeredAt
      · rw [hp]
        refine .idle hbefore rfl fun r hr => ?_
        cases hr
        exact ⟨hstatus, hanswer⟩
      · rw [hp]
        rw [hbefore] at hledger
        cases e? with
        | some e => exact .uncharged hallowed hanswer hledger hrunner
        | none => exact .charged hallowed hanswer hstatus hledger hrunner

theorem callTool_called (engine : TextEngine) (s : TurnState) (c : ToolCall) :
    Called engine s c (callTool engine s c).1 (callTool engine s c).2 := by
  unfold callTool
  dsimp only
  split
  · exact .idle rfl rfl fun _ h => nomatch h
  · next hallowed =>
    have h := @runTool_called engine { s with turn := s.turn.cancelIf c.cancelledBefore } c hallowed
    generalize runTool engine { s with turn := s.turn.cancelIf c.cancelledBefore } c = p at h ⊢
    obtain ⟨t, outcome⟩ := p
    cases h with
    | idle hledger hrunner herror => exact .idle hledger hrunner herror
    | uncharged hallowed hanswer hledger hrunner => exact .uncharged hallowed hanswer hledger hrunner
    | charged hallowed hanswer hstatus hledger hrunner =>
      exact .charged hallowed hanswer hstatus hledger hrunner

end NanFung.Brief
