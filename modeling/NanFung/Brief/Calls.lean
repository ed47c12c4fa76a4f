import NanFung.Brief.RefreshIds
import NanFung.Brief.Turn

/-!
# Failed tool calls

`execute` of a session tool with the registration of refresh requests, which stands between the
checks before a call and the facade. A call that ends in an error should leave the turn as it was:
the model must not profit from data that it was refused.
-/

namespace NanFung.Brief

/-! ## A whole call -/

/-- A tool call with the identifier that the model's runtime gave it, and what the identifier factory
of the turn would return for it. -/
structure SessionCall extends ToolCall where
  toolCallId : String
  fresh : String
  deriving Repr

/-- A turn with the refresh requests it has registered. -/
structure SessionTurn where
  state : TurnState
  refreshIds : Dict String RefreshEntry
  deriving Repr

/-- How a call ends. -/
inductive Ending where
  | refreshArgsChanged
  | ended (outcome : Outcome)
  deriving DecidableEq, Repr

/-- `stripArguments(args, allowed)` for `request_data_refresh`. -/
def refreshArguments (args : Members) : Json :=
  .obj (args.filter fun m =>
    m.1 ∈ ["capability_id", "datasource_id", "request_profile", "bounded_scope", "intent"])

/-- The refresh requests after the registration of a call. -/
def registered (c : Collation) (sha256 : List Char → String) (turnId : String) (s : SessionTurn)
    (call : SessionCall) : Except RegisterError (Dict String RefreshEntry) :=
  if call.tool = .requestDataRefresh then
    (registerRefreshRequest c sha256 s.refreshIds turnId call.toolCallId (refreshArguments call.args)
      call.fresh).map Prod.snd
  else .ok s.refreshIds

def callItems (c : ToolCall) : Int :=
  if c.tool = .finalizeMarketBrief then 0 else argumentItems c.args

/-- A call that was counted: the answer of the facade or of the finaliser, and what `afterTool`
makes of it. -/
def settle (engine : TextEngine) (t : TurnState) (counted : TurnContext) (c : ToolCall) :
    TurnState × Outcome :=
  let turn := counted.cancelIf c.cancelledSince
  match answer engine turn.ledger c with
  | .error e => ({ t with turn := turn }, .failed e)
  | .ok result =>
    let p := afterTool { t with turn := turn } c.tool c.args result c.answeredAt
    (p.1, match p.2 with
      | some e => .failed e
      | none => .answered result)

/-- `execute` of a session tool, whose `catch` turns what is thrown into an error result. -/
def execute (engine : TextEngine) (c : Collation) (sha256 : List Char → String) (turnId : String)
    (s : SessionTurn) (call : SessionCall) : SessionTurn × Ending :=
  let t := { s.state with turn := s.state.turn.cancelIf call.cancelledBefore }
  match beforeTool t.runner call.tool call.args call.calledAt with
  | some code => ({ s with state := t }, .ended (.blocked code))
  | none =>
    match t.turn.beforeToolCall call.tool (callItems call.toToolCall) call.calledAt with
    | .error e => ({ s with state := t }, .ended (.failed e))
    | .ok counted =>
      match registered c sha256 turnId s call with
      | .error .refreshArgsChanged =>
        ({ s with state := { t with turn := counted } }, .refreshArgsChanged)
      | .ok refreshIds =>
        let p := settle engine t counted call.toToolCall
        (⟨p.1, refreshIds⟩, .ended p.2)

def executeAll (engine : TextEngine) (c : Collation) (sha256 : List Char → String) (turnId : String)
    (s : SessionTurn) (calls : List SessionCall) : SessionTurn :=
  calls.foldl (fun s call => (execute engine c sha256 turnId s call).1) s

variable {engine : TextEngine} {c : Collation} {sha256 : List Char → String} {turnId : String}
  {s : SessionTurn} {call : SessionCall}

/-- Where the registration does not fail, the turn is the one without registrations. -/
theorem execute_callTool {refreshIds : Dict String RefreshEntry}
    (h : registered c sha256 turnId s call = .ok refreshIds) :
    (execute engine c sha256 turnId s call).1.state =
        (callTool engine s.state call.toToolCall).1 ∧
      (execute engine c sha256 turnId s call).2 =
        .ended (callTool engine s.state call.toToolCall).2 := by
  unfold execute callTool
  dsimp only
  cases beforeTool s.state.runner call.tool call.args call.calledAt with
  | some code => exact ⟨rfl, rfl⟩
  | none =>
    dsimp only [runTool, callItems]
    cases (s.state.turn.cancelIf call.cancelledBefore).beforeToolCall call.tool
      (if call.tool = .finalizeMarketBrief then 0 else argumentItems call.args) call.calledAt with
    | error e => exact ⟨rfl, rfl⟩
    | ok counted =>
      dsimp only
      rw [h]
      exact ⟨rfl, rfl⟩

/-! ## What a failed call may leave -/

/-- The call shows the model an error. -/
def Ending.IsError : Ending → Prop
  | .ended (.answered result) => result.status = .error
  | _ => True

/-- The turn is as it was, but for the count of its calls and for a cancellation. -/
structure Kept (s t : TurnState) : Prop where
  ledger : t.turn.ledger = s.turn.ledger
  records : t.turn.counters.records = s.turn.counters.records
  citations : t.turn.counters.citations = s.turn.counters.citations
  modelToolBytes : t.turn.counters.modelToolBytes = s.turn.counters.modelToolBytes
  runner : t.runner = s.runner

def resultCitations (result : ToolResult) : Nat :=
  ((resultRecords result).map fun r => (stringArray (Json.lookup "citation_refs" r)).length).sum

def resultItems (tool : ToolName) (result : ToolResult) : Nat :=
  if tool = .getCitationMetadata then
    (stringArray (result.data.bind (Json.lookup "citation_refs"))).length
  else (resultRecords result).length

/-- The counters with a result charged to them. -/
def chargedCounters (counters : TurnCounters) (result : ToolResult) : TurnCounters :=
  { counters with
    records := counters.records + (resultRecords result).length
    citations := counters.citations + resultCitations result
    modelToolBytes := counters.modelToolBytes + modelVisibleBytes result }

/-- The checks before the call let it through. -/
structure Passes (s : TurnState) (c : ToolCall) : Prop where
  allowed : beforeTool s.runner c.tool c.args c.calledAt = none
  counted : ∃ turn, (s.turn.cancelIf c.cancelledBefore).beforeToolCall c.tool (callItems c)
    c.calledAt = .ok turn

/-- What makes the charge of an answer fail, in the state before the call. -/
def Refused (s : TurnState) (k : ToolCall) : Prop :=
  s.turn.cancelled = true ∨ k.cancelledSince = true ∨ s.turn.deadline ≤ k.answeredAt ∨
    s.turn.limits.itemsPerCall < resultItems k.tool k.result ∨
    ¬ (chargedCounters s.turn.counters k.result).Within s.turn.limits

/-- The facade answers a call that passed with new data for the ledger, which the budgets, the deadline
or a cancellation then refuse. -/
structure Overcharged (s : TurnState) (k : ToolCall) : Prop extends Passes s k where
  answered : k.result.status ≠ .error
  adds : populate s.runner.populateLedger s.turn.ledger k.tool k.result ≠ s.turn.ledger
  refused : Refused s k

variable {t : TurnState} {k : ToolCall}

/-! ## The checks and the charge -/

theorem beforeToolCall_kept {turn turn' : TurnContext} {tool : ToolName} {items : Int} {now : Nat}
    (h : turn.beforeToolCall tool items now = .ok turn') :
    turn'.ledger = turn.ledger ∧ turn'.limits = turn.limits ∧ turn'.deadline = turn.deadline ∧
      turn'.cancelled = turn.cancelled ∧ turn'.counters.records = turn.counters.records ∧
      turn'.counters.citations = turn.counters.citations ∧
      turn'.counters.modelToolBytes = turn.counters.modelToolBytes ∧
      turn'.counters.renderedTokens = turn.counters.renderedTokens := by
  simp only [TurnContext.beforeToolCall, bind_ok, pure_ok] at h
  obtain ⟨-, -, -, -, -, -, -, -, -, -, rfl⟩ := h
  exact ⟨rfl, rfl, rfl, rfl, rfl, rfl, rfl, rfl⟩

/-- A charge goes through when the turn is active and the counters stay within the budgets. -/
theorem chargeAccumulators_isOk {turn : TurnContext} {items records citations bytes now : Nat} :
    (∃ turn', turn.chargeAccumulators items records citations bytes now = .ok turn') ↔
      turn.cancelled = false ∧ now < turn.deadline ∧ items ≤ turn.limits.itemsPerCall ∧
        TurnCounters.Within { turn.counters with
          records := turn.counters.records + records
          citations := turn.counters.citations + citations
          modelToolBytes := turn.counters.modelToolBytes + bytes } turn.limits := by
  simp only [TurnContext.chargeAccumulators, TurnContext.checkActive, bind_ok, pure_ok, require_ok]
  constructor
  · rintro ⟨_, _, ⟨_, hcancelled, _, hdeadline, hitems⟩, _, hwithin, _⟩
    exact ⟨hcancelled, hdeadline, Int.ofNat_le.mp hitems, hwithin⟩
  · rintro ⟨hcancelled, hdeadline, hitems, hwithin⟩
    exact ⟨_, (), ⟨(), hcancelled, (), hdeadline, Int.ofNat_le.mpr hitems⟩, (), hwithin, rfl⟩

/-! ## A counted call -/

/-- The turn with the ledger entries of a result. -/
def entered (s : TurnState) (tool : ToolName) (result : ToolResult) : TurnContext :=
  { s.turn with ledger := populate s.runner.populateLedger s.turn.ledger tool result }

/-- The charge of a result. -/
def charge (s : TurnState) (tool : ToolName) (result : ToolResult) (now : Nat) :
    Except ToolErrorCode TurnContext :=
  (entered s tool result).chargeAccumulators (resultItems tool result) (resultRecords result).length
    (resultCitations result) (modelVisibleBytes result) now

theorem afterTool_eq (s : TurnState) (tool : ToolName) (args : Members) (result : ToolResult)
    (now : Nat) : afterTool s tool args result now =
      if result.status = .error then (s, none)
      else match charge s tool result now with
        | .error e => ({ s with turn := entered s tool result }, some e)
        | .ok turn => (⟨turn, afterCharge s.runner tool args result now⟩, none) := rfl

variable {counted : TurnContext} {items : Int}

/-- The state in which the answer to a counted call is entered. -/
def answeredState (t : TurnState) (counted : TurnContext) (k : ToolCall) : TurnState :=
  { t with turn := counted.cancelIf k.cancelledSince }

/-- An answer without an error is entered, then charged. -/
theorem settle_of_answer {result : ToolResult} (hanswer : answer engine counted.ledger k = .ok result)
    (hstatus : result.status ≠ .error) :
    settle engine t counted k =
      match charge (answeredState t counted k) k.tool result k.answeredAt with
      | .error e => ({ answeredState t counted k with
          turn := entered (answeredState t counted k) k.tool result }, .failed e)
      | .ok turn =>
        (⟨turn, afterCharge t.runner k.tool k.args result k.answeredAt⟩, .answered result) := by
  have hledger : answer engine (counted.cancelIf k.cancelledSince).ledger k = .ok result := hanswer
  unfold settle
  dsimp only
  rw [hledger]
  dsimp only
  rw [afterTool_eq, if_neg hstatus, answeredState]
  cases charge { t with turn := counted.cancelIf k.cancelledSince } k.tool result k.answeredAt with
  | error e => rfl
  | ok turn => rfl

/-- Any other end leaves the answer out of the turn. -/
theorem settle_idle (h : ∀ result, answer engine counted.ledger k = .ok result →
    result.status = .error) : (settle engine t counted k).1 = answeredState t counted k := by
  unfold settle
  dsimp only
  cases hanswer : answer engine (counted.cancelIf k.cancelledSince).ledger k with
  | error e => rfl
  | ok result =>
    dsimp only
    rw [afterTool_eq, if_pos (h result hanswer)]
    rfl

theorem kept_answeredState (h : t.turn.beforeToolCall k.tool items k.calledAt = .ok counted) :
    Kept t (answeredState t counted k) := by
  obtain ⟨hledger, -, -, -, hrecords, hcitations, hbytes, -⟩ := beforeToolCall_kept h
  exact ⟨hledger, hrecords, hcitations, hbytes, rfl⟩

/-- The charge of an answer that is not refused goes through. -/
theorem charge_isOk_iff (h : t.turn.beforeToolCall k.tool items k.calledAt = .ok counted) :
    (∃ turn, charge (answeredState t counted k) k.tool k.result k.answeredAt = .ok turn) ↔
      ¬ Refused t k := by
  obtain ⟨-, hlimits, hdeadline, hcancelled, hrecords, hcitations, hbytes, htokens⟩ :=
    beforeToolCall_kept h
  have hwithin : (chargedCounters counted.counters k.result).Within counted.limits ↔
      (chargedCounters t.turn.counters k.result).Within t.turn.limits := by
    simp only [TurnCounters.Within, chargedCounters, hlimits, hrecords, hcitations, hbytes, htokens]
  have hactive : (counted.cancelIf k.cancelledSince).cancelled = false ↔
      ¬ (t.turn.cancelled = true ∨ k.cancelledSince = true) := by
    show (counted.cancelled || k.cancelledSince) = false ↔ _
    rw [hcancelled, Bool.or_eq_false_iff, not_or, Bool.not_eq_true, Bool.not_eq_true]
  rw [charge, chargeAccumulators_isOk]
  show (counted.cancelIf k.cancelledSince).cancelled = false ∧ k.answeredAt < counted.deadline ∧
    resultItems k.tool k.result ≤ counted.limits.itemsPerCall ∧
    (chargedCounters counted.counters k.result).Within counted.limits ↔ _
  rw [hwithin, hactive, hdeadline, hlimits, Refused]
  simp only [not_or, not_le, not_lt, not_not, and_assoc]

/-- Only the answers of the facade to queries and to citation lookups enter the ledger. -/
theorem answer_of_adds {ledger : Ledger} {result : ToolResult} {populateLedger : Bool}
    {l : Ledger} (hadds : populate populateLedger l k.tool result ≠ l) :
    k.tool ≠ .finalizeMarketBrief ∧ k.tool ≠ .requestDataRefresh ∧
      answer engine ledger k = .ok k.result := by
  cases htool : k.tool with
  | queryMarketData => exact ⟨nofun, nofun, by rw [answer, htool]⟩
  | getCitationMetadata => exact ⟨nofun, nofun, by rw [answer, htool]⟩
  | describeMarketData => exact absurd (by rw [htool]; cases populateLedger <;> rfl) hadds
  | requestDataRefresh => exact absurd (by rw [htool]; cases populateLedger <;> rfl) hadds
  | getRefreshStatus => exact absurd (by rw [htool]; cases populateLedger <;> rfl) hadds
  | finalizeMarketBrief => exact absurd (by rw [htool]; cases populateLedger <;> rfl) hadds

/-- A counted call that fails leaves the turn as it was, unless its answer has entries for the ledger
and is refused. -/
theorem settle_kept_iff (engine : TextEngine)
    (h : t.turn.beforeToolCall k.tool items k.calledAt = .ok counted) :
    ((Ending.ended (settle engine t counted k).2).IsError → Kept t (settle engine t counted k).1) ↔
      ¬ (k.result.status ≠ .error ∧
        populate t.runner.populateLedger t.turn.ledger k.tool k.result ≠ t.turn.ledger ∧
        Refused t k) := by
  have hledger : counted.ledger = t.turn.ledger := (beforeToolCall_kept h).1
  have hbefore := kept_answeredState h
  constructor
  · intro hkept ⟨hstatus, hadds, hrefused⟩
    have hanswer : answer engine t.turn.ledger k = .ok k.result := (answer_of_adds hadds).2.2
    rw [settle_of_answer (hledger ▸ hanswer) hstatus] at hkept
    cases hcharge : charge (answeredState t counted k) k.tool k.result k.answeredAt with
    | ok turn => exact (charge_isOk_iff h).mp ⟨turn, hcharge⟩ hrefused
    | error e =>
      rw [hcharge] at hkept
      apply hadds
      have hentered : populate t.runner.populateLedger counted.ledger k.tool k.result =
        t.turn.ledger := (hkept trivial).ledger
      rwa [hledger] at hentered
  · intro hnot herror
    by_cases hidle : ∀ result, answer engine counted.ledger k = .ok result → result.status = .error
    · rw [settle_idle hidle]
      exact hbefore
    · push Not at hidle
      obtain ⟨result, hanswer, hstatus⟩ := hidle
      rw [settle_of_answer hanswer hstatus] at herror ⊢
      cases hcharge : charge (answeredState t counted k) k.tool result k.answeredAt with
      | ok turn =>
        rw [hcharge] at herror
        exact absurd herror hstatus
      | error e =>
        refine ⟨?_, hbefore.records, hbefore.citations, hbefore.modelToolBytes, rfl⟩
        show populate t.runner.populateLedger counted.ledger k.tool result = t.turn.ledger
        rw [hledger] at hanswer ⊢
        -- what is entered is the answer of the facade, whose charge would have gone through
        by_contra hadds
        have hfacade : answer engine t.turn.ledger k = .ok k.result :=
          (answer_of_adds hadds).2.2
        obtain rfl : result = k.result := Except.ok.inj (hanswer.symm.trans hfacade)
        refine hnot ⟨hstatus, hadds, ?_⟩
        by_contra hpaid
        obtain ⟨turn, hturn⟩ := (charge_isOk_iff h).mpr hpaid
        exact nomatch hcharge.symm.trans hturn

/-- A cancelled turn lets no call through. -/
theorem not_cancelled_of_passes (h : Passes t k) :
    k.cancelledBefore = false ∧ t.turn.cancelIf k.cancelledBefore = t.turn := by
  obtain ⟨turn, hturn⟩ := h.counted
  simp only [TurnContext.beforeToolCall, TurnContext.checkActive, bind_ok, require_ok] at hturn
  have hcancelled : (t.turn.cancelled || k.cancelledBefore) = false := hturn.choose_spec.1.choose_spec.1
  obtain ⟨hturn, hcall⟩ := Bool.or_eq_false_iff.mp hcancelled
  refine ⟨hcall, ?_⟩
  rw [TurnContext.cancelIf, hcall, Bool.or_false]

/-- A call that fails leaves the turn as it was exactly when it is not overcharged. -/
theorem execute_kept_iff (engine : TextEngine) (c : Collation) (sha256 : List Char → String)
    (turnId : String) (s : SessionTurn) (call : SessionCall) :
    ((execute engine c sha256 turnId s call).2.IsError →
        Kept s.state (execute engine c sha256 turnId s call).1.state) ↔
      ¬ Overcharged s.state call.toToolCall := by
  have hsame : ∀ turn : TurnContext, ∀ runner, Kept ⟨turn, runner⟩
      ⟨turn.cancelIf call.cancelledBefore, runner⟩ := fun _ _ => ⟨rfl, rfl, rfl, rfl, rfl⟩
  unfold execute
  dsimp only
  cases hallowed : beforeTool s.state.runner call.tool call.args call.calledAt with
  | some code =>
    refine iff_of_true (fun _ => hsame _ _) fun h => ?_
    exact nomatch hallowed.symm.trans h.allowed
  | none =>
    dsimp only
    cases hcounted : (s.state.turn.cancelIf call.cancelledBefore).beforeToolCall call.tool
      (callItems call.toToolCall) call.calledAt with
    | error e =>
      refine iff_of_true (fun _ => hsame _ _) fun h => ?_
      obtain ⟨turn, hturn⟩ := h.counted
      exact nomatch hcounted.symm.trans hturn
    | ok counted =>
      have hpasses : Passes s.state call.toToolCall := ⟨hallowed, counted, hcounted⟩
      rw [(not_cancelled_of_passes hpasses).2] at hcounted ⊢
      dsimp only
      cases hregistered : registered c sha256 turnId s call with
      | error e =>
        cases e
        have hkept := kept_answeredState (k := call.toToolCall) hcounted
        refine iff_of_true (fun _ => ⟨hkept.ledger, hkept.records, hkept.citations,
          hkept.modelToolBytes, rfl⟩) fun h => ?_
        have htool : call.tool ≠ .requestDataRefresh := by
          obtain ⟨-, htool, -⟩ : _ ∧ _ ∧ answer engine [] call.toToolCall = _ := answer_of_adds h.adds
          exact htool
        rw [registered, if_neg htool] at hregistered
        exact nomatch hregistered
      | ok refreshIds =>
        refine (settle_kept_iff engine hcounted).trans (not_congr ?_)
        exact ⟨fun ⟨hstatus, hadds, hrefused⟩ => ⟨hpasses, hstatus, hadds, hrefused⟩,
          fun h => ⟨h.answered, h.adds, h.refused⟩⟩

/-! ## Runs -/

/-- Every counter is within its limit. -/
structure TurnCounters.AllWithin (counters : TurnCounters) (limits : TurnLimits) : Prop where
  facadeCalls : counters.facadeCalls ≤ limits.facadeCallsPerTurn
  statusPolls : counters.statusPolls ≤ limits.statusPollsPerTurn
  finalizeCalls : counters.finalizeCalls ≤ limits.finalizeCallsPerTurn
  accumulators : counters.Within limits

instance (s : TurnState) (k : ToolCall) : Decidable (Passes s k) :=
  decidable_of_iff (beforeTool s.runner k.tool k.args k.calledAt = none ∧
      ((s.turn.cancelIf k.cancelledBefore).beforeToolCall k.tool (callItems k)
        k.calledAt).toOption.isSome = true) <| by
    constructor
    · intro ⟨hallowed, hcounted⟩
      refine ⟨hallowed, ?_⟩
      cases h : (s.turn.cancelIf k.cancelledBefore).beforeToolCall k.tool (callItems k) k.calledAt with
      | error e =>
        rw [h] at hcounted
        exact nomatch hcounted
      | ok turn => exact ⟨turn, rfl⟩
    · intro ⟨hallowed, turn, hcounted⟩
      exact ⟨hallowed, by rw [hcounted]; rfl⟩

/-- How many calls of a run pass the checks before a call. -/
def passedCalls (engine : TextEngine) (c : Collation) (sha256 : List Char → String) (turnId : String) :
    SessionTurn → List SessionCall → Nat
  | _, [] => 0
  | s, call :: calls =>
    (if Passes s.state call.toToolCall then 1 else 0) +
      passedCalls engine c sha256 turnId (execute engine c sha256 turnId s call).1 calls

theorem beforeToolCall_counted {turn turn' : TurnContext} {tool : ToolName} {now : Nat}
    (h : turn.beforeToolCall tool items now = .ok turn') :
    turn'.limits = turn.limits ∧ turn'.counters.AllWithin turn.limits ∧
      turn'.counters.facadeCalls = turn.counters.facadeCalls + 1 := by
  simp only [TurnContext.beforeToolCall, bind_ok, pure_ok, require_ok] at h
  obtain ⟨-, -, -, hfacade, -, hpolls, -, hfinalize, -, hwithin, rfl⟩ := h
  exact ⟨rfl, ⟨hfacade, hpolls, hfinalize, hwithin⟩, rfl⟩

theorem chargeAccumulators_counted {turn turn' : TurnContext} {items records citations bytes now : Nat}
    (h : turn.chargeAccumulators items records citations bytes now = .ok turn') :
    turn'.limits = turn.limits ∧ turn'.counters.facadeCalls = turn.counters.facadeCalls ∧
      (turn.counters.AllWithin turn.limits → turn'.counters.AllWithin turn.limits) := by
  simp only [TurnContext.chargeAccumulators, bind_ok, pure_ok, require_ok] at h
  obtain ⟨-, -, -, hwithin, rfl⟩ := h
  exact ⟨rfl, rfl, fun hall => ⟨hall.facadeCalls, hall.statusPolls, hall.finalizeCalls, hwithin⟩⟩

/-- The answer to a call changes no count of calls. -/
theorem settle_counted (engine : TextEngine) (t : TurnState) (counted : TurnContext) (k : ToolCall) :
    (settle engine t counted k).1.turn.limits = counted.limits ∧
      (settle engine t counted k).1.turn.counters.facadeCalls = counted.counters.facadeCalls ∧
      (counted.counters.AllWithin counted.limits →
        (settle engine t counted k).1.turn.counters.AllWithin counted.limits) := by
  by_cases hidle : ∀ result, answer engine counted.ledger k = .ok result → result.status = .error
  · rw [settle_idle hidle]
    exact ⟨rfl, rfl, id⟩
  · push Not at hidle
    obtain ⟨result, hanswer, hstatus⟩ := hidle
    rw [settle_of_answer hanswer hstatus]
    cases hcharge : charge (answeredState t counted k) k.tool result k.answeredAt with
    | error e => exact ⟨rfl, rfl, id⟩
    | ok turn =>
      obtain ⟨hlimits, hcalls, hwithin⟩ := chargeAccumulators_counted hcharge
      exact ⟨hlimits, hcalls, hwithin⟩

/-- What a call does to the counters. -/
theorem execute_counted (engine : TextEngine) (c : Collation) (sha256 : List Char → String)
    (turnId : String) (s : SessionTurn) (call : SessionCall) :
    (execute engine c sha256 turnId s call).1.state.turn.limits = s.state.turn.limits ∧
      (execute engine c sha256 turnId s call).1.state.turn.counters.facadeCalls =
        s.state.turn.counters.facadeCalls + (if Passes s.state call.toToolCall then 1 else 0) ∧
      (s.state.turn.counters.AllWithin s.state.turn.limits →
        (execute engine c sha256 turnId s call).1.state.turn.counters.AllWithin
          s.state.turn.limits) := by
  unfold execute
  dsimp only
  cases hallowed : beforeTool s.state.runner call.tool call.args call.calledAt with
  | some code =>
    have hnot : ¬ Passes s.state call.toToolCall := fun h => nomatch hallowed.symm.trans h.allowed
    rw [if_neg hnot]
    exact ⟨rfl, rfl, id⟩
  | none =>
    dsimp only
    cases hcounted : (s.state.turn.cancelIf call.cancelledBefore).beforeToolCall call.tool
      (callItems call.toToolCall) call.calledAt with
    | error e =>
      have hnot : ¬ Passes s.state call.toToolCall := fun h => by
        obtain ⟨turn, hturn⟩ := h.counted
        exact nomatch hcounted.symm.trans hturn
      rw [if_neg hnot]
      exact ⟨rfl, rfl, id⟩
    | ok counted =>
      rw [if_pos ⟨hallowed, counted, hcounted⟩]
      obtain ⟨hlimits, hwithin, hcalls⟩ := beforeToolCall_counted hcounted
      dsimp only
      cases registered c sha256 turnId s call with
      | error e =>
        cases e
        exact ⟨hlimits, hcalls, fun _ => hwithin⟩
      | ok refreshIds =>
        obtain ⟨hsettled, hfacade, hkeeps⟩ := settle_counted engine
          { s.state with turn := s.state.turn.cancelIf call.cancelledBefore } counted call.toToolCall
        refine ⟨hsettled.trans hlimits, hfacade.trans hcalls, fun _ => ?_⟩
        rw [hlimits] at hkeeps
        exact hkeeps hwithin

/-- Over a run no counter passes its limit, and the facade calls are the calls that passed. -/
theorem executeAll_counted (engine : TextEngine) (c : Collation) (sha256 : List Char → String)
    (turnId : String) (s : SessionTurn) (calls : List SessionCall)
    (h : s.state.turn.counters.AllWithin s.state.turn.limits) :
    (executeAll engine c sha256 turnId s calls).state.turn.counters.AllWithin s.state.turn.limits ∧
      (executeAll engine c sha256 turnId s calls).state.turn.counters.facadeCalls =
        s.state.turn.counters.facadeCalls + passedCalls engine c sha256 turnId s calls := by
  induction calls generalizing s with
  | nil => exact ⟨h, rfl⟩
  | cons call calls ih =>
    obtain ⟨hlimits, hfacade, hwithin⟩ := execute_counted engine c sha256 turnId s call
    obtain ⟨hall, hcount⟩ := ih (execute engine c sha256 turnId s call).1 (hlimits ▸ hwithin h)
    rw [hlimits] at hall
    refine ⟨hall, hcount.trans ?_⟩
    rw [hfacade, passedCalls, Nat.add_assoc]

/-- A call that ends in an error leaves the ledger, the accumulators and the runner as they were
exactly when it is not overcharged; and over the calls of a turn no counter passes its limit, while the
facade calls are the calls that passed their checks. -/
theorem failed_call_kept (engine : TextEngine) (c : Collation) (sha256 : List Char → String)
    (turnId : String) :
    (∀ s call, ((execute engine c sha256 turnId s call).2.IsError →
        Kept s.state (execute engine c sha256 turnId s call).1.state) ↔
      ¬ Overcharged s.state call.toToolCall) ∧
    ∀ limits populateLedger now refreshIds calls,
      let s := executeAll engine c sha256 turnId ⟨newTurn limits populateLedger now, refreshIds⟩ calls
      s.state.turn.counters.AllWithin limits ∧ s.state.turn.counters.facadeCalls =
        passedCalls engine c sha256 turnId ⟨newTurn limits populateLedger now, refreshIds⟩ calls := by
  refine ⟨execute_kept_iff engine c sha256 turnId, fun limits populateLedger now refreshIds calls => ?_⟩
  have hnew : (newTurn limits populateLedger now).turn.counters.AllWithin limits :=
    ⟨Nat.zero_le _, Nat.zero_le _, Nat.zero_le _, Nat.zero_le _, Nat.zero_le _, Nat.zero_le _,
      Nat.zero_le _⟩
  obtain ⟨hall, hcount⟩ := executeAll_counted engine c sha256 turnId
    ⟨newTurn limits populateLedger now, refreshIds⟩ calls hnew
  exact ⟨hall, hcount.trans (Nat.zero_add _)⟩

/-! ## A query that is refused -/

/-- A query for `n` records of the Bank Rate. -/
def rateQuery (n : Nat) : SessionCall where
  tool := .queryMarketData
  args := [("capability_id", .str "uk.bank-rate-current"), ("query_kind", .str "metrics"),
    ("limit", .int n)]
  result := ⟨.ok, some (bankRateQuery "2026-08-02T00:00:00Z"
    (List.replicate n (bankRateRecord "observation" "h1.rate" (some "5.25"))))⟩
  calledAt := 0
  answeredAt := 0
  cancelledBefore := false
  cancelledSince := false
  toolCallId := "call"
  fresh := "request"

/-- A turn that has spent its forty records. -/
def spentTurn : SessionTurn :=
  executeAll plainEngine Accents.collation String.ofList (turnIdOf 1)
    ⟨newTurn defaultTurnLimits true 0, []⟩ [rateQuery 20, rateQuery 20]

/-- The record that the budget refuses is in the ledger afterwards. -/
theorem not_failed_call_kept :
    let p := execute plainEngine Accents.collation String.ofList (turnIdOf 1) spentTurn (rateQuery 1)
    p.2 = .ended (.failed .budgetExceeded) ∧ p.2.IsError ∧ ¬ Kept spentTurn.state p.1.state := by
  have hending : (execute plainEngine Accents.collation String.ofList (turnIdOf 1) spentTurn
      (rateQuery 1)).2 = .ended (.failed .budgetExceeded) := by decide +kernel
  have hledger : (execute plainEngine Accents.collation String.ofList (turnIdOf 1) spentTurn
      (rateQuery 1)).1.state.turn.ledger.length ≠ spentTurn.state.turn.ledger.length := by
    decide +kernel
  refine ⟨hending, ?_, fun h => hledger (congrArg List.length h.ledger)⟩
  rw [hending]
  exact trivial

end NanFung.Brief
