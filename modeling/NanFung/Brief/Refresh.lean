import NanFung.Brief.Turn
import NanFung.Brief.Provenance

/-!
# Refreshes within a turn

After a refresh the runner lets no brief be finalised before another query. The ledger, on the other
hand, keeps every entry of the turn, and a brief rests on a ledger of one anchor: a turn that queried
before a refresh and again after it, at a later anchor, has no brief.
-/

namespace NanFung.Brief

variable {engine : TextEngine} {s t : TurnState} {c : ToolCall} {calls : List ToolCall}
  {outcome : Outcome}

/-! ## Runs -/

/-- The calls of a run with what became of them. -/
def outcomes (engine : TextEngine) (s : TurnState) : List ToolCall → List (ToolCall × Outcome)
  | [] => []
  | c :: calls => (c, (callTool engine s c).2) :: outcomes engine (callTool engine s c).1 calls

theorem runCalls_cons (engine : TextEngine) (s : TurnState) (c : ToolCall) (calls : List ToolCall) :
    runCalls engine s (c :: calls) = runCalls engine (callTool engine s c).1 calls := rfl

theorem runCalls_append (engine : TextEngine) (s : TurnState) (calls calls' : List ToolCall) :
    runCalls engine s (calls ++ calls') = runCalls engine (runCalls engine s calls) calls' :=
  List.foldl_append

/-- A call of the tool is answered, and not with an error. -/
structure Answers (p : ToolCall × Outcome) (tool : ToolName) (result : ToolResult) : Prop where
  tool : p.1.tool = tool
  answered : p.2 = .answered result
  status : result.status ≠ .error

/-! ## The ledger of a run -/

theorem populate_built {ledger : Ledger} (h : Built ledger) (populateLedger : Bool)
    (tool : ToolName) (result : ToolResult) : Built (populate populateLedger ledger tool result) := by
  unfold populate
  split
  · next data hdata =>
    rw [resultRecords, hdata]
    exact h.query data
  · exact h.citations _
  · exact h

theorem prefix_populate (ledger : Ledger) (populateLedger : Bool) (tool : ToolName)
    (result : ToolResult) : ledger <+: populate populateLedger ledger tool result := by
  unfold populate
  split
  · exact List.prefix_append _ _
  · exact prefix_enrichQueryLedger _ _
  · exact List.prefix_rfl

@[simp] theorem afterCharge_populateLedger (runner : RunnerState) (tool : ToolName) (args : Members)
    (result : ToolResult) (now : Nat) :
    (afterCharge runner tool args result now).populateLedger = runner.populateLedger := by
  cases tool with
  | requestDataRefresh =>
    show (updateRequestState runner result.data now).populateLedger = _
    unfold updateRequestState
    split
    · rfl
    · dsimp only
      split
      · split <;> rfl
      · rfl
  | getRefreshStatus =>
    show (updateRefreshState runner args result.data now).populateLedger = _
    unfold updateRefreshState
    split
    · split
      · rfl
      · split <;> rfl
    · rfl
  | _ => rfl

/-- What a call does to the ledger. -/
theorem Called.ledger_cases (h : Called engine s c t outcome) :
    t.turn.ledger = s.turn.ledger ∨
      ∃ result, t.turn.ledger = populate s.runner.populateLedger s.turn.ledger c.tool result := by
  cases h with
  | idle hledger => exact .inl hledger
  | uncharged hallowed hanswer hledger => exact .inr ⟨_, hledger⟩
  | charged hallowed hanswer hstatus hledger => exact .inr ⟨_, hledger⟩

theorem Called.populateLedger (h : Called engine s c t outcome) :
    t.runner.populateLedger = s.runner.populateLedger := by
  cases h with
  | idle hledger hrunner => rw [hrunner]
  | uncharged hallowed hanswer hledger hrunner => rw [hrunner]
  | charged hallowed hanswer hstatus hledger hrunner => rw [hrunner, afterCharge_populateLedger]

theorem callTool_built (h : Built s.turn.ledger) : Built (callTool engine s c).1.turn.ledger := by
  obtain heq | ⟨result, heq⟩ := (callTool_called engine s c).ledger_cases
  · rwa [heq]
  · rw [heq]
    exact populate_built h _ _ _

theorem prefix_callTool (engine : TextEngine) (s : TurnState) (c : ToolCall) :
    s.turn.ledger <+: (callTool engine s c).1.turn.ledger := by
  obtain heq | ⟨result, heq⟩ := (callTool_called engine s c).ledger_cases
  · rw [heq]
  · rw [heq]
    exact prefix_populate _ _ _ _

theorem runCalls_built (h : Built s.turn.ledger) : Built (runCalls engine s calls).turn.ledger := by
  induction calls generalizing s with
  | nil => exact h
  | cons c calls ih => exact ih (callTool_built h)

theorem prefix_runCalls (engine : TextEngine) (s : TurnState) (calls : List ToolCall) :
    s.turn.ledger <+: (runCalls engine s calls).turn.ledger := by
  induction calls generalizing s with
  | nil => exact List.prefix_rfl
  | cons c calls ih => exact (prefix_callTool engine s c).trans (ih _)

/-- An answered query has entered its result. -/
theorem callTool_query {result : ToolResult} {data : Members}
    (hpopulate : s.runner.populateLedger = true)
    (h : Answers (c, (callTool engine s c).2) .queryMarketData result)
    (hdata : result.data = some data) {e : LedgerEntry}
    (he : e ∈ queryEntries data (recordArray (Json.lookup "records" data))) :
    e ∈ (callTool engine s c).1.turn.ledger := by
  obtain ⟨htool, hanswered, hstatus⟩ := h
  have hcalled := callTool_called engine s c
  dsimp only at htool hanswered
  rw [hanswered] at hcalled
  cases hcalled with
  | idle hledger hrunner herror => exact absurd (herror result rfl).1 hstatus
  | charged hallowed hanswer _ hledger hrunner =>
    rw [hledger, htool, hpopulate]
    show e ∈ populate true _ .queryMarketData result
    simp only [populate, hdata, resultRecords, Option.bind_some]
    exact List.mem_append_right _ he

/-- Every answered query of a run has entered its result. -/
theorem runCalls_query {p : ToolCall × Outcome} {result : ToolResult} {data : Members}
    (hpopulate : s.runner.populateLedger = true) (hp : p ∈ outcomes engine s calls)
    (h : Answers p .queryMarketData result) (hdata : result.data = some data) {e : LedgerEntry}
    (he : e ∈ queryEntries data (recordArray (Json.lookup "records" data))) :
    e ∈ (runCalls engine s calls).turn.ledger := by
  induction calls generalizing s with
  | nil => exact nomatch hp
  | cons c calls ih =>
    rw [runCalls_cons]
    cases List.mem_cons.mp hp with
    | inl hhead =>
      subst hhead
      exact (prefix_runCalls engine _ calls).mem (callTool_query hpopulate h hdata he)
    | inr hp =>
      refine ih ?_ hp
      rw [(callTool_called engine s c).populateLedger, hpopulate]

/-! ## The re-query -/

/-- A query is answered, and not with an error. -/
def Requeried (p : ToolCall × Outcome) : Prop := ∃ result, Answers p .queryMarketData result

/-- While a re-query is asked for, the only call that settles it is an answered query: whatever the
query asks for and however many records it returns. -/
theorem Called.requery_settled_iff (h : Called engine s c t outcome)
    (hrequired : s.runner.requeryRequired = true) :
    t.runner.requeryRequired = false ↔ Requeried (c, outcome) := by
  cases h with
  | idle hledger hrunner herror =>
    rw [hrunner, hrequired]
    refine ⟨fun h => (nomatch h), ?_⟩
    rintro ⟨result, -, hanswered, hstatus⟩
    exact absurd (herror result hanswered).1 hstatus
  | uncharged hallowed hanswer hledger hrunner =>
    rw [hrunner, hrequired]
    refine ⟨fun h => (nomatch h), ?_⟩
    rintro ⟨result, -, hanswered, -⟩
    exact nomatch hanswered
  | @charged result hallowed hanswer hstatus hledger hrunner =>
    have hiff : Requeried (c, .answered result) ↔ c.tool = .queryMarketData :=
      ⟨fun ⟨_, h⟩ => h.tool, fun htool => ⟨result, htool, rfl, hstatus⟩⟩
    rw [hiff, hrunner]
    cases htool : c.tool with
    | queryMarketData => simp [afterCharge]
    | requestDataRefresh =>
      have hkept : (updateRequestState s.runner result.data c.answeredAt).requeryRequired = true := by
        unfold updateRequestState
        split
        · exact hrequired
        · dsimp only
          split
          · split <;> exact hrequired
          · exact hrequired
      simp [afterCharge, hkept]
    | getRefreshStatus =>
      have hkept : (updateRefreshState s.runner c.args result.data
          c.answeredAt).requeryRequired = true := by
        unfold updateRefreshState
        split
        · split
          · simp [hrequired]
          · split <;> exact hrequired
        · exact hrequired
      simp [afterCharge, hkept]
    | _ => simp [afterCharge, hrequired]

/-- A refresh status that asks for a re-query. -/
structure Reports (p : ToolCall × Outcome) (data : Members) : Prop where
  answered : ∃ result, Answers p .getRefreshStatus result ∧ result.data = some data
  job : (string? p.1.args "job_ref").isSome
  requires : RequiresRequery data

theorem callTool_reports {data : Members} (h : Reports (c, (callTool engine s c).2) data) :
    (callTool engine s c).1.runner.requeryRequired = true := by
  obtain ⟨⟨result, ⟨htool, hanswered, hstatus⟩, hdata⟩, hjob, hrequires⟩ := h
  obtain ⟨jobRef, hjob⟩ := Option.isSome_iff_exists.mp hjob
  have hcalled := callTool_called engine s c
  dsimp only at htool hanswered hjob
  rw [hanswered] at hcalled
  cases hcalled with
  | idle hledger hrunner herror => exact absurd (herror result rfl).1 hstatus
  | charged hallowed hanswer _ hledger hrunner =>
    have hterminal : (string? data "job_state").any (· ∈ terminalJobStates) = true := by
      obtain ⟨jobState, hstate, hterminal, -⟩ := hrequires
      rw [Option.mem_def.mp hstate]
      simpa using hterminal
    rw [hrunner, htool]
    show (updateRefreshState s.runner c.args result.data c.answeredAt).requeryRequired = true
    rw [hdata]
    simp [updateRefreshState, hjob, hterminal, hrequires]

/-- Without a re-query, the block stays for the rest of a run. -/
theorem requery_required_of_run (hrequired : s.runner.requeryRequired = true)
    (hnone : ∀ p ∈ outcomes engine s calls, ¬ Requeried p) :
    (runCalls engine s calls).runner.requeryRequired = true := by
  induction calls generalizing s with
  | nil => exact hrequired
  | cons c calls ih =>
    obtain ⟨hhead, htail⟩ := List.forall_mem_cons.mp hnone
    refine ih ?_ htail
    have hsettled := (callTool_called engine s c).requery_settled_iff hrequired
    exact Bool.eq_true_of_not_eq_false fun hfalse => hhead (hsettled.mp hfalse)

/-! ## Accepted briefs -/

/-- While a re-query is asked for, a call to finalise is refused. -/
theorem beforeTool_finalize {runner : RunnerState} (hrequired : runner.requeryRequired = true)
    (args : Members) (now : Nat) :
    ∃ code, beforeTool runner .finalizeMarketBrief args now = some code := by
  unfold beforeTool
  cases runner.artifact with
  | none => exact ⟨"REQUERY_REQUIRED", by simp [hrequired]⟩
  | some artifact => exact ⟨"BRIEF_FINALIZED", by simp⟩

theorem callTool_blocked (hrequired : s.runner.requeryRequired = true)
    (hc : c.tool = .finalizeMarketBrief) : ∃ code, (callTool engine s c).2 = .blocked code := by
  obtain ⟨code, hcode⟩ := beforeTool_finalize hrequired c.args c.calledAt
  refine ⟨code, ?_⟩
  unfold callTool
  dsimp only
  rw [hc, hcode]

/-- A brief is finalised only while no re-query is asked for, and from the ledger of the turn. -/
theorem callTool_finalize {result : ToolResult} (hc : c.tool = .finalizeMarketBrief)
    (h : (callTool engine s c).2 = .answered result) :
    s.runner.requeryRequired = false ∧ ∃ brief,
      finalizeBrief engine (draftOf c.args) s.turn.ledger = .ok brief ∧
      result = ⟨.ok, some brief.members⟩ := by
  have hbrief : ∀ {r : ToolResult}, answer engine s.turn.ledger c = .ok r → ∃ brief,
      finalizeBrief engine (draftOf c.args) s.turn.ledger = .ok brief ∧
      r = ⟨.ok, some brief.members⟩ := by
    intro r hanswer
    unfold answer at hanswer
    rw [hc] at hanswer
    dsimp only at hanswer
    split at hanswer
    · next brief hok => exact ⟨brief, hok, (Except.ok.inj hanswer).symm⟩
    · exact nomatch hanswer
    · exact nomatch hanswer
  have hcalled := callTool_called engine s c
  rw [h] at hcalled
  cases hcalled with
  | idle hledger hrunner herror =>
    obtain ⟨hstatus, hanswer⟩ := herror result rfl
    obtain ⟨brief, -, rfl⟩ := hbrief hanswer
    exact nomatch hstatus
  | charged hallowed hanswer hstatus hledger hrunner =>
    refine ⟨?_, hbrief hanswer⟩
    cases hrequired : s.runner.requeryRequired with
    | false => rfl
    | true =>
      obtain ⟨code, hcode⟩ := beforeTool_finalize hrequired c.args c.calledAt
      rw [hc, hcode] at hallowed
      exact nomatch hallowed

/-! ## The flow of a refresh -/

/-- A query is answered with records at an anchor. -/
structure QueriedAt (p : ToolCall × Outcome) (anchor : String) (data : Members) : Prop where
  answered : ∃ result, Answers p .queryMarketData result ∧ result.data = some data
  anchor : string? data "anchor_as_of" = some anchor
  capability : (string? data "capability_id").isSome
  records : recordArray (Json.lookup "records" data) ≠ []

/-- The references that the records of a query result list. -/
def recordRefs (data : Members) : List String :=
  (recordArray (Json.lookup "records" data)).flatMap fun record =>
    stringArray (Json.lookup "citation_refs" record)

/-- The references that a citation result resolves. -/
def resolvedRefs (data : Members) : List String :=
  (recordArray (Json.lookup "citations" data)).filterMap fun citation =>
    string? citation "citation_ref"

/-- A run that queried, saw a refresh succeed, queried again at a later anchor, and resolved
references of the new records. Of the later anchor all that matters is that it is another. -/
structure RefreshFlow (engine : TextEngine) (s : TurnState) (calls : List ToolCall) where
  query : ToolCall × Outcome
  status : ToolCall × Outcome
  requery : ToolCall × Outcome
  citations : ToolCall × Outcome
  inOrder : List.Sublist [query, status, requery, citations] (outcomes engine s calls)
  anchor : String
  laterAnchor : String
  later : anchor ≠ laterAnchor
  oldData : Members
  statusData : Members
  newData : Members
  citationData : Members
  queried : QueriedAt query anchor oldData
  reported : Reports status statusData
  succeeded : string? statusData "job_state" = some "succeeded"
  requeried : QueriedAt requery laterAnchor newData
  resolved : ∃ result, Answers citations .getCitationMetadata result ∧
    result.data = some citationData

/-- The draft is well formed, its texts pass the guard, and it cites resolved references of the new
records only. -/
def RefreshFlow.Drafts (flow : RefreshFlow engine s calls) (input : Json) : Prop :=
  ∃ draft, parseDraft input = .ok draft ∧
    (∀ text ∈ draft.texts, NumericGuard.check engine text = none) ∧
    ∀ ref ∈ draft.refs, ref ∈ recordRefs flow.newData ∧ ref ∈ resolvedRefs flow.citationData

/-- A query result leaves an entry at its anchor. -/
theorem exists_queryEntry {data : Members} {records : List Members} {anchor capabilityId : String}
    (hanchor : string? data "anchor_as_of" = some anchor)
    (hcapability : string? data "capability_id" = some capabilityId) :
    ∃ e ∈ queryEntries data records, e.anchorAsOf = anchor := by
  unfold queryEntries
  rw [hanchor, hcapability]
  cases records with
  | nil => exact ⟨_, List.mem_cons_self, rfl⟩
  | cons record records => exact ⟨_, List.mem_cons_self, rfl⟩

theorem QueriedAt.exists_entry {p : ToolCall × Outcome} {anchor : String} {data : Members}
    (h : QueriedAt p anchor data) (hpopulate : s.runner.populateLedger = true)
    (hp : p ∈ outcomes engine s calls) :
    ∃ e ∈ (runCalls engine s calls).turn.ledger, e.anchorAsOf = anchor := by
  obtain ⟨result, hanswers, hdata⟩ := h.answered
  obtain ⟨capabilityId, hcapability⟩ := Option.isSome_iff_exists.mp h.capability
  obtain ⟨e, he, heq⟩ := exists_queryEntry h.anchor hcapability
  exact ⟨e, runCalls_query hpopulate hp hanswers hdata he, heq⟩

/-- A brief has the anchor of every entry of its ledger, and its sources are sourced in it. -/
theorem finalizeBrief_sourced {ledger : Ledger} {input : Json} {brief : MarketBrief}
    (hbuilt : Built ledger) (h : finalizeBrief engine input ledger = .ok brief) :
    (∀ e ∈ ledger, brief.asOf = some e.anchorAsOf) ∧
      ∀ source ∈ brief.sources, ∃ r, Sourced ledger source.citationRef r := by
  obtain ⟨draft, host, references, hydrations, -, -, hhost, hreferences, -, rfl⟩ :=
    finalizeBrief_ok h
  obtain ⟨-, -, hnodup, hresolved⟩ := resolveReferences_ok hreferences
  obtain ⟨hanchors, hresolvable⟩ := hostLedger_ok hhost
  refine ⟨hanchors, fun source hsource => ?_⟩
  obtain ⟨r, hr, -⟩ := (mem_briefSources hnodup).mp hsource
  exact ⟨r, (hresolvable _ r (hresolved _ r hr)).sourced hbuilt hhost⟩

/-! ## A Bank Rate refresh -/

/-- A call that is answered at once. -/
def answeredCall (tool : ToolName) (args data : Members) : ToolCall :=
  ⟨tool, args, ⟨.ok, some data⟩, 0, 0, false, false⟩

def marketQuery (capabilityId : String) (data : Members) : ToolCall :=
  answeredCall .queryMarketData
    [("capability_id", .str capabilityId), ("query_kind", .str "metrics"), ("limit", .int 1)] data

/-- The data of a Bank Rate query that finds one record. -/
def rateData (anchor observationId ref value : String) : Members :=
  bankRateQuery anchor [bankRateRecord observationId ref (some value)]

def oldRate : Members := rateData "2026-08-02T00:00:00Z" "old-observation" "h1.old" "5.25"
def newRate : Members := rateData "2026-08-02T00:01:00Z" "new-observation" "h1.new" "5.00"

def jobData : Members :=
  [("job_ref", .str "h1.job"), ("job_state", .str "succeeded"), ("canonical_changed", .bool true)]

def jobSucceeded : ToolCall := answeredCall .getRefreshStatus [("job_ref", .str "h1.job")] jobData

def rateCitation (ref observationId : String) : ToolCall :=
  answeredCall .getCitationMetadata [("citation_refs", .arr [.str ref])]
    (bankRateCitation ref observationId "Bank of England")

/-- The calls of a turn that refreshes the Bank Rate. -/
def refreshCalls : List ToolCall :=
  [marketQuery "uk.bank-rate-current" oldRate, jobSucceeded,
    marketQuery "uk.bank-rate-current" newRate, rateCitation "h1.new" "new-observation"]

theorem outcomes_refreshCalls :
    outcomes plainEngine (newTurn defaultTurnLimits true 0) refreshCalls =
      refreshCalls.map fun c => (c, .answered c.result) := by
  decide +kernel

theorem answers_result {c : ToolCall} (h : c.result.status ≠ .error) :
    Answers (c, .answered c.result) c.tool c.result := ⟨rfl, rfl, h⟩

def bankRateFlow : RefreshFlow plainEngine (newTurn defaultTurnLimits true 0) refreshCalls where
  query := (marketQuery "uk.bank-rate-current" oldRate, .answered _)
  status := (jobSucceeded, .answered _)
  requery := (marketQuery "uk.bank-rate-current" newRate, .answered _)
  citations := (rateCitation "h1.new" "new-observation", .answered _)
  inOrder := by
    rw [outcomes_refreshCalls]
    exact List.Sublist.refl _
  anchor := "2026-08-02T00:00:00Z"
  laterAnchor := "2026-08-02T00:01:00Z"
  later := by decide
  oldData := oldRate
  statusData := _
  newData := newRate
  citationData := bankRateCitation "h1.new" "new-observation" "Bank of England"
  queried := ⟨⟨_, answers_result (by decide), rfl⟩, by decide, by decide, by decide +kernel⟩
  reported := ⟨⟨_, answers_result (by decide), rfl⟩, by decide, by decide +kernel⟩
  succeeded := by decide
  requeried := ⟨⟨_, answers_result (by decide), rfl⟩, by decide, by decide, by decide +kernel⟩
  resolved := ⟨_, answers_result (by decide), rfl⟩

/-- A draft of the new rate. -/
def newRateDraft : Json := bankRateDraft [bankRateFact "rate" "h1.new"]

theorem bankRateFlow_drafts : bankRateFlow.Drafts newRateDraft := by
  refine ⟨⟨"Bank Rate", .complete, [.numeric ⟨"rate", .high, "h1.new"⟩], [], []⟩, rfl,
    fun _ _ => rfl, fun ref href => ?_⟩
  rw [List.mem_singleton.mp href]
  constructor
  · show "h1.new" ∈ recordRefs newRate
    decide +kernel
  · show "h1.new" ∈ resolvedRefs (bankRateCitation "h1.new" "new-observation" "Bank of England")
    decide +kernel

/-- The calls of a turn up to the refresh: a query, its citation, and the request. -/
def callsBeforeRefresh : List ToolCall :=
  [marketQuery "uk.bank-rate-current" oldRate, rateCitation "h1.old" "old-observation",
    answeredCall .requestDataRefresh
      [("capability_id", .str "uk.bank-rate-current"),
        ("datasource_id", .str "boe.bank_rate.iudbedr")]
      [("disposition", .str "accepted"), ("job_ref", .str "h1.job")]]

/-- A query about another capability that finds nothing. -/
def emptyQuery : ToolCall :=
  marketQuery "uk.gdp.current"
    [("anchor_as_of", .str "2026-08-02T00:00:00Z"), ("capability_id", .str "uk.gdp.current"),
      ("records", .arr [])]

/-- The call that finalises a brief of the old rate. -/
def finalizeOldRate : ToolCall :=
  answeredCall .finalizeMarketBrief
    [("title", .str "Bank Rate"), ("status", .str "complete"),
      ("facts", .arr [bankRateFact "rate" "h1.old"]), ("inferences", .arr []),
      ("limitations", .arr [])] []

/-! ## Briefs after a refresh -/

/-- After the flow of a refresh no draft is accepted, and no call finalises one. -/
theorem refresh_flow_never_finalised (engine : TextEngine) (limits : TurnLimits) (now : Nat)
    (calls : List ToolCall) (flow : RefreshFlow engine (newTurn limits true now) calls) :
    (∀ input brief, finalizeBrief engine input
      (runCalls engine (newTurn limits true now) calls).turn.ledger ≠ .ok brief) ∧
    ∀ c : ToolCall, c.tool = .finalizeMarketBrief → ∀ result,
      (callTool engine (runCalls engine (newTurn limits true now) calls) c).2 ≠
        .answered result := by
  have hmem : ∀ p ∈ [flow.query, flow.status, flow.requery, flow.citations],
      p ∈ outcomes engine (newTurn limits true now) calls := fun p hp => flow.inOrder.subset hp
  obtain ⟨e, he, hanchor⟩ := flow.queried.exists_entry rfl (hmem flow.query (by simp))
  obtain ⟨e', he', hanchor'⟩ := flow.requeried.exists_entry rfl (hmem flow.requery (by simp))
  have hbuilt : Built (runCalls engine (newTurn limits true now) calls).turn.ledger :=
    runCalls_built Built.empty
  have hnone : ∀ input brief, finalizeBrief engine input
      (runCalls engine (newTurn limits true now) calls).turn.ledger ≠ .ok brief := by
    intro input brief hbrief
    have hanchors := (finalizeBrief_sourced hbuilt hbrief).1
    have hsame : e.anchorAsOf = e'.anchorAsOf :=
      Option.some.inj ((hanchors e he).symm.trans (hanchors e' he'))
    rw [hanchor, hanchor'] at hsame
    exact flow.later hsame
  refine ⟨hnone, fun c hc result hanswered => ?_⟩
  obtain ⟨-, brief, hbrief, -⟩ := callTool_finalize hc hanswered
  exact hnone _ _ hbrief

/-- The draft of the new rate rests on the new record alone, and it is not accepted. -/
theorem refresh_flow_never_finalised_bankRate : bankRateFlow.Drafts newRateDraft ∧
    ∀ brief, finalizeBrief plainEngine newRateDraft
      (runCalls plainEngine (newTurn defaultTurnLimits true 0) refreshCalls).turn.ledger ≠ .ok brief :=
  ⟨bankRateFlow_drafts, (refresh_flow_never_finalised plainEngine defaultTurnLimits 0 refreshCalls
    bankRateFlow).1 newRateDraft⟩

theorem not_every_refresh_finalises : ¬ ∀ (engine : TextEngine) (limits : TurnLimits) (now : Nat)
    (calls : List ToolCall) (flow : RefreshFlow engine (newTurn limits true now) calls)
    (input : Json), flow.Drafts input → ∃ brief, finalizeBrief engine input
      (runCalls engine (newTurn limits true now) calls).turn.ledger = .ok brief := by
  intro h
  obtain ⟨brief, hbrief⟩ := h plainEngine defaultTurnLimits 0 refreshCalls bankRateFlow newRateDraft
    bankRateFlow_drafts
  have hrejected : finalizeBrief plainEngine newRateDraft
      (runCalls plainEngine (newTurn defaultTurnLimits true 0) refreshCalls).turn.ledger =
        .error (draftRejected "CROSS_ANCHOR") := by
    decide +kernel
  rw [hrejected] at hbrief
  exact nomatch hbrief

/-- Once a refresh asks for a re-query, no brief is finalised before a query is answered; any answered
query will do. A brief finalised later cites records at its own anchor, which is the anchor of every
query that was answered in the turn. -/
theorem brief_after_refresh (engine : TextEngine) (limits : TurnLimits) (populateLedger : Bool)
    (now : Nat) (before after : List ToolCall) (status : ToolCall) (data : Members)
    (hreports : Reports (status, (callTool engine
      (runCalls engine (newTurn limits populateLedger now) before) status).2) data) :
    ((∀ p ∈ outcomes engine (runCalls engine (newTurn limits populateLedger now)
        (before ++ [status])) after, ¬ Requeried p) →
      ∀ c : ToolCall, c.tool = .finalizeMarketBrief → ∃ code, (callTool engine (runCalls engine
        (newTurn limits populateLedger now) (before ++ status :: after)) c).2 = .blocked code) ∧
    (∀ s c, s.runner.requeryRequired = true →
      ((callTool engine s c).1.runner.requeryRequired = false ↔
        Requeried (c, (callTool engine s c).2))) ∧
    ∀ (c : ToolCall) (result : ToolResult), c.tool = .finalizeMarketBrief →
      (callTool engine (runCalls engine (newTurn limits populateLedger now)
        (before ++ status :: after)) c).2 = .answered result →
      ∃ brief : MarketBrief, result = ⟨.ok, some brief.members⟩ ∧
        (∀ source ∈ brief.sources, ∃ entry ∈ (runCalls engine
          (newTurn limits populateLedger now) (before ++ status :: after)).turn.ledger,
          entry.kind = .query ∧ source.citationRef ∈ entry.citationRefs ∧
            brief.asOf = some entry.anchorAsOf) ∧
        (populateLedger = true → ∀ p ∈ outcomes engine (newTurn limits populateLedger now)
          (before ++ status :: after), ∀ r queried anchor capabilityId,
          Answers p .queryMarketData r → r.data = some queried →
          string? queried "anchor_as_of" = some anchor →
          string? queried "capability_id" = some capabilityId → brief.asOf = some anchor) := by
  refine ⟨fun hnone c hc => ?_, fun s c => (callTool_called engine s c).requery_settled_iff,
    fun c result hc hanswered => ?_⟩
  · have hrequired := callTool_reports hreports
    rw [runCalls_append] at hnone ⊢
    rw [runCalls_cons]
    exact callTool_blocked (requery_required_of_run hrequired hnone) hc
  · obtain ⟨-, brief, hbrief, rfl⟩ := callTool_finalize hc hanswered
    have hbuilt : Built (runCalls engine (newTurn limits populateLedger now)
        (before ++ status :: after)).turn.ledger := runCalls_built Built.empty
    obtain ⟨hanchors, hsources⟩ := finalizeBrief_sourced hbuilt hbrief
    refine ⟨brief, rfl, fun source hsource => ?_, fun hpopulate p hp r queried anchor capabilityId
      hanswers hdata hanchor hcapability => ?_⟩
    · obtain ⟨r, hsourced⟩ := hsources source hsource
      exact ⟨r.entry, hsourced.carries.mem, hsourced.query, hsourced.carries.lists,
        hanchors _ hsourced.carries.mem⟩
    · obtain ⟨e, he, heq⟩ := exists_queryEntry hanchor hcapability
      rw [hanchors e (runCalls_query hpopulate hp hanswers hdata he), heq]

theorem reports_jobSucceeded : Reports (jobSucceeded, (callTool plainEngine
    (runCalls plainEngine (newTurn defaultTurnLimits true 0) callsBeforeRefresh) jobSucceeded).2)
    jobData := by
  have hanswered : (callTool plainEngine (runCalls plainEngine (newTurn defaultTurnLimits true 0)
      callsBeforeRefresh) jobSucceeded).2 = .answered jobSucceeded.result := by
    decide +kernel
  rw [hanswered]
  exact ⟨⟨_, answers_result (by decide), rfl⟩, by decide, by decide +kernel⟩

theorem brief_after_refresh_bankRate : ∃ code, (callTool plainEngine (runCalls plainEngine
    (newTurn defaultTurnLimits true 0) (callsBeforeRefresh ++ [jobSucceeded]))
    finalizeOldRate).2 = .blocked code :=
  (brief_after_refresh plainEngine defaultTurnLimits true 0 callsBeforeRefresh [] jobSucceeded
    jobData reports_jobSucceeded).1 (fun _ hp => nomatch hp) finalizeOldRate rfl

/-- An empty answer about another capability lets the old record be cited. -/
theorem not_only_refreshed_records : ¬ ∀ (engine : TextEngine) (limits : TurnLimits) (now : Nat)
    (before after : List ToolCall) (status c : ToolCall) (data : Members) (brief : MarketBrief)
    (request : ToolCall × Outcome) (datasource jobRef : String),
    Reports (status, (callTool engine
      (runCalls engine (newTurn limits true now) before) status).2) data →
    request ∈ outcomes engine (newTurn limits true now) before →
    request.1.tool = .requestDataRefresh →
    string? request.1.args "datasource_id" = some datasource →
    string? status.args "job_ref" = some jobRef →
    (∃ r, request.2 = .answered r ∧ r.data.bind (string? · "job_ref") = some jobRef) →
    (callTool engine (runCalls engine (newTurn limits true now) (before ++ status :: after)) c).2 =
      .answered ⟨.ok, some brief.members⟩ →
    ∀ source ∈ brief.sources, (∃ entry ∈ (runCalls engine (newTurn limits true now)
        (before ++ status :: after)).turn.ledger, source.citationRef ∈ entry.citationRefs ∧
        datasource ∈ entry.datasourceIds.getD []) →
      ∃ p ∈ outcomes engine (runCalls engine (newTurn limits true now) (before ++ [status])) after,
        ∃ r queried, Answers p .queryMarketData r ∧ r.data = some queried ∧
          source.citationRef ∈ recordRefs queried := by
  intro h
  have hbefore : outcomes plainEngine (newTurn defaultTurnLimits true 0) callsBeforeRefresh =
      callsBeforeRefresh.map fun c => (c, .answered c.result) := by
    decide +kernel
  have hafter : outcomes plainEngine (runCalls plainEngine (newTurn defaultTurnLimits true 0)
      (callsBeforeRefresh ++ [jobSucceeded])) [emptyQuery] =
        [(emptyQuery, .answered emptyQuery.result)] := by
    decide +kernel
  have hledger : ∃ entry ∈ (runCalls plainEngine (newTurn defaultTurnLimits true 0)
      (callsBeforeRefresh ++ [jobSucceeded, emptyQuery])).turn.ledger,
        "h1.old" ∈ entry.citationRefs ∧
          "boe.bank_rate.iudbedr" ∈ entry.datasourceIds.getD [] := by
    decide +kernel
  have hbrief : ∃ brief ∈ (finalizeBrief plainEngine (draftOf finalizeOldRate.args)
      (runCalls plainEngine (newTurn defaultTurnLimits true 0)
        (callsBeforeRefresh ++ [jobSucceeded, emptyQuery])).turn.ledger).toOption,
      (callTool plainEngine (runCalls plainEngine (newTurn defaultTurnLimits true 0)
        (callsBeforeRefresh ++ [jobSucceeded, emptyQuery])) finalizeOldRate).2 =
          .answered ⟨.ok, some brief.members⟩ ∧
        ∃ source ∈ brief.sources, source.citationRef = "h1.old" := by
    decide +kernel
  obtain ⟨brief, -, hanswered, source, hsource, hold⟩ := hbrief
  obtain ⟨request, hrequest, htool, hdatasource, hjob⟩ : ∃ request ∈ callsBeforeRefresh,
      request.tool = .requestDataRefresh ∧
      string? request.args "datasource_id" = some "boe.bank_rate.iudbedr" ∧
      request.result.data.bind (string? · "job_ref") = some "h1.job" := by
    decide +kernel
  have hmem : (request, .answered request.result) ∈
      outcomes plainEngine (newTurn defaultTurnLimits true 0) callsBeforeRefresh := by
    rw [hbefore]
    exact List.mem_map_of_mem hrequest
  obtain ⟨p, hp, r, queried, hanswers, hdata, hlisted⟩ := h plainEngine defaultTurnLimits 0
    callsBeforeRefresh [emptyQuery] jobSucceeded finalizeOldRate jobData brief
    (request, .answered request.result) "boe.bank_rate.iudbedr" "h1.job" reports_jobSucceeded hmem
    htool hdatasource rfl ⟨_, rfl, hjob⟩ hanswered source hsource (hold ▸ hledger)
  rw [hafter, List.mem_singleton] at hp
  subst hp
  cases hanswers.answered
  have hnone : ∀ queried ∈ emptyQuery.result.data, recordRefs queried = [] := by decide +kernel
  rw [hnone queried hdata] at hlisted
  exact nomatch hlisted

end NanFung.Brief
