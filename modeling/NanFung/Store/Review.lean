import NanFung.Store.Records

/-!
# Manual evidence, reviews and promotions

`import_manual_evidence` runs a whole job under the operator's name and opens a review where the
definition asks for one; `decide_review`, `promote_review` and `revoke_promotion` are the operator's
decisions about it.
-/

namespace NanFung

open Table

/-- `except OperationalError`. -/
def StoreError.isOperational : StoreError → Bool
  | .operational _ | .refreshAccess _ | .refreshReplay _ | .refreshConfirmation _ => true
  | _ => false

/-- `type(error).__name__`. -/
def StoreError.className : StoreError → String
  | .operational _ => "OperationalError"
  | .registry _ => "RegistryError"
  | .canonicalization _ => "CanonicalizationError"
  | .refreshAccess _ => "RefreshRequestAccessError"
  | .refreshReplay _ => "RefreshRequestReplayError"
  | .refreshConfirmation _ => "RefreshConfirmationError"
  | .job _ => "JobError"
  | .integrity _ => "IntegrityError"
  | .value _ => "ValueError"
  | .overflow => "OverflowError"

/-- `ManualEvidenceResult`, whose state is always `succeeded`. -/
structure ManualEvidenceResult where
  runId : String
  evidenceId : String
  reviewId : Option String
  deriving DecidableEq

/-- `ManualPromotionResult`. -/
structure ManualPromotionResult where
  reviewId : String
  runId : String
  promotionId : String
  created : Bool
  deriving DecidableEq

/-- `PromotionRevocationResult`. -/
structure PromotionRevocationResult where
  runId : String
  promotionId : String
  created : Bool
  deriving DecidableEq

section

variable (env : Env)

/-! ## Manual evidence -/

/-- `SUBMARKET_MAPPING_DATASOURCE_ID`. -/
def submarketMappingDatasourceId : String := "custom.london_office_submarkets"

/-- `mapping_import_error_code`. -/
def mappingImportErrorCode (message : String) : String :=
  if message = "PARSER_ISOLATION_UNAVAILABLE" then message else "SUBMARKET_MAPPING_INVALID"

/-- The observation of a submarket mapping. -/
def submarketObservation (m : SubmarketMapping) (evidence : PersistedEvidence) : ObservationArgs where
  recordKey := ["custom_submarket", m.key]
  payload := [
    ("geography_code", .str ("custom-submarket:" ++ m.key)),
    ("geography_name", .str m.name),
    ("locations", .arr (m.locations.map .str)),
    ("mapping_name", .str m.name),
    ("mapping_type", .str "custom_submarket")] ++
    match m.version with
    | some v => [("mapping_version", .str v)]
    | none => []
  recordType := "geography"
  category := "submarket_geography"
  evidence := [evidence]
  definitionText := some "Internal London office submarket mapping"
  limitations := ["Custom submarket mapping; it is not an official geography boundary."]
  locator := some [("kind", .str "json_pointer"), ("pointer", .str ""),
    ("schema", .str "submarket_mapping.v1")]

/-- The error record of a rejected capture. -/
def manualEvidenceRejected (e : StoreError) : List (String × Json) := [
  ("schema_version", .str "error.v1"),
  ("code", .str "MANUAL_EVIDENCE_REJECTED"),
  ("stage", .str "evidence"),
  ("retryable", .bool false),
  ("details", .obj [("exception", .str e.className)])]

/-- Persist the evidence; a failure is recorded on the run unless its lease is gone, and re-raised. -/
def captureManualEvidence (run : RunHandle) (args : EvidenceArgs) (clock : Nat → Time) :
    Proc Db StoreError PersistedEvidence :=
  tryCatch (Proc.atomically (persistEvidence env run args (clock 4))) fun error => do
    tryCatch
      (Proc.atomically (finishRun env run
        { status := .failed, error := some (manualEvidenceRejected error) } (clock 5)))
      fun e => if e.isOperational then pure () else throw e
    throw error

/-- Parse and persist the mapping of a submarket import. -/
def captureSubmarketMapping (run : RunHandle) (evidence : PersistedEvidence) (clock : Nat → Time) :
    Proc Db StoreError Unit :=
  match env.submarketMapping evidence.artifact with
  | .ok mapping => do
    let _ ← Proc.atomically
      (persistObservation env run (submarketObservation mapping evidence) (clock 6))
    pure ()
  | .error message => do
    let code := mappingImportErrorCode message
    Proc.atomically (finishRun env run {
      status := .failed
      error := some [("code", .str code), ("retryable", .bool false)] } (clock 6))
    throw (.operational code)

/-- Open the review of a manual import. -/
def openReview (run : RunHandle) (definition : DatasourceDefinition) (evidenceId : String)
    (attestation : Option String) (now : Time) (db : Db) : Except StoreError (String × Db) := do
  let reviewId := env.newId "review" db.drawn
  let _ ← requireRunningRun run now db
  let payload ← env.json (.obj [
    ("evidence_id", .str evidenceId), ("attestation", Platform.optStr attestation)])
  require (∀ r ∈ db.reviewTasks, r.reviewId ≠ reviewId)
    (.integrity "UNIQUE constraint failed: review_task.review_id")
  .ok (reviewId, { db with
    reviewTasks := db.reviewTasks ++ [{
      reviewId
      datasourceId := definition.datasourceId
      definitionVersion := definition.definitionVersion
      runId := some run.runId
      state := .open_
      payload
      createdAt := now
      completedAt := none }]
    drawn := db.drawn + 1 })

/-- The arguments of `import_manual_evidence`. -/
structure ManualImportArgs where
  datasourceId : String
  body : List UInt8
  mediaType : Option String
  sourceUrl : Option String := none
  attestation : Option String := none
  retentionUntil : Option Time := none
  actorId : String := "operator"

/-- The attestation a submarket import must carry. -/
def checkedAttestation (args : ManualImportArgs) : Except StoreError (Option String) :=
  if args.datasourceId = submarketMappingDatasourceId then
    match env.submarketAttestation args.mediaType args.attestation with
    | .ok attestation => .ok (some attestation)
    | .error message => .error (.operational message)
  else .ok args.attestation

/-- The mapping step of an import, for the submarket datasource only. -/
def importSubmarketMapping (args : ManualImportArgs) (run : RunHandle) (evidence : PersistedEvidence)
    (clock : Nat → Time) : Proc Db StoreError Unit :=
  if args.datasourceId = submarketMappingDatasourceId then
    captureSubmarketMapping env run evidence clock
  else pure ()

/-- The review step of an import, where the definition asks for one. -/
def reviewManualImport (run : RunHandle) (definition : DatasourceDefinition) (evidenceId : String)
    (attestation : Option String) (now : Time) : Proc Db StoreError (Option String) :=
  if definition.promotionPolicy = .manualReview then do
    let reviewId ← Proc.atomically (openReview env run definition evidenceId attestation now)
    pure (some reviewId)
  else pure none

/-- The submission of a manual import under its instance identifier. -/
def importEnqueueArgs (args : ManualImportArgs) (definition : DatasourceDefinition)
    (attestation : Option String) (instanceId : String) : EnqueueArgs where
  datasourceId := args.datasourceId
  request := some [
    ("manual_import", .bool true),
    ("source_url", Platform.optStr args.sourceUrl),
    ("attestation", Platform.optStr attestation)]
  trigger := "manual"
  lane := some definition.defaultLane.name
  requestInstanceId := some instanceId
  jobKind := some "manual_submission"

/-- `import_manual_evidence`; `clock` gives the successive readings of the wall clock. -/
def importManualEvidence (args : ManualImportArgs) (clock : Nat → Time) :
    Proc Db StoreError ManualEvidenceResult := do
  let attestation ← Proc.query fun _ => checkedAttestation env args
  let definition ← Proc.query fun _ => env.registry.lookup env.platform args.datasourceId none
  let instanceId ← env.draw "manual"
  let queued ← enqueue env (importEnqueueArgs args definition attestation instanceId) clock
  let claim ← claimJob env queued.jobId args.actorId (clock 2) 180
  match claim with
  | none => throw (.operational "manual evidence job could not be claimed")
  | some claim =>
    let run ← Proc.atomically (startRun env claim args.actorId (clock 3))
    let evidence ← captureManualEvidence env run {
      body := .bytes args.body
      mediaType := args.mediaType
      request := [("method", .str "MANUAL_IMPORT"), ("source_url", Platform.optStr args.sourceUrl)]
      response := [("attestation", Platform.optStr attestation)]
      retentionUntil := args.retentionUntil } clock
    importSubmarketMapping env args run evidence clock
    let reviewId ← reviewManualImport env run definition evidence.evidenceId attestation (clock 7)
    Proc.atomically (finishRun env run { status := .succeeded } (clock 8))
    pure ⟨run.runId, evidence.evidenceId, reviewId⟩

/-! ## Decisions -/

/-- The review state a decision leads to. -/
def ReviewState.ofDecision : PromotionDecision → ReviewState
  | .approved => .approved
  | _ => .rejected

/-- `decide_review`. -/
def decideReview (reviewId : String) (decision : PromotionDecision) (actorId : String)
    (reason : Option String) (now : Time) (db : Db) : Except StoreError (Bool × Db) := do
  require (decision = .approved ∨ decision = .rejected)
    (.operational "review decision must be approved or rejected")
  require (actorId ≠ "") (.operational "review actor is required")
  let review ← orThrow (db.reviewTasks.find? fun r => r.reviewId = reviewId)
    (.operational "unknown review task")
  if review.state ≠ .open_ then .ok (false, db)
  else
    let decisionId := env.newId "review_decision" db.drawn
    require (∀ d ∈ db.reviewDecisions, d.decisionId ≠ decisionId)
      (.integrity "UNIQUE constraint failed: review_decision.decision_id")
    .ok (true, { db with
      reviewTasks := updateWhere (fun r => r.reviewId = reviewId ∧ r.state = .open_)
        (fun r => { r with state := .ofDecision decision, completedAt := some now }) db.reviewTasks
      reviewDecisions := db.reviewDecisions ++ [{
        decisionId, reviewId, decision, actorId, reason, createdAt := now }]
      drawn := db.drawn + 1 })

/-- The newest approval of a review. -/
def Db.approval? (db : Db) (reviewId : String) : Option ReviewDecisionRow :=
  ((db.reviewDecisions.filter fun d => d.reviewId = reviewId ∧ d.decision = .approved).insertionSort
    fun a b => toLex (b.createdAt, b.decisionId) ≤ toLex (a.createdAt, a.decisionId)).head?

/-- The review row `promote_review` selects, joined with its definition. -/
def Db.reviewWithDefinition? (db : Db) (reviewId : String) :
    Option (ReviewTaskRow × DatasourceDefinition) := do
  let review ← db.reviewTasks.find? fun r => r.reviewId = reviewId
  let row ← db.definition? review.datasourceId review.definitionVersion
  some (review, row.definition)

/-- The run of a review is a production run that succeeded with its attempt. -/
def Db.succeededProduction (db : Db) (runId : String) : Prop :=
  ∃ r ∈ db.runs, r.runId = runId ∧ r.lane = .productionIngestion ∧ r.status = .succeeded ∧
    ∃ a ∈ db.attempts, a.attemptId = r.attemptId ∧ a.status = .succeeded

instance (db : Db) (runId : String) : Decidable (db.succeededProduction runId) :=
  inferInstanceAs (Decidable (∃ r ∈ db.runs, _))

/-- The guards of `promote_review`: the run to promote and the approval it rests on. -/
def promotableReview (reviewId : String) (db : Db) :
    Except StoreError (ReviewTaskRow × String × ReviewDecisionRow) := do
  let (review, definition) ← orThrow (db.reviewWithDefinition? reviewId)
    (.operational "unknown review task")
  require (review.state = .approved) (.operational "review must be approved before promotion")
  require (definition.promotionPolicy = .manualReview)
    (.operational "review datasource does not permit manual promotion")
  require (definition.status = .production)
    (.operational "manual promotion requires a production datasource")
  let runId ← orThrow (review.runId.filter (· ≠ ""))
    (.operational "review is not attached to an ingestion run")
  require (db.succeededProduction runId)
    (.operational "manual promotion requires a successful production ingestion run")
  let decision ← orThrow (db.approval? reviewId)
    (.operational "approved review has no approval decision")
  require (∀ m ∈ db.manualPromotions, m.runId ≠ runId)
    (.operational "run was already manually promoted by another review")
  require (∀ p ∈ db.promotions, ¬ (p.runId = runId ∧ p.decision = .approved))
    (.operational "run already has an approved promotion")
  .ok (review, runId, decision)

/-- `promote_review`. -/
def promoteReview (reviewId actorId : String) (reason : Option String) (now : Time) (db : Db) :
    Except StoreError (ManualPromotionResult × Db) := do
  require (reviewId ≠ "") (.operational "review ID is required")
  require (actorId ≠ "") (.operational "promotion actor is required")
  match db.manualPromotions.find? fun m => m.reviewId = reviewId with
  | some m => .ok (⟨m.reviewId, m.runId, m.promotionId, false⟩, db)
  | none =>
    let (review, runId, decision) ← promotableReview reviewId db
    let details ← env.json (.obj [
      ("review_id", .str reviewId),
      ("datasource_id", .str review.datasourceId),
      ("definition_version", .int review.definitionVersion)])
    let (promotionId, db) ← insertPromotion env runId .approved .manual "operator" actorId reason
      details now db
    require (∀ m ∈ db.manualPromotions, m.decisionId ≠ decision.decisionId)
      (.integrity "UNIQUE constraint failed: manual_review_promotion.decision_id")
    require (∀ m ∈ db.manualPromotions, m.promotionId ≠ promotionId)
      (.integrity "UNIQUE constraint failed: manual_review_promotion.promotion_id")
    .ok (⟨reviewId, runId, promotionId, true⟩, { db with
      manualPromotions := db.manualPromotions ++ [{
        reviewId
        decisionId := decision.decisionId
        runId
        promotionId
        actorId
        reason
        createdAt := now }] })

/-- The newest decision about a run. -/
def Db.latestPromotion? (db : Db) (runId : String) : Option PromotionRow :=
  ((db.promotions.filter fun p => p.runId = runId).insertionSort fun a b =>
    toLex (b.decisionAt, b.promotionSeq) ≤ toLex (a.decisionAt, a.promotionSeq)).head?

/-- `revoke_promotion`. -/
def revokePromotion (runId actorId : String) (reason : Option String) (now : Time) (db : Db) :
    Except StoreError (PromotionRevocationResult × Db) := do
  require (runId ≠ "") (.operational "run ID is required")
  require (actorId ≠ "") (.operational "revocation actor is required")
  let latest ← orThrow (db.latestPromotion? runId) (.operational "run has no promotion to revoke")
  let run ← orThrow (db.runs.find? fun r => r.runId = runId)
    (.operational "run has no promotion to revoke")
  let attempt ← orThrow (db.attempts.find? fun a => a.attemptId = run.attemptId)
    (.operational "run has no promotion to revoke")
  if latest.decision = .revoked then .ok (⟨runId, latest.promotionId, false⟩, db)
  else
    require (latest.decision = .approved)
      (.operational "only an approved promotion can be revoked")
    require (run.lane = .productionIngestion ∧ run.status = .succeeded ∧
        attempt.status = .succeeded)
      (.operational "revocation target must be a successful production run")
    let details ← env.json (.obj [
      ("revokes_promotion_id", .str latest.promotionId),
      ("datasource_id", .str run.datasourceId),
      ("definition_version", .int run.definitionVersion)])
    let (promotionId, db) ← insertPromotion env runId .revoked latest.approvalMode "operator" actorId
      reason details now db
    .ok (⟨runId, promotionId, true⟩, db)

end

end NanFung
