import NanFung.Store.Leases

/-!
# Ingestion records

What a running attempt writes: evidence, observation revisions with their stream heads, the scope and
the tombstones of a full snapshot, and the end of the run with its automatic promotion.
-/

namespace NanFung

open Table

/-- `PersistedEvidence`. -/
structure PersistedEvidence where
  evidenceId : String
  artifact : Artifact
  deriving DecidableEq

section

variable (env : Env)

/-! ## Evidence -/

/-- `_validate_bound_source_url`. -/
def validateBoundSourceUrl (allowedHosts : List String) (url method : String) :
    Except StoreError Unit := do
  require (allowedHosts ≠ []) (.operational "bound source has no approved network host")
  require (env.sourceUrlAllowed allowedHosts url method)
    (.operational "evidence has unapproved source provenance")

/-- `_validate_evidence_provenance`. -/
def validateEvidenceProvenance (binding : SourceBinding) (request response : List (String × Json)) :
    Except StoreError Unit := do
  let source ← env.registry.lookupSource env.platform binding.sourceId binding.sourceVersion
  match Json.lookup "method" request with
  | some (.str "MANUAL_IMPORT") =>
    match Json.lookup "source_url" request with
    | none | some .null => .ok ()
    | some (.str url) => validateBoundSourceUrl env source.allowedHosts url "GET"
    | some _ => .error (.operational "manual evidence source URL must be a string")
  | some (.str method) => do
    require (method.toUpper = "GET") (.operational "evidence acquisition method must be GET")
    match Json.lookup "url" request, Json.lookup "final_url" response with
    | some (.str requestUrl), some (.str finalUrl) => do
      match Json.lookup "status" response with
      | some (.int status) => do
        require (200 ≤ status ∧ status < 300)
          (.operational "canonical evidence requires a successful HTTP response")
        validateBoundSourceUrl env source.allowedHosts requestUrl method
        validateBoundSourceUrl env source.allowedHosts finalUrl method
      | _ => .error (.operational "canonical evidence requires a successful HTTP response")
    | _, _ => .error (.operational "evidence requires request and final response URLs")
  | _ => .error (.operational "evidence acquisition method must be GET")

/-- `_retention_deadline`. -/
def retentionDeadline (policy : String) (retrievedAt : Time) (requestedUntil : Option Time) :
    Except StoreError (Option Time) :=
  if policy = "open_official" ∨ policy = "internal_config" then do
    require (requestedUntil = none)
      (.operational "project-lifetime evidence cannot set a retention deadline")
    .ok none
  else do
    let deadline ← orThrow requestedUntil
      (.operational "source retention policy requires an approved retention deadline")
    require (retrievedAt < deadline)
      (.operational "retention deadline must be after evidence retrieval")
    .ok (some deadline)

/-- The arguments of `persist_evidence` besides the run. -/
structure EvidenceArgs where
  body : EvidenceBody
  role : String := "primary"
  mediaType : Option String := none
  request : List (String × Json) := []
  response : List (String × Json) := []
  sourceId : Option String := none
  required : Bool := true
  retrievedAt : Option Time := none
  retentionUntil : Option Time := none

/-- `_prepare_evidence_metadata`: the definition, its source binding and the retention deadline. -/
def prepareEvidenceMetadata (run : RunHandle) (args : EvidenceArgs) (now : Time) :
    Except StoreError (DatasourceDefinition × SourceBinding × Option Time) := do
  let definition ← env.registry.lookup env.platform run.datasourceId (some run.definitionVersion)
  let wanted := orText args.sourceId (definition.sourceBindings.head definition.bindings_ne).sourceId
  match definition.sourceBindings.filter fun b => b.sourceId = wanted with
  | [binding] => do
    validateEvidenceProvenance env binding args.request args.response
    let retention ← retentionDeadline definition.retentionPolicy (args.retrievedAt.getD now)
      args.retentionUntil
    .ok (definition, binding, retention)
  | _ => .error (.operational "evidence source must be exactly one bound definition source")

/-- The media type recorded for evidence: an artifact's own one wins and must not disagree. -/
def effectiveMediaType (args : EvidenceArgs) : Except StoreError (Option String) :=
  match args.body with
  | .bytes _ => .ok args.mediaType
  | .stored artifact => do
    require (∀ m ∈ args.mediaType, ∀ n ∈ artifact.mediaType, m = n)
      (.operational "stored artifact media type does not match evidence metadata")
    .ok (artifact.mediaType.or args.mediaType)

/-- The transaction of `persist_evidence`, once the bytes are published. -/
def persistEvidenceTx (run : RunHandle) (args : EvidenceArgs) (definition : DatasourceDefinition)
    (binding : SourceBinding) (retention : Option Time) (mediaType : Option String)
    (artifact : Artifact) (now : Time) (db : Db) : Except StoreError (PersistedEvidence × Db) := do
  let evidenceId := env.newId "ev" db.drawn
  let _ ← requireRunningRun run now db
  let request ← env.json (env.platform.redactSecrets (.obj args.request))
  let response ← env.json (env.platform.redactSecrets (.obj args.response))
  require (∀ e ∈ db.evidence, e.evidenceId ≠ evidenceId)
    (.integrity "UNIQUE constraint failed: evidence_artifact.evidence_id")
  require (∃ r ∈ db.runs, r.runId = run.runId) (.integrity "FOREIGN KEY constraint failed")
  .ok (⟨evidenceId, artifact⟩, { db with
    evidence := db.evidence ++ [{
      evidenceId
      contentSha256 := artifact.contentSha256
      mediaType
      accessClass := definition.accessClass
      retentionUntil := retention
      retrievedAt := args.retrievedAt.getD now
      request
      response
      sourceId := binding.sourceId
      sourceVersion := binding.sourceVersion
      createdAt := now }]
    runEvidence := db.runEvidence ++ [⟨run.runId, evidenceId, args.role, args.required⟩]
    drawn := db.drawn + 1 })

/-- `persist_evidence`. -/
def persistEvidence (run : RunHandle) (args : EvidenceArgs) (now : Time) (db : Db) :
    Except StoreError (PersistedEvidence × Db) := do
  let (definition, binding, retention) ← prepareEvidenceMetadata env run args now
  let mediaType ← effectiveMediaType args
  let artifact ← env.publishArtifact definition args.body mediaType
  persistEvidenceTx env run args definition binding retention mediaType artifact now db

/-! ## Observations -/

/-- The arguments of `persist_observation` besides the run. -/
structure ObservationArgs where
  recordKey : List String
  payload : List (String × Json)
  recordType : String
  category : String
  evidence : List PersistedEvidence
  sourceDate : Option String := none
  periodLabel : Option String := none
  unit : Option String := none
  definitionText : Option String := none
  limitations : List String := []
  locator : Option (List (String × Json)) := none
  reason : String := "first_seen"

/-- The stream of a record key under a definition. -/
def streamOf (run : RunHandle) (definition : DatasourceDefinition) (keyHash : String) : StreamKey :=
  ⟨run.datasourceId, run.lane, definition.recordKeyVersion, keyHash⟩

/-- The envelope `persist_observation` hashes. -/
def upsertEnvelope (run : RunHandle) (definition : DatasourceDefinition) (args : ObservationArgs) :
    Platform.Envelope where
  datasourceId := run.datasourceId
  definitionVersion := run.definitionVersion
  recordType := args.recordType
  schemaVersion := definition.schemaVersion
  revisionAction := "upsert"
  recordKey := .arr (args.recordKey.map .str)
  payload := .obj args.payload
  sourceDate := args.sourceDate
  periodLabel := args.periodLabel
  unit := args.unit
  dataKind := definition.dataKind.name
  confidence := definition.defaultConfidence.name
  snapshotScopeHash := none
  definition := args.definitionText
  limitations := .arr (args.limitations.map .str)

/-- The reason recorded on a new revision. -/
def revisionReason (head : Option HeadRow) (reason : String) : String :=
  match head with
  | none => reason
  | some h => if h.revisionAction = .tombstone then "reappearance" else "changed"

/-- The revision `persist_observation` inserts after a head. -/
def upsertRevision (run : RunHandle) (definition : DatasourceDefinition) (args : ObservationArgs)
    (stream : StreamKey) (recordHash : String) (scopeHash : Option String) (head : Option HeadRow)
    (observationId : String) (recordKey payload limitations : Json) (now : Time) : RevisionRow where
  observationId := observationId
  stream := stream
  definitionVersion := run.definitionVersion
  recordKey := recordKey
  snapshotScopeHash := scopeHash
  revisionNo := (head.map (·.revisionNo)).getD 0 + 1
  revisionAction := .upsert
  revisionReason := revisionReason head args.reason
  recordHash := recordHash
  category := args.category
  recordType := args.recordType
  payload := payload
  sourceDate := args.sourceDate
  periodLabel := args.periodLabel
  unit := args.unit
  dataKind := definition.dataKind
  confidence := definition.defaultConfidence
  definition := args.definitionText
  limitations := limitations
  parserVersion := definition.parserVersion
  schemaVersion := definition.schemaVersion
  supersedesId := head.map (·.observationId)
  createdAt := now

/-- The head row of a revision. -/
def headOf (r : RevisionRow) (now : Time) : HeadRow :=
  ⟨r.stream, r.observationId, r.recordHash, r.revisionNo, r.revisionAction, now⟩

/-- `INSERT … ON CONFLICT DO UPDATE` on the stream heads. -/
def upsertHead (h : HeadRow) (heads : List HeadRow) : List HeadRow :=
  if ∃ g ∈ heads, g.stream = h.stream then
    updateWhere (fun g => g.stream = h.stream) (fun _ => h) heads
  else heads ++ [h]

/-- `INSERT INTO observation_revision`. -/
def insertRevision (r : RevisionRow) (db : Db) : Except StoreError Db := do
  require (∀ o ∈ db.revisions, o.observationId ≠ r.observationId)
    (.integrity "UNIQUE constraint failed: observation_revision.observation_id")
  require (∀ o ∈ db.revisions, (o.stream, o.revisionNo) ≠ (r.stream, r.revisionNo))
    (.integrity "UNIQUE constraint failed: observation_revision.revision_no")
  require ((db.definition? r.stream.datasourceId r.definitionVersion).isSome)
    (.integrity "FOREIGN KEY constraint failed")
  .ok { db with revisions := db.revisions ++ [r] }

/-- `INSERT OR IGNORE INTO run_observation`, counting a new link on the running run. -/
def linkObservation (runId observationId : String) (db : Db) : Db :=
  if ⟨runId, observationId⟩ ∈ db.runObservations then db
  else { db with
    runObservations := db.runObservations ++ [⟨runId, observationId⟩]
    runs := updateWhere (fun r => r.runId = runId ∧ r.status = .running)
      (fun r => { r with
        recordCount := r.recordCount + 1
        acceptedRecordCount := r.acceptedRecordCount + 1 }) db.runs }

/-- The locator of one evidence item. -/
def evidenceLocator (item : PersistedEvidence) (locator : Option (List (String × Json))) : Json :=
  .obj ([("evidence_id", .str item.evidenceId), ("role", .str "primary")] ++
    match locator with
    | some members => [("record_locator", .obj members)]
    | none => [])

/-- `INSERT OR IGNORE INTO observation_evidence` for one evidence item. -/
def linkEvidence (runId observationId : String) (locator : Option (List (String × Json))) (db : Db)
    (item : PersistedEvidence) : Except StoreError Db := do
  let value := evidenceLocator item locator
  let locatorJson ← env.json value
  let hash ← env.platform.locatorHash value
  let row : ObservationEvidenceRow := ⟨runId, observationId, item.evidenceId, locatorJson, hash⟩
  if ∃ r ∈ db.observationEvidence, (r.runId, r.observationId, r.evidenceId, r.locatorHash) =
      (row.runId, row.observationId, row.evidenceId, row.locatorHash) then .ok db
  else .ok { db with observationEvidence := db.observationEvidence ++ [row] }

/-- Reuse the head revision of a stream, or append a revision and move the head to it. -/
def reviseStream (run : RunHandle) (definition : DatasourceDefinition) (args : ObservationArgs)
    (stream : StreamKey) (recordHash : String) (scopeHash : Option String) (now : Time) (db : Db) :
    Except StoreError (String × Db) :=
  let head := db.heads.find? fun h => h.stream = stream
  match head.filter fun h => h.recordHash = recordHash ∧ h.revisionAction = .upsert with
  | some h => .ok (h.observationId, db)
  | none => do
    let recordKey ← env.json (.arr (args.recordKey.map .str))
    let payload ← env.json (.obj args.payload)
    let limitations ← env.json (.arr (args.limitations.map .str))
    let revision := upsertRevision run definition args stream recordHash scopeHash head
      (env.newId "obs" db.drawn) recordKey payload limitations now
    let db ← insertRevision revision { db with drawn := db.drawn + 1 }
    .ok (revision.observationId, { db with heads := upsertHead (headOf revision now) db.heads })

/-- The transaction of `persist_observation`. -/
def persistObservationTx (run : RunHandle) (definition : DatasourceDefinition)
    (args : ObservationArgs) (keyHash recordHash : String) (now : Time) (db : Db) :
    Except StoreError (String × Db) := do
  let _ ← requireRunningRun run now db
  require (∀ item ∈ args.evidence,
      ∃ e ∈ db.runEvidence, e.runId = run.runId ∧ e.evidenceId = item.evidenceId)
    (.operational "observation evidence must be attached to its ingestion run")
  let scopeHash := (db.runs.find? fun r => r.runId = run.runId).bind (·.snapshotScopeHash)
  require (definition.snapshotMode = .fullSnapshot → ∃ s ∈ scopeHash, s ≠ "")
    (.operational "full snapshot observations require a declared scope")
  let (observationId, db) ← reviseStream env run definition args
    (streamOf run definition keyHash) recordHash scopeHash now db
  let db := linkObservation run.runId observationId db
  let db ← args.evidence.foldlM (linkEvidence env run.runId observationId args.locator) db
  .ok (observationId, db)

/-- `persist_observation`. -/
def persistObservation (run : RunHandle) (args : ObservationArgs) (now : Time) (db : Db) :
    Except StoreError (String × Db) := do
  let definition ← env.registry.lookup env.platform run.datasourceId (some run.definitionVersion)
  require (args.evidence ≠ []) (.operational "an observation requires persisted evidence")
  let keyHash ← env.platform.recordKeyHash run.datasourceId definition.recordKeyVersion
    args.recordKey
  let recordHash ← env.platform.observationHash (upsertEnvelope run definition args)
  persistObservationTx env run definition args keyHash recordHash now db

/-! ## Full snapshots -/

/-- `begin_full_snapshot`. -/
def beginFullSnapshot (run : RunHandle) (scope : List (String × Json)) (now : Time) (db : Db) :
    Except StoreError (String × Db) := do
  let definition ← env.registry.lookup env.platform run.datasourceId (some run.definitionVersion)
  require (definition.snapshotMode = .fullSnapshot)
    (.operational "only full_snapshot definitions may declare a deletion scope")
  let scopeHash ← env.platform.requestHash (.obj [("snapshot_scope", .obj scope)])
  let _ ← requireRunningRun run now db
  let scopeJson ← env.json (.obj [("scope", .obj scope)])
  let undeclared : RunRow → Bool := fun r =>
    r.runId = run.runId ∧ r.status = .running ∧ r.snapshotScopeHash = none
  require (rowcount undeclared db.runs = 1)
    (.operational "full snapshot scope is already set or run is inactive")
  .ok (scopeHash, { db with
    runs := updateWhere undeclared (fun r => { r with
      snapshotScope := some scopeJson
      snapshotScopeHash := some scopeHash
      snapshotComplete := false }) db.runs })

/-- The record key hashes a run has linked an upsert for. -/
def Db.seenKeys (db : Db) (runId : String) : List String :=
  (db.runObservations.filter fun ro => ro.runId = runId).filterMap fun ro =>
    (db.revisions.find? fun o => o.observationId = ro.observationId).bind fun o =>
      if o.revisionAction = .upsert then some o.stream.recordKeyHash else none

/-- The upsert heads of a lane whose revision carries a scope, with that revision. -/
def Db.scopeHeads (db : Db) (datasourceId : String) (lane : Lane) (recordKeyVersion : String)
    (scopeHash : String) : List (HeadRow × RevisionRow) :=
  (db.heads.filterMap fun h =>
    if h.stream.datasourceId = datasourceId ∧ h.stream.lane = lane ∧
        h.stream.recordKeyVersion = recordKeyVersion ∧ h.revisionAction = .upsert then
      (db.revisions.find? fun o => o.observationId = h.observationId).bind fun o =>
        if o.snapshotScopeHash = some scopeHash then some (h, o) else none
    else none).insertionSort fun a b => a.1.stream.recordKeyHash ≤ b.1.stream.recordKeyHash

/-- The envelope of a tombstone. -/
def tombstoneEnvelope (run : RunHandle) (definition : DatasourceDefinition) (scopeHash : String)
    (o : RevisionRow) : Platform.Envelope where
  datasourceId := run.datasourceId
  definitionVersion := run.definitionVersion
  recordType := o.recordType
  schemaVersion := definition.schemaVersion
  revisionAction := "tombstone"
  recordKey := o.recordKey
  payload := .obj []
  sourceDate := o.sourceDate
  periodLabel := o.periodLabel
  unit := o.unit
  dataKind := o.dataKind.name
  confidence := o.confidence.name
  snapshotScopeHash := some scopeHash
  definition := o.definition
  limitations := o.limitations

/-- The tombstone revision after a head. -/
def tombstoneRevision (run : RunHandle) (definition : DatasourceDefinition) (scopeHash : String)
    (h : HeadRow) (o : RevisionRow) (observationId digest : String) (now : Time) : RevisionRow where
  observationId := observationId
  stream := streamOf run definition h.stream.recordKeyHash
  definitionVersion := run.definitionVersion
  recordKey := o.recordKey
  snapshotScopeHash := some scopeHash
  revisionNo := h.revisionNo + 1
  revisionAction := .tombstone
  revisionReason := "tombstone"
  recordHash := digest
  category := o.category
  recordType := o.recordType
  payload := .obj []
  sourceDate := o.sourceDate
  periodLabel := o.periodLabel
  unit := o.unit
  dataKind := o.dataKind
  confidence := o.confidence
  definition := o.definition
  limitations := o.limitations
  parserVersion := definition.parserVersion
  schemaVersion := definition.schemaVersion
  supersedesId := some h.observationId
  createdAt := now

/-- One iteration of the loop over the scope's heads: a tombstone with its lineage. -/
def writeTombstone (run : RunHandle) (definition : DatasourceDefinition) (scopeHash : String)
    (evidenceId : String) (now : Time) (acc : List String × Db) (row : HeadRow × RevisionRow) :
    Except StoreError (List String × Db) := do
  let (ids, db) := acc
  let (h, o) := row
  let digest ← env.platform.observationHash (tombstoneEnvelope run definition scopeHash o)
  let revision := tombstoneRevision run definition scopeHash h o (env.newId "obs" db.drawn) digest now
  let db ← insertRevision revision { db with drawn := db.drawn + 1 }
  let locator := Json.obj [
    ("evidence_id", .str evidenceId), ("role", .str "snapshot_tombstone")]
  let locatorJson ← env.json locator
  let hash ← env.platform.locatorHash locator
  .ok (ids ++ [revision.observationId], { db with
    heads := updateWhere
      (fun g => g.stream = revision.stream ∧ g.observationId = h.observationId)
      (fun _ => headOf revision now) db.heads
    runObservations := db.runObservations ++ [⟨run.runId, revision.observationId⟩]
    observationEvidence := db.observationEvidence ++
      [⟨run.runId, revision.observationId, evidenceId, locatorJson, hash⟩] })

/-- The evidence a tombstone of a run points to: its first required one. -/
def Db.requiredEvidence? (db : Db) (runId : String) : Option String :=
  (((db.runEvidence.filter fun e => e.runId = runId ∧ e.required).map (·.evidenceId)).insertionSort
    (· ≤ ·)).head?

/-- What `finalize_full_snapshot` asks of the completeness proof. -/
def proofComplete (proof : List (String × Json)) (scopeHash : String) : Prop :=
  Json.lookup "complete" proof = some (.bool true) ∧
    Json.lookup "snapshot_scope_hash" proof = some (.str scopeHash) ∧
    ((Json.lookup "schema_version" proof).bind Json.asStr?).isSome

instance (proof : List (String × Json)) (scopeHash : String) :
    Decidable (proofComplete proof scopeHash) := inferInstanceAs (Decidable (_ ∧ _ ∧ _))

/-- `json.loads(snapshot_scope_json)` with the proof added. -/
def scopeWithProof (scope : Option Json) (proof : List (String × Json)) : Json :=
  match scope with
  | some (.obj members) => .obj (Json.insert "completeness_proof" (.obj proof) members)
  | _ => .obj [("completeness_proof", .obj proof)]

/-- `finalize_full_snapshot`. -/
def finalizeFullSnapshot (run : RunHandle) (proof : List (String × Json)) (now : Time) (db : Db) :
    Except StoreError (List String × Db) := do
  let definition ← env.registry.lookup env.platform run.datasourceId (some run.definitionVersion)
  require (definition.snapshotMode = .fullSnapshot)
    (.operational "only full_snapshot definitions may infer tombstones")
  require (proof ≠ []) (.operational "full snapshot requires a non-empty completeness proof")
  let _ ← requireRunningRun run now db
  let runRow := db.runs.find? fun r => r.runId = run.runId ∧ r.status = .running
  let scopeHash ← orThrow ((runRow.bind (·.snapshotScopeHash)).filter (· ≠ ""))
    (.operational "full snapshot scope must be declared before finalization")
  require (proofComplete proof scopeHash)
    (.operational "full snapshot completeness proof must be validated for its exact scope")
  let evidenceId ← orThrow (db.requiredEvidence? run.runId)
    (.operational "full snapshot tombstones require current-run evidence")
  let seen := db.seenKeys run.runId
  let missing := (db.scopeHeads run.datasourceId run.lane definition.recordKeyVersion
    scopeHash).filter fun row => row.1.stream.recordKeyHash ∉ seen
  let (ids, db) ← missing.foldlM (writeTombstone env run definition scopeHash evidenceId now)
    ([], db)
  let scope ← env.json (scopeWithProof (runRow.bind (·.snapshotScope)) proof)
  .ok (ids, { db with
    runs := updateWhere (fun r => r.runId = run.runId ∧ r.status = .running) (fun r => { r with
      snapshotComplete := true
      snapshotScope := some scope
      recordCount := r.recordCount + ids.length
      acceptedRecordCount := r.acceptedRecordCount + ids.length }) db.runs })

/-! ## The end of a run -/

/-- The arguments of `finish_run` besides the run. -/
structure FinishArgs where
  status : AttemptStatus
  retryable : Bool := false
  retryAt : Option Time := none
  error : Option (List (String × Json)) := none
  promote : Bool := false

/-- The job state a terminal run status leads to. -/
def finishedJobState (job : JobRow) (status : AttemptStatus) (retryable : Bool) : JobState :=
  match status with
  | .succeeded => .succeeded
  | .empty => .empty
  | _ =>
    if retryable then
      if job.attemptCount < job.maxAttempts then .retryWait else .deadLetter
    else if status = .cancelled then .cancelled else .failed

/-- `COALESCE(MAX(promotion_seq), 0) + 1`. -/
def Db.nextPromotionSeq (db : Db) : Nat :=
  ((db.promotions.map (·.promotionSeq)).max?).getD 0 + 1

/-- `INSERT INTO run_promotion`. -/
def insertPromotion (runId : String) (decision : PromotionDecision) (mode : ApprovalMode)
    (actorType actorId : String) (reason : Option String) (details : Json) (now : Time) (db : Db) :
    Except StoreError (String × Db) := do
  let promotionId := env.newId "promotion" db.drawn
  require (∀ p ∈ db.promotions, p.promotionId ≠ promotionId)
    (.integrity "UNIQUE constraint failed: run_promotion.promotion_id")
  .ok (promotionId, { db with
    promotions := db.promotions ++ [{
      promotionId
      promotionSeq := db.nextPromotionSeq
      runId
      decision
      approvalMode := mode
      decisionAt := now
      actorType
      actorId
      reason
      details }]
    drawn := db.drawn + 1 })

/-- The rows `finish_run` closes: the attempt, the run and the job. -/
def closeRun (run : RunHandle) (status : AttemptStatus) (state : JobState) (retryAt : Time)
    (error : Option Json) (now : Time) (db : Db) : Db :=
  { db with
    attempts := updateWhere (fun a => a.attemptId = run.attemptId ∧ a.status = .running)
      (AttemptRow.close status now error) db.attempts
    runs := updateWhere (fun r => r.runId = run.runId) (RunRow.close status now) db.runs
    jobs := updateWhere
      (fun j => j.jobId = run.jobId ∧ j.claimToken = some run.claimToken ∧ j.state = .running)
      (fun j => j.release state (if state.terminal then some now else none)
        (if state = .retryWait then retryAt else j.availableAt) (some now) error) db.jobs }

/-- The promotion step of `finish_run`. -/
def promoteFinished (run : RunHandle) (definition : DatasourceDefinition) (now : Time) (db : Db) :
    Except StoreError Db := do
  require (definition.snapshotMode = .fullSnapshot →
      (db.runs.find? fun r => r.runId = run.runId).map (·.snapshotComplete) = some true)
    (.operational "full snapshot must be finalized before promotion")
  let (_, db) ← insertPromotion env run.runId .approved .automatic "service" "daemon" none (.obj [])
    now db
  .ok db

/-- `finish_run`. -/
def finishRun (run : RunHandle) (args : FinishArgs) (now : Time) (db : Db) :
    Except StoreError (Unit × Db) := do
  require (args.status ≠ .running) (.operational "invalid terminal attempt status")
  require (args.retryAt.isSome → args.retryable = true)
    (.operational "retry_at requires a retryable run")
  let definition ← env.registry.lookup env.platform run.datasourceId (some run.definitionVersion)
  require (args.promote = true → args.status = .succeeded ∧ run.lane = .productionIngestion)
    (.operational "only successful production runs can be promoted")
  require (args.promote = true → definition.promotionPolicy = .automatic)
    (.operational "definition requires an approved manual review")
  let (job, policy) ← requireRunningRun run now db
  let state := finishedJobState job args.status args.retryable
  let normalRetryAt ← retryTimestamp now policy job.attemptCount
  let error ← env.optJson args.error
  let db := closeRun run args.status state ((args.retryAt.map (max normalRetryAt)).getD normalRetryAt)
    error now db
  if args.promote then do
    let db ← promoteFinished env run definition now db
    .ok ((), db)
  else .ok ((), db)

end

end NanFung
