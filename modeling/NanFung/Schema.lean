import NanFung.Registry

/-!
# The operational schema

The tables of `storage/migrations` that the store's operations read and write, each the list of its
rows in insertion order, and the handles those operations hand out. Timestamps are instants
(`isoformat` keeps their order), a `*_json` column is the normalised value it holds. `drawn` counts
the identifiers drawn so far. The audit trail, content objects, source rows and typed projection
tables are not part of the model: no modelled operation reads them.
-/

namespace NanFung

open Table

/-! ## Enumerations -/

inductive JobState where
  | queued
  | claimed
  | running
  | retryWait
  | succeeded
  | empty
  | failed
  | deadLetter
  | cancelled
  deriving DecidableEq, Repr

/-- The states a job never leaves. -/
def JobState.terminal : JobState → Bool
  | .succeeded | .empty | .failed | .deadLetter | .cancelled => true
  | .queued | .claimed | .running | .retryWait => false

def JobState.name : JobState → String
  | .queued => "queued"
  | .claimed => "claimed"
  | .running => "running"
  | .retryWait => "retry_wait"
  | .succeeded => "succeeded"
  | .empty => "empty"
  | .failed => "failed"
  | .deadLetter => "dead_letter"
  | .cancelled => "cancelled"

/-- Status of an attempt and of its ingestion run. -/
inductive AttemptStatus where
  | running
  | succeeded
  | empty
  | partial_
  | failed
  | cancelled
  deriving DecidableEq, Repr

inductive Trigger where
  | schedule
  | agentRequest
  | manual
  | backfill
  | fanout
  | reparse
  | promotion
  | recovery
  deriving DecidableEq, Repr

def Trigger.name : Trigger → String
  | .schedule => "schedule"
  | .agentRequest => "agent_request"
  | .manual => "manual"
  | .backfill => "backfill"
  | .fanout => "fanout"
  | .reparse => "reparse"
  | .promotion => "promotion"
  | .recovery => "recovery"

def Trigger.ofName? (s : String) : Option Trigger :=
  [Trigger.schedule, .agentRequest, .manual, .backfill, .fanout, .reparse, .promotion,
    .recovery].find? fun t => t.name = s

inductive JobKind where
  | scheduledIngest
  | onDemandRefresh
  | backfill
  | offlineReparse
  | manualSubmission
  | projectionDelivery
  deriving DecidableEq, Repr

def JobKind.name : JobKind → String
  | .scheduledIngest => "scheduled_ingest"
  | .onDemandRefresh => "on_demand_refresh"
  | .backfill => "backfill"
  | .offlineReparse => "offline_reparse"
  | .manualSubmission => "manual_submission"
  | .projectionDelivery => "projection_delivery"

/-- The kinds `enqueue` accepts for a datasource job. -/
def JobKind.ofName? (s : String) : Option JobKind :=
  [JobKind.scheduledIngest, .onDemandRefresh, .backfill, .offlineReparse,
    .manualSubmission].find? fun k => k.name = s

inductive RevisionAction where
  | upsert
  | tombstone
  deriving DecidableEq, Repr

inductive PromotionDecision where
  | approved
  | rejected
  | revoked
  deriving DecidableEq, Repr

inductive ApprovalMode where
  | automatic
  | manual
  deriving DecidableEq, Repr

/-- What became of a refresh submission; only the first two are persisted. -/
inductive RefreshDisposition where
  | accepted
  | deduplicated
  | confirmationRequired
  deriving DecidableEq, Repr

inductive ReviewState where
  | open_
  | approved
  | rejected
  | cancelled
  deriving DecidableEq, Repr

/-! ## Rows -/

/-- `datasource_definition`. -/
structure DefinitionRow where
  definition : DatasourceDefinition
  createdAt : Time

/-- `workflow_schedule`. -/
structure ScheduleRow where
  scheduleId : String
  datasourceId : String
  definitionVersion : Nat
  name : String
  lane : Lane
  rule : Json
  ruleHash : String
  timezone : String
  catchupPolicy : CatchupPolicy
  maxCatchupJobs : Nat
  maxCatchupHorizonSeconds : Nat
  cursorAt : Option Time
  nextDueAt : Option Time
  enabled : Bool
  pausedReason : Option String
  createdAt : Time
  updatedAt : Time

/-- `workflow_job`. -/
structure JobRow where
  jobId : String
  dedupeKey : String
  jobKind : JobKind
  datasourceId : Option String
  definitionVersion : Option Nat
  definitionHash : Option String
  scheduleId : Option String
  parentJobId : Option String
  generation : Int
  requestInstanceId : Option String
  lane : Option Lane
  trigger : Trigger
  scheduledFor : Time
  availableAt : Time
  windowStart : Option Time
  windowEnd : Option Time
  priority : Int
  request : Json
  requestHash : String
  state : JobState
  attemptCount : Nat
  maxAttempts : Nat
  claimToken : Option String
  claimedBy : Option String
  claimedAt : Option Time
  leaseExpiresAt : Option Time
  heartbeatAt : Option Time
  lastError : Option Json
  createdAt : Time
  startedAt : Option Time
  completedAt : Option Time
  cancelRequestedAt : Option Time
  cancelRequestedBy : Option String
  deriving DecidableEq

/-- `workflow_attempt`. -/
structure AttemptRow where
  attemptId : String
  jobId : String
  attemptNo : Nat
  status : AttemptStatus
  workerId : String
  error : Option Json
  startedAt : Time
  heartbeatAt : Time
  completedAt : Option Time
  deriving DecidableEq

/-- `ingestion_run`. -/
structure RunRow where
  runId : String
  attemptId : String
  jobId : String
  datasourceId : String
  definitionVersion : Nat
  definitionHash : String
  lane : Lane
  trigger : Trigger
  retrievedAt : Option Time
  recordCount : Nat
  acceptedRecordCount : Nat
  snapshotComplete : Bool
  snapshotScope : Option Json
  snapshotScopeHash : Option String
  status : AttemptStatus
  createdAt : Time
  completedAt : Option Time
  deriving DecidableEq

/-- `evidence_artifact`. -/
structure EvidenceRow where
  evidenceId : String
  contentSha256 : String
  mediaType : Option String
  accessClass : AccessClass
  retentionUntil : Option Time
  retrievedAt : Time
  request : Json
  response : Json
  sourceId : String
  sourceVersion : Nat
  createdAt : Time
  deriving DecidableEq

/-- `run_evidence`. -/
structure RunEvidenceRow where
  runId : String
  evidenceId : String
  role : String
  required : Bool
  deriving DecidableEq

/-- The identity of a revision stream: the key columns of `record_stream_head`. -/
structure StreamKey where
  datasourceId : String
  lane : Lane
  recordKeyVersion : String
  recordKeyHash : String
  deriving DecidableEq

/-- `observation_revision`. -/
structure RevisionRow where
  observationId : String
  stream : StreamKey
  definitionVersion : Nat
  recordKey : Json
  snapshotScopeHash : Option String
  revisionNo : Nat
  revisionAction : RevisionAction
  revisionReason : String
  recordHash : String
  category : String
  recordType : String
  payload : Json
  sourceDate : Option String
  periodLabel : Option String
  unit : Option String
  dataKind : DataKind
  confidence : Confidence
  definition : Option String
  limitations : Json
  parserVersion : String
  schemaVersion : String
  supersedesId : Option String
  createdAt : Time
  deriving DecidableEq

/-- `record_stream_head`. -/
structure HeadRow where
  stream : StreamKey
  observationId : String
  recordHash : String
  revisionNo : Nat
  revisionAction : RevisionAction
  updatedAt : Time
  deriving DecidableEq

/-- `run_observation`. -/
structure RunObservationRow where
  runId : String
  observationId : String
  deriving DecidableEq

/-- `observation_evidence`. -/
structure ObservationEvidenceRow where
  runId : String
  observationId : String
  evidenceId : String
  locator : Json
  locatorHash : String
  deriving DecidableEq

/-- `run_promotion`. -/
structure PromotionRow where
  promotionId : String
  promotionSeq : Nat
  runId : String
  decision : PromotionDecision
  approvalMode : ApprovalMode
  decisionAt : Time
  actorType : String
  actorId : String
  reason : Option String
  details : Json
  deriving DecidableEq

/-- `review_task`. -/
structure ReviewTaskRow where
  reviewId : String
  datasourceId : String
  definitionVersion : Nat
  runId : Option String
  state : ReviewState
  payload : Json
  createdAt : Time
  completedAt : Option Time
  deriving DecidableEq

/-- `review_decision`; its decision is `approved` or `rejected`. -/
structure ReviewDecisionRow where
  decisionId : String
  reviewId : String
  decision : PromotionDecision
  actorId : String
  reason : Option String
  createdAt : Time
  deriving DecidableEq

/-- `manual_review_promotion`. -/
structure ManualPromotionRow where
  reviewId : String
  decisionId : String
  runId : String
  promotionId : String
  actorId : String
  reason : Option String
  createdAt : Time
  deriving DecidableEq

/-- `refresh_request`. -/
structure RefreshRequestRow where
  requestId : String
  principal : String
  requestFingerprint : String
  dedupeKey : String
  datasourceId : String
  definitionVersion : Nat
  requestProfile : String
  jobId : String
  disposition : RefreshDisposition
  initialState : String
  submittedAt : Time
  cooldownUntil : Time
  deriving DecidableEq

/-- `refresh_confirmation`. -/
structure RefreshConfirmationRow where
  confirmationToken : String
  requestId : String
  principal : String
  requestFingerprint : String
  datasourceId : String
  definitionVersion : Nat
  dayStartAt : Time
  issuedAt : Time
  expiresAt : Time
  deriving DecidableEq

/-! ## The store -/

/-- The database. -/
structure Db where
  definitions : List DefinitionRow := []
  schedules : List ScheduleRow := []
  jobs : List JobRow := []
  attempts : List AttemptRow := []
  runs : List RunRow := []
  evidence : List EvidenceRow := []
  runEvidence : List RunEvidenceRow := []
  revisions : List RevisionRow := []
  heads : List HeadRow := []
  runObservations : List RunObservationRow := []
  observationEvidence : List ObservationEvidenceRow := []
  promotions : List PromotionRow := []
  reviewTasks : List ReviewTaskRow := []
  reviewDecisions : List ReviewDecisionRow := []
  manualPromotions : List ManualPromotionRow := []
  refreshRequests : List RefreshRequestRow := []
  refreshConfirmations : List RefreshConfirmationRow := []
  drawn : Nat := 0

/-- The row of a definition, by the primary key. -/
def Db.definition? (db : Db) (datasourceId : String) (definitionVersion : Nat) :
    Option DefinitionRow :=
  db.definitions.find? fun r => r.definition.key = (datasourceId, definitionVersion)

/-! ## Handles -/

/-- `ClaimedJob`. -/
structure ClaimedJob where
  jobId : String
  claimToken : String
  datasourceId : Option String
  definitionVersion : Option Nat
  lane : Option Lane
  jobKind : JobKind
  windowStart : Option Time
  windowEnd : Option Time
  request : Json
  deriving DecidableEq

/-- `RunHandle`. -/
structure RunHandle where
  runId : String
  attemptId : String
  jobId : String
  claimToken : String
  datasourceId : String
  definitionVersion : Nat
  lane : Lane
  deriving DecidableEq

/-- `SystemJobHandle`. -/
structure SystemJobHandle where
  attemptId : String
  jobId : String
  claimToken : String
  jobKind : JobKind
  deriving DecidableEq

end NanFung
