import NanFung.Read.Records

/-!
# Health of the datasources

`_HEALTH_SQL` and `_health_rows` of the read repository: one row for each datasource definition that
the reader may see, with its last attempt, its last retrieval and its last canonical observation; and
the page that `ReadService.query` makes of them. All rows carry one instant, so the page is ordered by
the datasource.
-/

namespace NanFung

open Table

/-- A row of `_HEALTH_SQL`. -/
structure HealthRow where
  definition : DatasourceDefinition
  lastAttemptAt : Option Time
  lastSuccessAt : Option Time
  lastAttemptStatus : Option AttemptStatus
  lastAttemptLane : Option Lane
  lastRetrievalAt : Option Time
  lastRetrievalLane : Option Lane
  lastPromotedRunId : Option String
  lastPromotedAt : Option Time
  sourceDate : Option String
  nextDueAt : Option Time

namespace Db

variable (db : Db) (d : DatasourceDefinition)

/-- `attempt_rows` of a definition. -/
def attemptRows : List (RunRow × AttemptRow) :=
  (db.runs.filter fun r => (r.datasourceId, r.definitionVersion) = d.key).filterMap fun r =>
    (db.attempts.find? fun a => a.attemptId = r.attemptId).map (r, ·)

/-- `latest_attempt`. -/
def latestAttempt : Option (RunRow × AttemptRow) :=
  ((db.attemptRows d).insertionSort fun a b =>
    toLex (b.2.startedAt, b.2.attemptId) ≤ toLex (a.2.startedAt, a.2.attemptId)).head?

/-- `latest_success`: the lane and the completion; a row without one comes last. -/
def latestSuccess : Option (Lane × Time) :=
  let successful := ((db.attemptRows d).filter fun a => a.2.status = .succeeded).filterMap fun a =>
    a.2.completedAt.map fun t => (a.1.lane, t, a.2.attemptId)
  (successful.insertionSort fun a b => toLex b.2 ≤ toLex a.2).head?.map fun a => (a.1, a.2.1)

/-- `latest_canonical`. -/
def latestCanonical : Option CanonicalEvent :=
  (((db.runObservations.filterMap db.canonicalEventRow).filter fun e =>
      (e.revision.stream.datasourceId, e.revision.definitionVersion) = d.key).insertionSort fun a b =>
    toLex (b.availableAt, b.canonicalRunId) ≤ toLex (a.availableAt, a.canonicalRunId)).head?

/-- `schedule_summary`. -/
def nextDueAt : Option Time :=
  ((db.schedules.filter fun s =>
    (s.datasourceId, s.definitionVersion) = d.key ∧ s.enabled = true).filterMap (·.nextDueAt)).min?

def healthRow : HealthRow where
  definition := d
  lastAttemptAt := ((db.attemptRows d).map fun a => a.2.startedAt).max?
  lastSuccessAt := (((db.attemptRows d).filter fun a => a.2.status = .succeeded).filterMap
    fun a => a.2.completedAt).max?
  lastAttemptStatus := (db.latestAttempt d).map (·.2.status)
  lastAttemptLane := (db.latestAttempt d).map (·.1.lane)
  lastRetrievalAt := (db.latestSuccess d).map Prod.snd
  lastRetrievalLane := (db.latestSuccess d).map Prod.fst
  lastPromotedRunId := (db.latestCanonical d).map (·.canonicalRunId)
  lastPromotedAt := (db.latestCanonical d).map (·.availableAt)
  sourceDate := (db.latestCanonical d).bind (·.revision.sourceDate)
  nextDueAt := db.nextDueAt d

/-- `_HEALTH_SQL`, for the access classes of a reader. -/
def healthSql (classes : List AccessClass) : List HealthRow :=
  (db.definitions.filter fun r => r.definition.accessClass ∈ classes).map fun r =>
    db.healthRow r.definition

end Db

/-! ## Records -/

/-- The fields of a `ReadRecord` of kind `health`. -/
structure HealthRecord where
  observationId : String
  datasourceId : String
  category : String
  accessClass : AccessClass
  availableAt : Time
  payload : List (String × Json)
  retrievalFreshness : Freshness
  observationFreshness : Freshness
  degraded : Bool
  canonicalAvailable : Bool

def AttemptStatus.name : AttemptStatus → String
  | .running => "running"
  | .succeeded => "succeeded"
  | .empty => "empty"
  | .partial_ => "partial"
  | .failed => "failed"
  | .cancelled => "cancelled"

def DescriptorStatus.name : DescriptorStatus → String
  | .draft => "draft"
  | .discovery => "discovery"
  | .production => "production"
  | .retired => "retired"

namespace HealthRow

variable (row : HealthRow)

def text (value : Option String) : Json := (value.map Json.str).getD .null

def instant (value : Option Time) : Json := text (value.map isoformat)

def payload : List (String × Json) :=
  [("definition_version", .int row.definition.definitionVersion),
    ("status", .str row.definition.status.name),
    ("last_attempt_at", instant row.lastAttemptAt),
    ("last_attempt_status", text (row.lastAttemptStatus.map AttemptStatus.name)),
    ("last_success_at", instant row.lastSuccessAt),
    ("last_attempt_lane", text (row.lastAttemptLane.map Lane.name)),
    ("last_retrieval_at", instant row.lastRetrievalAt),
    ("last_retrieval_lane", text (row.lastRetrievalLane.map Lane.name)),
    ("last_promoted_run_id", text row.lastPromotedRunId),
    ("last_promoted_at", instant row.lastPromotedAt),
    ("latest_observation_date", text row.sourceDate),
    ("next_due_at", instant row.nextDueAt)]

/-- `failed_attempt` -/
def failedAttempt : Bool :=
  row.lastAttemptAt.isSome &&
    decide (row.lastAttemptStatus ∈ [some .failed, some .partial_, some .cancelled])

end HealthRow

/-- The record of a row, with the checks of `ReadRecord.__post_init__`. -/
def healthRecord (row : HealthRow) (asOf : Time) : Except ReadError HealthRecord := do
  let d := row.definition
  let canonicalAvailable := decide (row.lastPromotedRunId.getD "" ≠ "")
  let retrievalFreshness ← freshnessFor row.lastRetrievalAt d.definitionJson asOf
  let observationFreshness ← freshnessFor (sourceTimestamp row.sourceDate) d.definitionJson asOf
  let degraded := row.failedAttempt ||
    decide (Freshness.stale ∈ [retrievalFreshness, observationFreshness])
  require (d.category ≠ "") (.invalidReadRequest "category must be non-empty")
  require (payloadBytes row.payload ≤ maxRecordPayloadBytes)
    (.invalidReadRequest "record payload exceeds the read response bound")
  .ok {
    observationId := "health:" ++ d.datasourceId
    datasourceId := d.datasourceId
    category := d.category
    accessClass := d.accessClass
    availableAt := asOf
    payload := row.payload
    retrievalFreshness := if row.lastRetrievalAt.isSome then retrievalFreshness else .neverIngested
    observationFreshness := if canonicalAvailable then observationFreshness else .neverIngested
    degraded
    canonicalAvailable }

/-- `_sort_key`, compared from the greatest down. -/
def HealthRecord.notAfter (a b : HealthRecord) : Prop :=
  toLex (b.availableAt, b.observationId) ≤ toLex (a.availableAt, a.observationId)

instance : DecidableRel HealthRecord.notAfter := fun a b =>
  inferInstanceAs (Decidable (toLex (b.availableAt, b.observationId) ≤
    toLex (a.availableAt, a.observationId)))

/-- `ReadService.query` for kind `health` without filters or a cursor. -/
def queryHealth (db : Db) (classes : List AccessClass) (asOf : Time) (limit : Nat) :
    Except ReadError (List HealthRecord) := do
  let candidates ← (db.healthSql classes).mapM fun row => healthRecord row asOf
  let records := candidates.filter fun r => r.availableAt ≤ asOf ∧ r.accessClass ∈ classes
  .ok ((records.insertionSort HealthRecord.notAfter).take limit)

end NanFung
