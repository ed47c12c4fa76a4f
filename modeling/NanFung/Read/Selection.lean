import NanFung.Store.Review

/-!
# Canonical selection

What a reader sees of the store at an anchor: `_CANONICAL_AS_OF_SQL` of the read repository and the
evidence it attaches to the selected rows; and the views `canonical_event_v1` and
`canonical_latest_v1`. The statements join up to seven tables; a join along a foreign key is a lookup
by it.
-/

namespace NanFung

open Table

/-- A row of the selection: the columns of the joins a reader uses. -/
structure CanonicalRow where
  canonicalRunId : String
  availableAt : Time
  lane : Lane
  revision : RevisionRow
  definition : DatasourceDefinition
  deriving DecidableEq

namespace CanonicalRow

variable (e : CanonicalRow)

/-- `PARTITION BY datasource_id, record_key_version, record_key_hash`. -/
def record : String × String × String :=
  (e.revision.stream.datasourceId, e.revision.stream.recordKeyVersion,
    e.revision.stream.recordKeyHash)

end CanonicalRow

/-- A row of `canonical_event_v1`. -/
structure CanonicalEvent where
  canonicalRunId : String
  availableAt : Time
  runCompletedAt : Time
  seenUnderDefinitionVersion : Nat
  seenUnderDefinitionHash : String
  revision : RevisionRow
  deriving DecidableEq

namespace CanonicalEvent

variable (e : CanonicalEvent)

/-- `PARTITION BY datasource_id, record_key_version, record_key_hash`. -/
def record : String × String × String :=
  (e.revision.stream.datasourceId, e.revision.stream.recordKeyVersion,
    e.revision.stream.recordKeyHash)

end CanonicalEvent

/-- An item of evidence as a reader gets it. -/
structure EvidenceItem where
  evidenceId : String
  retrievedAt : Time
  deriving DecidableEq

namespace Db

variable (db : Db) (t : Time)

/-- The newest decision about a run that was made by an instant. -/
def decisionAt (runId : String) : Option PromotionRow :=
  ((db.promotions.filter fun p => p.runId = runId ∧ p.decisionAt ≤ t).insertionSort fun a b =>
    toLex (b.decisionAt, b.promotionSeq) ≤ toLex (a.decisionAt, a.promotionSeq)).head?

/-- `promotion_at_t`. -/
def promotionAt (runId : String) : Option PromotionRow :=
  (db.decisionAt t runId).filter fun p => p.decision = .approved

/-- The lane and the completion of a run whose attempt had succeeded by an instant. -/
def succeededAt (runId : String) : Option (Lane × Time) := do
  let r ← db.runs.find? fun r => r.runId = runId
  let a ← db.attempts.find? fun a => a.attemptId = r.attemptId
  let completedAt ← a.completedAt
  if a.status = .succeeded ∧ completedAt ≤ t then some (r.lane, completedAt) else none

/-- The evidence of an observation within a run, in no particular order. -/
def evidenceOf (runId observationId : String) : List EvidenceItem :=
  (db.observationEvidence.filter fun l => l.runId = runId ∧ l.observationId = observationId).filterMap
    fun l => (db.evidence.find? fun e => e.evidenceId = l.evidenceId).map fun e =>
      ⟨e.evidenceId, e.retrievedAt⟩

/-- The row of `eligible` a link gives. -/
def eligibleRow (l : RunObservationRow) : Option CanonicalRow := do
  let (lane, completedAt) ← db.succeededAt t l.runId
  let o ← db.revisions.find? fun o => o.observationId = l.observationId
  let p ← db.promotionAt t l.runId
  let d ← db.definition? o.stream.datasourceId o.definitionVersion
  if lane = .productionIngestion ∧ o.stream.lane = .productionIngestion ∧
      ∀ item ∈ db.evidenceOf l.runId l.observationId, item.retrievedAt ≤ t then
    some ⟨l.runId, max completedAt p.decisionAt, lane, o, d.definition⟩
  else none

/-- `eligible`. -/
def eligible : List CanonicalRow := db.runObservations.filterMap (db.eligibleRow t)

/-- `_CANONICAL_AS_OF_SQL`, for the access classes of a reader. -/
def canonicalAsOf (classes : List AccessClass) : List CanonicalRow :=
  (topRows CanonicalRow.record
    (fun e => toLex (e.revision.revisionNo, toLex (e.availableAt, e.canonicalRunId)))
    ((db.eligible t).filter fun e => e.availableAt ≤ t)).filter fun e =>
      e.revision.revisionAction = .upsert ∧ e.definition.accessClass ∈ classes

/-- The rows of an observation query with their evidence, ordered by evidence. -/
def canonicalRecords (classes : List AccessClass) (recordType : Option String) :
    List (CanonicalRow × List EvidenceItem) :=
  ((db.canonicalAsOf t classes).filter fun e => ∀ k ∈ recordType, e.revision.recordType = k).map
    fun e => (e, (db.evidenceOf e.canonicalRunId e.revision.observationId).insertionSort fun a b =>
      a.evidenceId ≤ b.evidenceId)

/-- The row of `canonical_event_v1` a link gives; `current_run_promotion_v1` is the newest decision. -/
def canonicalEventRow (l : RunObservationRow) : Option CanonicalEvent := do
  let r ← db.runs.find? fun r => r.runId = l.runId
  let a ← db.attempts.find? fun a => a.attemptId = r.attemptId
  let completedAt ← a.completedAt
  let o ← db.revisions.find? fun o => o.observationId = l.observationId
  let p ← db.latestPromotion? l.runId
  if r.lane = .productionIngestion ∧ a.status = .succeeded ∧ o.stream.lane = .productionIngestion ∧
      p.decision = .approved then
    some ⟨l.runId, max completedAt p.decisionAt, completedAt, r.definitionVersion, r.definitionHash, o⟩
  else none

/-- `canonical_latest_v1`. -/
def canonicalLatest : List CanonicalEvent :=
  (topRows CanonicalEvent.record
    (fun e => toLex (e.revision.revisionNo, toLex (e.runCompletedAt, e.canonicalRunId)))
    (db.runObservations.filterMap db.canonicalEventRow)).filter fun e =>
      e.revision.revisionAction = .upsert

end Db

end NanFung
