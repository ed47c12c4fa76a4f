import NanFung.Store.Scheduler

/-!
# Effects

Every write of the store is one of the effects below: a change of a few tables at one instant, with
the conditions the code checks before it makes it. The operations are chains of effects (proved with
the operations' specifications), so a property of the database that every effect preserves holds in
every state any sequence of operations reaches. Tables a constructor does not name are unchanged by
definition.

A `Guard` restricts a chain: which instants its writes may carry, which manual promotions it may
make, which jobs it may cancel, and whether the reviews it opens are known to be about the
definition of their run.
-/

namespace NanFung

open Table

/-- What restricts the effects of a chain. -/
structure Guard where
  clock : Time → Prop
  promotable : Db → String → Prop
  aligned : Prop
  cancellable : JobRow → Prop

namespace Guard

/-- Every effect. -/
def any : Guard := ⟨fun _ => True, fun _ _ => True, False, fun _ => True⟩

end Guard

/-- A registered definition whose snapshots are full. -/
def Env.fullSnapshot (env : Env) (datasourceId : String) (definitionVersion : Nat) : Prop :=
  ∃ d ∈ env.registry.definitions, d.key = (datasourceId, definitionVersion) ∧
    d.snapshotMode = .fullSnapshot

/-- The version of the record keys of a registered definition. -/
def Env.keyVersion (env : Env) (datasourceId : String) (definitionVersion : Nat)
    (recordKeyVersion : String) : Prop :=
  ∃ d ∈ env.registry.definitions, d.key = (datasourceId, definitionVersion) ∧
    d.recordKeyVersion = recordKeyVersion

/-- The rows a run handle stands for while its attempt is open. -/
structure Db.Active (db : Db) (h : RunHandle) (j : JobRow) (a : AttemptRow) (r : RunRow) : Prop where
  job : j ∈ db.jobs
  attempt : a ∈ db.attempts
  run : r ∈ db.runs
  jobId : j.jobId = h.jobId
  jobRunning : j.state = .running
  attemptId : a.attemptId = h.attemptId
  attemptJob : a.jobId = h.jobId
  attemptRunning : a.status = .running
  runId : r.runId = h.runId
  runAttempt : r.attemptId = h.attemptId
  runDatasource : r.datasourceId = h.datasourceId
  runVersion : r.definitionVersion = h.definitionVersion
  runLane : r.lane = h.lane
  runRunning : r.status = .running

/-- The row of a queued job. -/
structure JobRow.Queued (j : JobRow) : Prop where
  state : j.state = .queued
  claimToken : j.claimToken = none
  leaseExpiresAt : j.leaseExpiresAt = none
  attemptCount : j.attemptCount = 0
  version : j.datasourceId.isSome → j.definitionVersion.isSome
  claimedBy : j.claimedBy = none
  claimedAt : j.claimedAt = none
  completedAt : j.completedAt = none
  budget : 0 < j.maxAttempts

/-- What a promotion written by `finish_run` rests on, in the state before it. -/
structure AutomaticPromotion (env : Env) (db : Db) (t : Time) (a : AttemptRow)
    (status : AttemptStatus) (p : PromotionRow) : Prop where
  decision : p.decision = .approved
  decisionAt : p.decisionAt = t
  succeeded : status = .succeeded
  run : ∃ r ∈ db.runs, r.runId = p.runId ∧ r.attemptId = a.attemptId ∧
    r.lane = .productionIngestion ∧
    ∃ d ∈ env.registry.definitions, d.key = (r.datasourceId, r.definitionVersion) ∧
      d.promotionPolicy = .automatic ∧ (d.snapshotMode = .fullSnapshot → r.snapshotComplete = true)

/-- What a promotion written by `promote_review` rests on. -/
structure ManualPromotion (db : Db) (t : Time) (p : PromotionRow) (m : ManualPromotionRow) :
    Prop where
  decision : p.decision = .approved
  decisionAt : p.decisionAt = t
  linkRun : m.runId = p.runId
  linkPromotion : m.promotionId = p.promotionId
  succeeded : db.succeededProduction p.runId
  review : ∃ v ∈ db.reviewTasks, v.reviewId = m.reviewId ∧ v.runId = some p.runId ∧
    ∃ d, db.definition? v.datasourceId v.definitionVersion = some d ∧
      d.definition.promotionPolicy = .manualReview
  approval : ∃ d ∈ db.reviewDecisions, d.decisionId = m.decisionId ∧ d.reviewId = m.reviewId ∧
    d.decision = .approved
  first : ∀ q ∈ db.promotions, ¬ (q.runId = p.runId ∧ q.decision = .approved)

/-- The revision a stream may be extended by. -/
structure Extends (heads : List HeadRow) (r : RevisionRow) : Prop where
  number : r.revisionNo =
    ((heads.find? fun h => h.stream = r.stream).map (·.revisionNo)).getD 0 + 1
  supersedes : r.supersedesId = (heads.find? fun h => h.stream = r.stream).map (·.observationId)
  changes : r.revisionAction = .upsert →
    ∀ h ∈ heads.find? (fun h => h.stream = r.stream),
      ¬ (h.recordHash = r.recordHash ∧ h.revisionAction = .upsert)
  deletes : r.revisionAction = .tombstone →
    ∃ h ∈ heads.find? (fun h => h.stream = r.stream), h.revisionAction = .upsert

/-- One write of the store at the instant `t`. -/
inductive Effect (env : Env) (G : Guard) (t : Time) : Db → Db → Prop where
  | draw (db : Db) : Effect env G t db { db with drawn := db.drawn + 1 }
  | define (db : Db) (d : DatasourceDefinition) (createdAt : Time)
      (registered : d ∈ env.registry.definitions)
      (new : ∀ r ∈ db.definitions, r.definition.key ≠ d.key) :
      Effect env G t db { db with definitions := db.definitions ++ [⟨d, createdAt⟩] }
  | reschedule (db : Db) (schedules : List ScheduleRow) :
      Effect env G t db { db with schedules := schedules }
  | ledger (db : Db) (requests : List RefreshRequestRow)
      (confirmations : List RefreshConfirmationRow) (kept : db.refreshRequests <+: requests)
      (keptPending : db.refreshConfirmations <+: confirmations) :
      Effect env G t db { db with
        refreshRequests := requests
        refreshConfirmations := confirmations }
  | enqueue (db : Db) (j : JobRow) (queued : j.Queued)
      (newId : ∀ i ∈ db.jobs, i.jobId ≠ j.jobId)
      (newKey : ∀ i ∈ db.jobs, i.dedupeKey ≠ j.dedupeKey) :
      Effect env G t db { db with jobs := db.jobs ++ [j] }
  | claim (db : Db) (j : JobRow) (workerId : String) (expires : Time) (job : j ∈ db.jobs)
      (state : j.state = .queued ∨ j.state = .retryWait) :
      Effect env G t db { db with
        jobs := updateWhere (fun i => i.jobId = j.jobId)
          (JobRow.claim (env.newId "claim" db.drawn) workerId t expires) db.jobs
        drawn := db.drawn + 1 }
  | start (db : Db) (j : JobRow) (a : AttemptRow) (r : RunRow) (job : j ∈ db.jobs)
      (state : j.state = .claimed) (datasource : j.datasourceId = some r.datasourceId)
      (version : j.definitionVersion = some r.definitionVersion)
      (attemptJob : a.jobId = j.jobId) (attemptRunning : a.status = .running)
      (newAttempt : ∀ b ∈ db.attempts, b.attemptId ≠ a.attemptId)
      (runAttempt : r.attemptId = a.attemptId) (runJob : r.jobId = j.jobId)
      (runRunning : r.status = .running) (runScope : r.snapshotScopeHash = none)
      (newRun : ∀ s ∈ db.runs, s.runId ≠ r.runId)
      (newRunAttempt : ∀ s ∈ db.runs, s.attemptId ≠ a.attemptId)
      (number : a.attemptNo = j.attemptCount + 1) (budget : j.attemptCount < j.maxAttempts) :
      Effect env G t db { db with
        jobs := updateWhere (fun i => i.jobId = j.jobId)
          (JobRow.start (j.attemptCount + 1) t) db.jobs
        attempts := db.attempts ++ [a]
        runs := db.runs ++ [r] }
  | startSystem (db : Db) (j : JobRow) (a : AttemptRow) (job : j ∈ db.jobs)
      (state : j.state = .claimed) (system : j.datasourceId = none)
      (attemptJob : a.jobId = j.jobId) (attemptRunning : a.status = .running)
      (newAttempt : ∀ b ∈ db.attempts, b.attemptId ≠ a.attemptId)
      (number : a.attemptNo = j.attemptCount + 1) (budget : j.attemptCount < j.maxAttempts) :
      Effect env G t db { db with
        jobs := updateWhere (fun i => i.jobId = j.jobId)
          (JobRow.start (j.attemptCount + 1) t) db.jobs
        attempts := db.attempts ++ [a] }
  | heartbeat (db : Db) (j : JobRow) (attemptId : String) (expires : Time) (job : j ∈ db.jobs)
      (state : j.state = .running) :
      Effect env G t db { db with
        jobs := updateWhere (fun i => i.jobId = j.jobId)
          (fun i => { i with heartbeatAt := some t, leaseExpiresAt := some expires }) db.jobs
        attempts := updateWhere (fun a => a.attemptId = attemptId ∧ a.status = .running)
          (fun a => { a with heartbeatAt := t }) db.attempts }
  | requeue (db : Db) (j : JobRow) (availableAt : Time) (error : Option Json) (job : j ∈ db.jobs)
      (state : j.state = .claimed) :
      Effect env G t db { db with
        jobs := updateWhere (fun i => i.jobId = j.jobId)
          (JobRow.release .queued none availableAt none error) db.jobs }
  | cancel (db : Db) (j : JobRow) (actorId : String) (job : j ∈ db.jobs)
      (state : j.state = .queued ∨ j.state = .retryWait ∨ j.state = .claimed)
      (permitted : G.cancellable j) :
      Effect env G t db { db with
        jobs := updateWhere (fun i => i.jobId = j.jobId) (fun i => { i with
          state := .cancelled
          completedAt := some t
          cancelRequestedAt := some t
          cancelRequestedBy := some actorId }) db.jobs }
  | close (db : Db) (j : JobRow) (a : AttemptRow) (status : AttemptStatus) (state : JobState)
      (completedAt : Option Time) (availableAt : Time) (heartbeatAt : Option Time)
      (error : Option Json) (promotion : Option PromotionRow) (drawn : Nat)
      (job : j ∈ db.jobs) (jobRunning : j.state = .running) (attempt : a ∈ db.attempts)
      (attemptJob : a.jobId = j.jobId) (attemptRunning : a.status = .running)
      (closed : status ≠ .running) (released : state ≠ .claimed ∧ state ≠ .running)
      (later : db.drawn ≤ drawn)
      (promoted : ∀ p ∈ promotion, AutomaticPromotion env db t a status p)
      (completed : completedAt.isSome = state.terminal)
      (retried : state.terminal = false → j.attemptCount < j.maxAttempts) :
      Effect env G t db { db with
        jobs := updateWhere (fun i => i.jobId = j.jobId)
          (JobRow.release state completedAt availableAt heartbeatAt error) db.jobs
        attempts := updateWhere (fun b => b.attemptId = a.attemptId)
          (AttemptRow.close status t error) db.attempts
        runs := updateWhere (fun r => r.attemptId = a.attemptId) (RunRow.close status t) db.runs
        promotions := db.promotions ++ promotion.toList
        drawn := drawn }
  | evidence (db : Db) (h : RunHandle) (j : JobRow) (a : AttemptRow) (r : RunRow) (e : EvidenceRow)
      (link : RunEvidenceRow) (active : db.Active h j a r) (linkRun : link.runId = h.runId)
      (linkEvidence : link.evidenceId = e.evidenceId)
      (new : ∀ f ∈ db.evidence, f.evidenceId ≠ e.evidenceId) :
      Effect env G t db { db with
        evidence := db.evidence ++ [e]
        runEvidence := db.runEvidence ++ [link]
        drawn := db.drawn + 1 }
  | revise (db : Db) (h : RunHandle) (j : JobRow) (a : AttemptRow) (r : RunRow) (o : RevisionRow)
      (active : db.Active h j a r) (datasource : o.stream.datasourceId = h.datasourceId)
      (lane : o.stream.lane = h.lane) (scope : o.snapshotScopeHash = r.snapshotScopeHash)
      (declared : env.fullSnapshot h.datasourceId h.definitionVersion →
        r.snapshotScopeHash.isSome)
      (extends_ : Extends db.heads o)
      (unseen : o.revisionAction = .tombstone → o.stream.recordKeyHash ∉ db.seenKeys h.runId)
      (new : ∀ q ∈ db.revisions, q.observationId ≠ o.observationId)
      (defined : (db.definition? o.stream.datasourceId o.definitionVersion).isSome)
      (keyVersion : env.keyVersion h.datasourceId h.definitionVersion o.stream.recordKeyVersion) :
      Effect env G t db { db with
        revisions := db.revisions ++ [o]
        heads := upsertHead (headOf o t) db.heads
        runObservations := db.runObservations ++ [⟨h.runId, o.observationId⟩]
        drawn := db.drawn + 1 }
  | link (db : Db) (h : RunHandle) (j : JobRow) (a : AttemptRow) (r : RunRow) (o : RevisionRow)
      (active : db.Active h j a r) (revision : o ∈ db.revisions)
      (datasource : o.stream.datasourceId = h.datasourceId) (lane : o.stream.lane = h.lane)
      (new : ⟨h.runId, o.observationId⟩ ∉ db.runObservations)
      (keyVersion : env.keyVersion h.datasourceId h.definitionVersion o.stream.recordKeyVersion)
      (head : ∃ g ∈ db.heads, g.stream = o.stream ∧ g.observationId = o.observationId ∧
        g.revisionAction = .upsert) :
      Effect env G t db { db with
        runObservations := db.runObservations ++ [⟨h.runId, o.observationId⟩] }
  | linkEvidence (db : Db) (h : RunHandle) (j : JobRow) (a : AttemptRow) (r : RunRow)
      (row : ObservationEvidenceRow) (active : db.Active h j a r) (run : row.runId = h.runId)
      (evidence : ∃ e ∈ db.evidence, e.evidenceId = row.evidenceId) :
      Effect env G t db { db with observationEvidence := db.observationEvidence ++ [row] }
  | count (db : Db) (h : RunHandle) (j : JobRow) (a : AttemptRow) (r : RunRow) (n : Nat)
      (active : db.Active h j a r) :
      Effect env G t db { db with
        runs := updateWhere (fun s => s.runId = h.runId)
          (fun s => { s with
            recordCount := s.recordCount + n
            acceptedRecordCount := s.acceptedRecordCount + n }) db.runs }
  | declareScope (db : Db) (h : RunHandle) (j : JobRow) (a : AttemptRow) (r : RunRow)
      (scope : Json) (scopeHash : String) (active : db.Active h j a r)
      (full : env.fullSnapshot h.datasourceId h.definitionVersion)
      (undeclared : r.snapshotScopeHash = none) :
      Effect env G t db { db with
        runs := updateWhere (fun s => s.runId = h.runId)
          (fun s => { s with
            snapshotScope := some scope
            snapshotScopeHash := some scopeHash
            snapshotComplete := false }) db.runs }
  | completeSnapshot (db : Db) (h : RunHandle) (j : JobRow) (a : AttemptRow) (r : RunRow)
      (scope : Json) (active : db.Active h j a r) :
      Effect env G t db { db with
        runs := updateWhere (fun s => s.runId = h.runId)
          (fun s => { s with snapshotComplete := true, snapshotScope := some scope }) db.runs }
  | openReview (db : Db) (h : RunHandle) (j : JobRow) (a : AttemptRow) (r : RunRow)
      (v : ReviewTaskRow) (active : db.Active h j a r) (run : v.runId = some h.runId)
      (definition : G.aligned →
        (v.datasourceId, v.definitionVersion) = (h.datasourceId, h.definitionVersion))
      (new : ∀ w ∈ db.reviewTasks, w.reviewId ≠ v.reviewId) :
      Effect env G t db { db with
        reviewTasks := db.reviewTasks ++ [v]
        drawn := db.drawn + 1 }
  | decideReview (db : Db) (d : ReviewDecisionRow) (state : ReviewState) :
      Effect env G t db { db with
        reviewTasks := updateWhere (fun v => v.reviewId = d.reviewId ∧ v.state = .open_)
          (fun v => { v with state := state, completedAt := some t }) db.reviewTasks
        reviewDecisions := db.reviewDecisions ++ [d]
        drawn := db.drawn + 1 }
  | promoteReview (db : Db) (p : PromotionRow) (m : ManualPromotionRow)
      (manual : ManualPromotion db t p m) (permitted : G.promotable db p.runId) :
      Effect env G t db { db with
        promotions := db.promotions ++ [p]
        manualPromotions := db.manualPromotions ++ [m]
        drawn := db.drawn + 1 }
  | revoke (db : Db) (p : PromotionRow) (decision : p.decision = .revoked) (decisionAt : p.decisionAt = t)
      (run : ∃ q ∈ db.promotions, q.runId = p.runId) :
      Effect env G t db { db with
        promotions := db.promotions ++ [p]
        drawn := db.drawn + 1 }

/-- A chain of effects whose instants and promotions a guard permits. -/
def Effects (env : Env) (G : Guard) : Db → Db → Prop :=
  Relation.ReflTransGen fun db db' => ∃ t, G.clock t ∧ Effect env G t db db'

end NanFung
