import NanFung.Store.Jobs

/-!
# Leases

Recovery of expired leases, claims, the start of attempts, heartbeats, completion of system jobs and
cancellation. The `SET` lists of the statements are named functions on rows; a statement is
`updateWhere` with its `WHERE` condition.
-/

namespace NanFung

open Table

/-! ## Row updates -/

/-- A claim's `SET` list. -/
def JobRow.claim (token workerId : String) (now expires : Time) (j : JobRow) : JobRow :=
  { j with
    state := .claimed
    claimToken := some token
    claimedBy := some workerId
    claimedAt := some now
    leaseExpiresAt := some expires
    heartbeatAt := some now }

/-- The start of an attempt. -/
def JobRow.start (attemptNo : Nat) (now : Time) (j : JobRow) : JobRow :=
  { j with
    state := .running
    attemptCount := attemptNo
    startedAt := j.startedAt.or (some now)
    heartbeatAt := some now }

/-- The end of a claim: a new state, and no claim columns. -/
def JobRow.release (state : JobState) (completedAt : Option Time) (availableAt : Time)
    (heartbeatAt : Option Time) (lastError : Option Json) (j : JobRow) : JobRow :=
  { j with
    state := state
    completedAt := completedAt
    availableAt := availableAt
    claimToken := none
    claimedBy := none
    claimedAt := none
    leaseExpiresAt := none
    heartbeatAt := heartbeatAt
    lastError := lastError }

/-- A terminal status for an attempt. -/
def AttemptRow.close (status : AttemptStatus) (now : Time) (error : Option Json) (a : AttemptRow) :
    AttemptRow :=
  { a with status := status, completedAt := some now, heartbeatAt := now, error := error }

/-- A terminal status for a run. -/
def RunRow.close (status : AttemptStatus) (now : Time) (r : RunRow) : RunRow :=
  { r with status := status, completedAt := some now, retrievedAt := some now }

section

variable (env : Env)

/-! ## Recovery -/

/-- The error a recovered job records. -/
def leaseExpiredError (state : JobState) : Json := .obj [
  ("schema_version", .str "error.v1"),
  ("code", .str "WORKER_LEASE_EXPIRED"),
  ("stage", .str "worker"),
  ("retryable", .bool (state = .running))]

/-- `state IN ('claimed', 'running') AND lease_expires_at <= ?`. -/
def JobRow.leaseExpired (now : Time) (j : JobRow) : Bool :=
  (j.state = .claimed ∨ j.state = .running) ∧ ∃ e ∈ j.leaseExpiresAt, e ≤ now

/-- The retry policy a recovered job is rescheduled under. -/
def Db.retryPolicy (db : Db) (j : JobRow) : Json :=
  match db.jobDefinition? j with
  | some d => d.definition.retryPolicy
  | none => .obj []

/-- The running attempt of a job, the highest numbered one. -/
def Db.runningAttempt? (db : Db) (jobId : String) : Option AttemptRow :=
  ((db.attempts.filter fun a => a.jobId = jobId ∧ a.status = .running).insertionSort
    fun a b => b.attemptNo ≤ a.attemptNo).head?

/-- Fail the running attempt of a job and the run of that attempt. -/
def failRunningAttempt (jobId : String) (now : Time) (error : Json) (db : Db) : Db :=
  match db.runningAttempt? jobId with
  | none => db
  | some attempt =>
    { db with
      attempts := updateWhere (fun a => a.attemptId = attempt.attemptId ∧ a.status = .running)
        (AttemptRow.close .failed now (some error)) db.attempts
      runs := updateWhere (fun r => r.attemptId = attempt.attemptId ∧ r.status = .running)
        (RunRow.close .failed now) db.runs }

/-- The state and the availability of a recovered job. -/
def recoveredState (row : JobRow) (policy : Json) (now : Time) :
    Except StoreError (JobState × Time) :=
  if row.state = .claimed then .ok (.queued, now)
  else if row.attemptCount < row.maxAttempts then do
    let availableAt ← retryTimestamp now policy row.attemptCount
    .ok (.retryWait, availableAt)
  else .ok (.deadLetter, now)

/-- One iteration of `recover_expired`; `row` and `policy` were selected before the loop. -/
def recoverRow (now : Time) (db : Db) (row : JobRow × Json) : Except StoreError Db := do
  let (job, policy) := row
  let error ← env.json (leaseExpiredError job.state)
  let db := if job.state = .claimed then db else failRunningAttempt job.jobId now error db
  let (state, availableAt) ← recoveredState job policy now
  let completedAt := if state = .deadLetter then some now else none
  .ok { db with
    jobs := updateWhere
      (fun j => j.jobId = job.jobId ∧ ∃ token ∈ job.claimToken, j.claimToken = some token)
      (JobRow.release state completedAt availableAt none (some error)) db.jobs }

/-- `recover_expired`. -/
def recoverExpired (now : Time) (db : Db) : Except StoreError (List String × Db) := do
  let rows := (db.jobs.filter (JobRow.leaseExpired now)).map fun j => (j, db.retryPolicy j)
  let db ← rows.foldlM (recoverRow env now) db
  .ok (rows.map fun r => r.1.jobId, db)

/-! ## Claims -/

/-- `state IN ('queued', 'retry_wait') AND available_at <= ?`. -/
def JobRow.due (now : Time) (j : JobRow) : Bool :=
  (j.state = .queued ∨ j.state = .retryWait) ∧ j.availableAt ≤ now

/-- `ORDER BY priority, available_at, scheduled_for, job_id`. -/
def JobRow.before (i j : JobRow) : Prop :=
  toLex (i.priority, toLex (i.availableAt, toLex (i.scheduledFor, i.jobId))) ≤
    toLex (j.priority, toLex (j.availableAt, toLex (j.scheduledFor, j.jobId)))

instance : DecidableRel JobRow.before := fun _ _ => inferInstanceAs (Decidable (_ ≤ _))

/-- `_claim_row`. -/
def claimRow (row : JobRow) (workerId : String) (now expires : Time) (db : Db) :
    Except StoreError (Option ClaimedJob × Db) := do
  require (workerId ≠ "") (.operational "worker_id is required")
  let token := env.newId "claim" db.drawn
  let claimable : JobRow → Bool := fun j =>
    j.jobId = row.jobId ∧ (j.state = .queued ∨ j.state = .retryWait)
  let db' := { db with
    jobs := updateWhere claimable (JobRow.claim token workerId now expires) db.jobs
    drawn := db.drawn + 1 }
  if rowcount claimable db.jobs = 1 then
    .ok (some {
      jobId := row.jobId
      claimToken := token
      datasourceId := row.datasourceId
      definitionVersion := row.definitionVersion
      lane := row.lane
      jobKind := row.jobKind
      windowStart := row.windowStart
      windowEnd := row.windowEnd
      request := row.request }, db')
  else .ok (none, db')

/-- The transaction of `claim_next`. -/
def claimNextTx (workerId : String) (now expires : Time) (db : Db) :
    Except StoreError (Option ClaimedJob × Db) :=
  match ((db.jobs.filter (JobRow.due now)).insertionSort JobRow.before).head? with
  | none => .ok (none, db)
  | some row => claimRow env row workerId now expires db

/-- The transaction of `claim_job`. -/
def claimJobTx (jobId workerId : String) (now expires : Time) (db : Db) :
    Except StoreError (Option ClaimedJob × Db) :=
  match db.jobs.find? fun j => j.jobId = jobId ∧ JobRow.due now j with
  | none => .ok (none, db)
  | some row => claimRow env row workerId now expires db

/-- `claim_next`. -/
def claimNext (workerId : String) (now : Time) (leaseSeconds : Int) :
    Proc Db StoreError (Option ClaimedJob) := do
  let _ ← Proc.atomically (recoverExpired env now)
  let expires ← Proc.query fun _ => leaseDeadline now leaseSeconds
  Proc.atomically (claimNextTx env workerId now expires)

/-- `claim_job`. -/
def claimJob (jobId workerId : String) (now : Time) (leaseSeconds : Int) :
    Proc Db StoreError (Option ClaimedJob) := do
  let _ ← Proc.atomically (recoverExpired env now)
  let expires ← Proc.query fun _ => leaseDeadline now leaseSeconds
  Proc.atomically (claimJobTx env jobId workerId now expires)

/-! ## Attempts -/

/-- `INSERT INTO workflow_attempt` with status `running`. -/
def insertAttempt (attemptId jobId : String) (attemptNo : Nat) (workerId : String) (now : Time)
    (db : Db) : Except StoreError Db := do
  require (∀ a ∈ db.attempts, a.attemptId ≠ attemptId)
    (.integrity "UNIQUE constraint failed: workflow_attempt.attempt_id")
  require (∀ a ∈ db.attempts, (a.jobId, a.attemptNo) ≠ (jobId, attemptNo))
    (.integrity "UNIQUE constraint failed: workflow_attempt.job_id, workflow_attempt.attempt_no")
  .ok { db with attempts := db.attempts ++ [{
    attemptId, jobId, attemptNo, status := .running, workerId, error := none, startedAt := now
    heartbeatAt := now, completedAt := none }] }

/-- `INSERT INTO ingestion_run` with status `running`. -/
def insertRun (handle : RunHandle) (definitionHash : String) (trigger : Trigger) (now : Time)
    (db : Db) : Except StoreError Db := do
  require (∀ r ∈ db.runs, r.runId ≠ handle.runId)
    (.integrity "UNIQUE constraint failed: ingestion_run.run_id")
  require (∀ r ∈ db.runs, r.attemptId ≠ handle.attemptId)
    (.integrity "UNIQUE constraint failed: ingestion_run.attempt_id")
  require ((db.definition? handle.datasourceId handle.definitionVersion).isSome)
    (.integrity "FOREIGN KEY constraint failed")
  .ok { db with runs := db.runs ++ [{
    runId := handle.runId
    attemptId := handle.attemptId
    jobId := handle.jobId
    datasourceId := handle.datasourceId
    definitionVersion := handle.definitionVersion
    definitionHash
    lane := handle.lane
    trigger
    retrievedAt := none
    recordCount := 0
    acceptedRecordCount := 0
    snapshotComplete := false
    snapshotScope := none
    snapshotScopeHash := none
    status := .running
    createdAt := now
    completedAt := none }] }

/-- `start_run`. -/
def startRun (claim : ClaimedJob) (workerId : String) (now : Time) (db : Db) :
    Except StoreError (RunHandle × Db) :=
  match claim.datasourceId, claim.definitionVersion, claim.lane with
  | some datasourceId, some definitionVersion, some lane => do
    let leased := JobRow.leasedBy claim.jobId claim.claimToken .claimed now
    let row ← orThrow (db.jobs.find? leased) (.operational "job lease is no longer valid")
    require (row.attemptCount + 1 ≤ row.maxAttempts)
      (.operational "job has exhausted its attempt budget")
    require (rowcount leased db.jobs = 1) (.operational "job lease expired before run start")
    let handle : RunHandle := {
      runId := env.newId "run" (db.drawn + 1)
      attemptId := env.newId "attempt" db.drawn
      jobId := claim.jobId
      claimToken := claim.claimToken
      datasourceId
      definitionVersion
      lane }
    let db := { db with
      jobs := updateWhere leased (JobRow.start (row.attemptCount + 1) now) db.jobs
      drawn := db.drawn + 2 }
    let db ← insertAttempt handle.attemptId claim.jobId (row.attemptCount + 1) workerId now db
    let definitionHash ← orThrow row.definitionHash
      (.integrity "NOT NULL constraint failed: ingestion_run.definition_hash")
    let db ← insertRun handle definitionHash row.trigger now db
    .ok (handle, db)
  | _, _, _ => .error (.operational "system jobs do not create ingestion runs")

/-- `start_system_job`. -/
def startSystemJob (claim : ClaimedJob) (workerId : String) (now : Time) (db : Db) :
    Except StoreError (SystemJobHandle × Db) := do
  require (claim.datasourceId = none ∧ claim.jobKind = .projectionDelivery)
    (.operational "unsupported system job")
  require (workerId ≠ "") (.operational "worker_id is required")
  let leased := JobRow.leasedBy claim.jobId claim.claimToken .claimed now
  let row ← orThrow (db.jobs.find? leased) (.operational "system job lease is no longer valid")
  require (row.attemptCount + 1 ≤ row.maxAttempts)
    (.operational "system job exhausted its attempt budget")
  require (rowcount leased db.jobs = 1) (.operational "system job lease expired before start")
  let attemptId := env.newId "attempt" db.drawn
  let db := { db with
    jobs := updateWhere leased (JobRow.start (row.attemptCount + 1) now) db.jobs
    drawn := db.drawn + 1 }
  let db ← insertAttempt attemptId claim.jobId (row.attemptCount + 1) workerId now db
  .ok (⟨attemptId, claim.jobId, claim.claimToken, claim.jobKind⟩, db)

/-- The job state a system job's terminal status leads to. -/
def systemJobState (job : JobRow) : AttemptStatus → JobState
  | .succeeded => .succeeded
  | .cancelled => .cancelled
  | _ => if job.attemptCount < job.maxAttempts then .retryWait else .deadLetter

/-- `finish_system_job`. -/
def finishSystemJob (handle : SystemJobHandle) (status : AttemptStatus)
    (error : Option (List (String × Json))) (now : Time) (db : Db) :
    Except StoreError (Unit × Db) := do
  require (status = .succeeded ∨ status = .failed ∨ status = .cancelled)
    (.operational "invalid system job terminal status")
  let job ← orThrow
    (db.jobs.find? (JobRow.leasedBy handle.jobId handle.claimToken .running now))
    (.operational "system job is not owned by an active claim")
  let state := systemJobState job status
  let retryAt ← retryTimestamp now (.obj []) job.attemptCount
  let error ← env.optJson error
  let completedAt := if state = .retryWait then none else some now
  .ok ((), { db with
    attempts := updateWhere (fun a => a.attemptId = handle.attemptId ∧ a.status = .running)
      (AttemptRow.close status now error) db.attempts
    jobs := updateWhere
      (fun j => j.jobId = handle.jobId ∧ j.claimToken = some handle.claimToken ∧ j.state = .running)
      (fun j => j.release state completedAt (if state = .retryWait then retryAt else j.availableAt)
        (some now) error) db.jobs })

/-- `heartbeat`. -/
def heartbeat (run : RunHandle) (now : Time) (leaseSeconds : Int) (db : Db) :
    Except StoreError (Unit × Db) := do
  let expires ← leaseDeadline now leaseSeconds
  let leased := JobRow.leasedBy run.jobId run.claimToken .running now
  require (rowcount leased db.jobs = 1) (.operational "run is not owned by an active claim")
  .ok ((), { db with
    jobs := updateWhere leased
      (fun j => { j with heartbeatAt := some now, leaseExpiresAt := some expires }) db.jobs
    attempts := updateWhere (fun a => a.attemptId = run.attemptId ∧ a.status = .running)
      (fun a => { a with heartbeatAt := now }) db.attempts })

/-- `cancel`: only a job that is not running. -/
def cancel (jobId actorId : String) (now : Time) (db : Db) : Except StoreError (Bool × Db) :=
  let cancellable : JobRow → Bool := fun j =>
    j.jobId = jobId ∧ (j.state = .queued ∨ j.state = .retryWait ∨ j.state = .claimed)
  .ok (0 < rowcount cancellable db.jobs, { db with
    jobs := updateWhere cancellable (fun j => { j with
      state := .cancelled
      completedAt := some now
      cancelRequestedAt := some now
      cancelRequestedBy := some actorId }) db.jobs })

end

end NanFung
