import NanFung.Store.Basic

/-!
# Durable jobs

Submission (`enqueue`, `enqueue_backfill`, `enqueue_projection_delivery`, `retry`), leasing
(`claim_next`, `claim_job`, `start_run`, `start_system_job`, `heartbeat`), completion of system jobs,
cancellation and recovery of expired leases. `finish_run` is with the ingestion records.
-/

namespace NanFung

open Table

/-! ## Submission -/

/-- The keyword arguments of `enqueue`. -/
structure EnqueueArgs where
  datasourceId : String
  definitionVersion : Option Nat := none
  request : Option (List (String × Json)) := none
  trigger : String := "manual"
  lane : Option String := none
  priority : Int := 100
  scheduledFor : Option Time := none
  requestInstanceId : Option String := none
  scheduleId : Option String := none
  parentJobId : Option String := none
  generation : Int := 0
  jobKind : Option String := none
  windowStart : Option Time := none
  windowEnd : Option Time := none

/-- `EnqueueResult`; the disposition is `accepted` or `deduplicated`. -/
structure EnqueueResult where
  jobId : String
  accepted : Bool
  state : JobState
  deriving DecidableEq, Repr

/-- What `enqueue` has worked out when it opens its transaction. -/
structure EnqueuePlan where
  definition : DatasourceDefinition
  lane : Lane
  trigger : Trigger
  jobKind : JobKind
  payload : List (String × Json)
  payloadHash : String
  now : Time

section

variable (env : Env)

/-- `value or fallback` for an optional text. -/
def orText (value : Option String) (fallback : String) : String :=
  match value with
  | some s => if s = "" then fallback else s
  | none => fallback

/-- `None` or a timestamp. -/
def optTime : Option Time → Json
  | some t => .str (isoformat t)
  | none => .null

/-- The job kind `enqueue` uses when none is given. -/
def defaultJobKind : Trigger → JobKind
  | .backfill => .backfill
  | .agentRequest => .onDemandRefresh
  | _ => .scheduledIngest

/-- `except RegistryError as error: raise OperationalError(str(error))`. -/
def registryAsOperational {α : Type} : Except StoreError α → Except StoreError α
  | .error (.registry message) => .error (.operational message)
  | r => r

@[simp] theorem registryAsOperational_ok {α : Type} {r : Except StoreError α} {a : α} :
    registryAsOperational r = .ok a ↔ r = .ok a := by
  unfold registryAsOperational
  split <;> simp_all

/-- `request or definition.default_request`. -/
def requestOrDefault (request : Option (List (String × Json))) (definition : DatasourceDefinition) :
    List (String × Json) :=
  match request with
  | some (m :: ms) => m :: ms
  | _ => definition.defaultRequest

/-- The checks and defaults of `enqueue`; `clock` is the wall clock when it needs the time. -/
def enqueuePlan (args : EnqueueArgs) (clock : Time) : Except StoreError EnqueuePlan := do
  let definition ← registryAsOperational
    (env.registry.lookup env.platform args.datasourceId args.definitionVersion)
  let lane ← orThrow (Lane.ofName? (orText args.lane definition.defaultLane.name))
    (.operational "unsupported ingestion lane")
  require (lane = .productionIngestion → definition.status = .production)
    (.operational "unapproved datasource cannot be enqueued for production")
  let trigger ← orThrow (Trigger.ofName? args.trigger) (.operational "unsupported job trigger")
  let payload := env.platform.redactMembers (requestOrDefault args.request definition)
  let jobKind ← orThrow (JobKind.ofName? (orText args.jobKind (defaultJobKind trigger).name))
    (.operational "unsupported datasource job kind")
  require (args.windowStart.isNone = args.windowEnd.isNone)
    (.operational "job window_start and window_end must be supplied together")
  require (∀ s ∈ args.windowStart, ∀ e ∈ args.windowEnd, s ≤ e)
    (.operational "job window_start must be before window_end")
  require (jobKind = .backfill → args.windowStart.isSome)
    (.operational "backfill jobs require a bounded window")
  require (jobKind ≠ .backfill → args.windowStart.isNone)
    (.operational "only backfill jobs support durable windows")
  require (jobKind = .backfill →
      Json.lookup "window_start" payload = args.windowStart.map (fun t => .str (isoformat t)) ∧
      Json.lookup "window_end" payload = args.windowEnd.map (fun t => .str (isoformat t)))
    (.operational "request window must match the durable job window")
  let payloadHash ← env.platform.requestHash (.obj payload)
  .ok { definition, lane, trigger, jobKind, payload, payloadHash,
        now := args.scheduledFor.getD clock }

/-- The local function `dedupe_key` of `enqueue`. -/
def dedupeKey (args : EnqueueArgs) (plan : EnqueuePlan) (instanceId : Option String) :
    Except StoreError String :=
  env.platform.requestHash (.obj [
    ("datasource_id", .str args.datasourceId),
    ("definition_version", .int plan.definition.definitionVersion),
    ("definition_hash", .str plan.definition.definitionHash),
    ("lane", .str plan.lane.name),
    ("trigger", .str plan.trigger.name),
    ("request_hash", .str plan.payloadHash),
    ("scheduled_for",
      if plan.trigger = .schedule then .str (isoformat plan.now) else .null),
    ("schedule_id", Platform.optStr args.scheduleId),
    ("parent_job_id", Platform.optStr args.parentJobId),
    ("generation", .int args.generation),
    ("request_instance_id", Platform.optStr instanceId),
    ("job_kind", .str plan.jobKind.name),
    ("window_start", optTime args.windowStart),
    ("window_end", optTime args.windowEnd)])

/-- `INSERT INTO workflow_job` under the constraints of the table. -/
def insertJob (job : JobRow) (db : Db) : Except StoreError Db := do
  require (∀ j ∈ db.jobs, j.jobId ≠ job.jobId)
    (.integrity "UNIQUE constraint failed: workflow_job.job_id")
  require (∀ j ∈ db.jobs, j.dedupeKey ≠ job.dedupeKey)
    (.integrity "UNIQUE constraint failed: workflow_job.dedupe_key")
  require (0 ≤ job.generation) (.integrity "CHECK constraint failed: generation >= 0")
  require (∀ s ∈ job.scheduleId, ∃ r ∈ db.schedules, r.scheduleId = s)
    (.integrity "FOREIGN KEY constraint failed")
  require (∀ p ∈ job.parentJobId, ∃ j ∈ db.jobs, j.jobId = p)
    (.integrity "FOREIGN KEY constraint failed")
  require (∀ d ∈ job.datasourceId, ∀ v ∈ job.definitionVersion, (db.definition? d v).isSome)
    (.integrity "FOREIGN KEY constraint failed")
  .ok { db with jobs := db.jobs ++ [job] }

/-- The queued row `enqueue` inserts. -/
def queuedJob (args : EnqueueArgs) (plan : EnqueuePlan) (jobId dedupe : String) (request : Json)
    (instanceId : Option String) : JobRow where
  jobId := jobId
  dedupeKey := dedupe
  jobKind := plan.jobKind
  datasourceId := some args.datasourceId
  definitionVersion := some plan.definition.definitionVersion
  definitionHash := some plan.definition.definitionHash
  scheduleId := args.scheduleId
  parentJobId := args.parentJobId
  generation := args.generation
  requestInstanceId := instanceId
  lane := some plan.lane
  trigger := plan.trigger
  scheduledFor := plan.now
  availableAt := plan.now
  windowStart := args.windowStart
  windowEnd := args.windowEnd
  priority := args.priority
  request := request
  requestHash := plan.payloadHash
  state := .queued
  attemptCount := 0
  maxAttempts := plan.definition.maxAttempts
  claimToken := none
  claimedBy := none
  claimedAt := none
  leaseExpiresAt := none
  heartbeatAt := none
  lastError := none
  createdAt := plan.now
  startedAt := none
  completedAt := none
  cancelRequestedAt := none
  cancelRequestedBy := none

/-- Insert the job of a plan under a dedupe key. -/
def acceptJob (args : EnqueueArgs) (plan : EnqueuePlan) (dedupe : String)
    (instanceId : Option String) (db : Db) : Except StoreError (EnqueueResult × Db) := do
  let request ← env.json (.obj plan.payload)
  let job := queuedJob args plan (env.newId "job" db.drawn) dedupe request instanceId
  let db ← insertJob job { db with drawn := db.drawn + 1 }
  .ok (⟨job.jobId, true, .queued⟩, db)

/-- The transaction of `enqueue`: return the job that holds the dedupe key, or insert one. -/
def enqueueTx (args : EnqueueArgs) (plan : EnqueuePlan) (dedupe : String) (db : Db) :
    Except StoreError (EnqueueResult × Db) :=
  match db.jobs.find? fun j => j.dedupeKey = dedupe with
  | none => acceptJob env args plan dedupe args.requestInstanceId db
  | some existing =>
    -- a default manual request does not resolve to a terminal job: it gets an instance of its own
    if plan.trigger = .manual ∧ args.requestInstanceId = none ∧ existing.state.terminal then do
      let instanceId := env.newId "manual_request" db.drawn
      let dedupe ← dedupeKey env args plan (some instanceId)
      acceptJob env args plan dedupe (some instanceId) { db with drawn := db.drawn + 1 }
    else .ok (⟨existing.jobId, false, existing.state⟩, db)

/-- `enqueue`; the first clock reading is the registry sync's, the second the submission's. -/
def enqueue (args : EnqueueArgs) (clock : Nat → Time) : Proc Db StoreError EnqueueResult := do
  Proc.atomically (syncRegistry env (clock 0))
  let plan ← Proc.query fun _ => enqueuePlan env args (clock 1)
  let dedupe ← Proc.query fun _ => dedupeKey env args plan args.requestInstanceId
  Proc.atomically (enqueueTx env args plan dedupe)

/-- `enqueue_backfill`. -/
def enqueueBackfill (datasourceId : String) (windowStart windowEnd : Time) (lane : Option String)
    (clock : Nat → Time) : Proc Db StoreError EnqueueResult := do
  Proc.query fun _ => require (windowStart ≤ windowEnd)
    (.operational "backfill window_start must be before window_end")
  let instanceId ← env.draw "backfill"
  enqueue env {
    datasourceId
    request := some [("window_start", .str (isoformat windowStart)),
      ("window_end", .str (isoformat windowEnd))]
    trigger := "backfill"
    lane
    scheduledFor := some windowStart
    requestInstanceId := some instanceId
    jobKind := some "backfill"
    windowStart := some windowStart
    windowEnd := some windowEnd } clock

/-- The row `enqueue_projection_delivery` inserts. -/
def projectionJob (jobId dedupe : String) (trigger : Trigger) (queuedFor : Time) (request : Json)
    (requestHash : String) : JobRow where
  jobId := jobId
  dedupeKey := dedupe
  jobKind := .projectionDelivery
  datasourceId := none
  definitionVersion := none
  definitionHash := none
  scheduleId := none
  parentJobId := none
  generation := 0
  requestInstanceId := none
  lane := none
  trigger := trigger
  scheduledFor := queuedFor
  availableAt := queuedFor
  windowStart := none
  windowEnd := none
  priority := 50
  request := request
  requestHash := requestHash
  state := .queued
  attemptCount := 0
  maxAttempts := 3
  claimToken := none
  claimedBy := none
  claimedAt := none
  leaseExpiresAt := none
  heartbeatAt := none
  lastError := none
  createdAt := queuedFor
  startedAt := none
  completedAt := none
  cancelRequestedAt := none
  cancelRequestedBy := none

/-- `enqueue_projection_delivery`. -/
def enqueueProjectionDelivery (outputDirectory : String) (asOfAt : Time)
    (scheduledFor : Option Time) (trigger : String) (db : Db) :
    Except StoreError (EnqueueResult × Db) := do
  let trigger ← orThrow
    ((Trigger.ofName? trigger).filter fun t => t = .manual ∨ t = .schedule ∨ t = .recovery)
    (.operational "unsupported projection delivery trigger")
  let queuedFor := scheduledFor.getD asOfAt
  let request := Json.obj [
    ("output_directory", .str (env.resolvePath outputDirectory)),
    ("as_of_at", .str (isoformat asOfAt))]
  let payloadHash ← env.platform.requestHash request
  let dedupe ← env.platform.requestHash (.obj [
    ("job_kind", .str "projection_delivery"),
    ("trigger", .str trigger.name),
    ("request_hash", .str payloadHash),
    ("scheduled_for", if trigger = .schedule then .str (isoformat queuedFor) else .null)])
  match db.jobs.find? fun j => j.dedupeKey = dedupe with
  | some existing => .ok (⟨existing.jobId, false, existing.state⟩, db)
  | none =>
    let request ← env.json request
    let job := projectionJob (env.newId "job" db.drawn) dedupe trigger queuedFor request payloadHash
    let db ← insertJob job { db with drawn := db.drawn + 1 }
    .ok (⟨job.jobId, true, .queued⟩, db)

/-- `retry`: a new manual job linked to a terminally unsuccessful one. -/
def retry (jobId : String) (clock : Nat → Time) : Proc Db StoreError EnqueueResult := do
  let row ← Proc.query fun db =>
    orThrow (db.jobs.find? fun j => j.jobId = jobId) (.operational "unknown job")
  Proc.query fun _ =>
    require (row.state = .failed ∨ row.state = .deadLetter ∨ row.state = .cancelled)
      (.operational "only terminal failed, dead-letter, or cancelled jobs can retry")
  match row.datasourceId, row.lane with
  | some datasourceId, some lane =>
    let instanceId ← env.draw "retry"
    enqueue env {
      datasourceId
      definitionVersion := row.definitionVersion
      request := match row.request with
        | .obj members => some members
        | _ => none
      trigger := "manual"
      lane := some lane.name
      requestInstanceId := some instanceId
      parentJobId := some jobId
      generation := row.generation + 1
      jobKind := some row.jobKind.name
      windowStart := row.windowStart
      windowEnd := row.windowEnd } clock
  | _, _ => throw (.operational "system job retry is not supported by this API")

end

end NanFung
