import NanFung.Store.Review

/-!
# Durable agent refresh

`submit_agent_refresh` binds a request identifier to a workflow job through the `refresh_request`
ledger. It is a sequence of transactions: everything up to the ledger insert is `prepareRefresh`, the
insert is `recordRefreshRequest`, and a process that stops between the two leaves a job whose
`_refresh_control` metadata is the only trace of the binding.
-/

namespace NanFung

open Table

/-- `DurableRefreshResult`. -/
structure DurableRefreshResult where
  jobId : Option String
  disposition : RefreshDisposition
  initialState : String
  submittedAt : Time
  confirmationToken : Option String := none
  confirmationExpiresAt : Option Time := none
  deriving DecidableEq

/-- The keyword arguments of `submit_agent_refresh`. -/
structure RefreshArgs where
  requestId : String
  principal : String
  requestFingerprint : String
  dedupeKey : String
  datasourceId : String
  definitionVersion : Nat
  requestProfile : String
  lane : String
  boundedScope : List (String × List String)
  intent : String
  submittedAt : Time
  cooldownUntil : Time
  confirmationToken : Option String := none

/-- The parsed `_refresh_control` metadata of a job. -/
structure RefreshControl where
  principal : String
  requestFingerprint : String
  dedupeKey : String
  submittedAt : Time
  cooldownUntil : Time
  initialState : String
  deriving DecidableEq

/-! ## Validation -/

/-- `_require_refresh_identifier`. -/
def requireRefreshIdentifier (name value : String) : Except StoreError Unit :=
  require (value ≠ "" ∧ value.length ≤ 256)
    (.operational (name ++ " must be a non-empty string of at most 256 characters"))

/-- Sixty-four lower-case hexadecimal digits. -/
def isDigest (value : String) : Bool :=
  value.length = 64 ∧ value.toList.all fun c => c ∈ "0123456789abcdef".toList

/-- `_require_refresh_digest`. -/
def requireRefreshDigest (name value : String) : Except StoreError Unit :=
  require (isDigest value) (.operational (name ++ " must be a SHA-256 hex digest"))

/-- `_require_optional_refresh_confirmation_token`. -/
def requireOptionalRefreshConfirmationToken (value : Option String) : Except StoreError Unit :=
  require (∀ v ∈ value, v ≠ "" ∧ v.length ≤ 256)
    (.refreshConfirmation "confirmation token must be a non-empty string of at most 256 characters")

/-- `_ONSPD_REFRESH_DATASOURCE_ID`. -/
def onspdRefreshDatasourceId : String := "ons.onspd.postcode"

/-- `_ONSPD_REFRESH_DAILY_LIMIT`. -/
def onspdRefreshDailyLimit : Nat := 20

/-- `_REFRESH_CONFIRMATION_TTL` in microseconds. -/
def refreshConfirmationTtl : Nat := 600 * Time.second

/-- The checks `submit_agent_refresh` makes before it touches the store. -/
def validateRefreshArgs (args : RefreshArgs) : Except StoreError Unit := do
  requireRefreshIdentifier "request_id" args.requestId
  requireRefreshIdentifier "principal" args.principal
  requireRefreshDigest "request_fingerprint" args.requestFingerprint
  requireRefreshDigest "dedupe_key" args.dedupeKey
  require (args.requestProfile ≠ "" ∧ args.intent ≠ "")
    (.operational "refresh profile and intent are required")
  requireOptionalRefreshConfirmationToken args.confirmationToken
  require (args.confirmationToken.isSome → args.datasourceId = onspdRefreshDatasourceId)
    (.refreshConfirmation "confirmation is only supported for the ONSPD refresh tool")
  require (args.submittedAt ≤ args.cooldownUntil)
    (.operational "refresh cooldown cannot precede submission")

/-! ## Control metadata -/

/-- A non-empty string member of the control object. -/
def controlText (control : Json) (key : String) : Except StoreError String :=
  orThrow (((control.get? key).bind Json.asStr?).filter (· ≠ ""))
    (.operational "durable refresh request metadata is invalid")

/-- `_parse_timestamp`. -/
def parseTimestamp (s : String) : Except StoreError Time :=
  orThrow (fromIsoformat s) (.operational "invalid persisted timestamp")

/-- `_refresh_control`. -/
def refreshControl (request : Json) : Except StoreError RefreshControl := do
  let members ← match request with
    | .obj members => .ok members
    | _ => .error (.operational "durable refresh request metadata is invalid")
  let control ← match Json.lookup "_refresh_control" members with
    | some (.obj control) => .ok (Json.obj control)
    | _ => .error (.operational "durable refresh request metadata is missing")
  let principal ← controlText control "principal"
  let requestFingerprint ← controlText control "request_fingerprint"
  let dedupeKey ← controlText control "dedupe_key"
  let submittedText ← controlText control "submitted_at"
  let cooldownText ← controlText control "cooldown_until"
  let initialState ← controlText control "initial_state"
  requireRefreshIdentifier "principal" principal
  requireRefreshDigest "request_fingerprint" requestFingerprint
  requireRefreshDigest "dedupe_key" dedupeKey
  require (initialState = "queued")
    (.operational "durable refresh request initial state is invalid")
  let submittedAt ← parseTimestamp submittedText
  let cooldownUntil ← parseTimestamp cooldownText
  require (submittedAt ≤ cooldownUntil)
    (.operational "durable refresh request cooldown is invalid")
  .ok { principal, requestFingerprint, dedupeKey, submittedAt, cooldownUntil, initialState }

/-- The control object `submit_agent_refresh` stores with its job. -/
def controlJson (args : RefreshArgs) : Json := .obj [
  ("principal", .str args.principal),
  ("request_fingerprint", .str args.requestFingerprint),
  ("dedupe_key", .str args.dedupeKey),
  ("submitted_at", .str (isoformat args.submittedAt)),
  ("cooldown_until", .str (isoformat args.cooldownUntil)),
  ("initial_state", .str "queued")]

/-- The request `submit_agent_refresh` enqueues. -/
def refreshRequestMembers (definition : DatasourceDefinition) (args : RefreshArgs) :
    List (String × Json) :=
  Json.merge definition.defaultRequest [
    ("refresh_profile", .str args.requestProfile),
    ("scope", .obj (args.boundedScope.map fun m => (m.1, .arr (m.2.map .str)))),
    ("intent", .str args.intent),
    ("_refresh_control", controlJson args)]

/-! ## Lookups -/

/-- `_refresh_job_by_request_id`. -/
def refreshJobByRequestId (requestId : String) (db : Db) : Except StoreError (Option JobRow) :=
  match db.jobs.filter fun j => j.requestInstanceId = some requestId ∧ j.trigger = .agentRequest with
  | [] => .ok none
  | [j] => .ok (some j)
  | _ => .error (.operational "ambiguous durable refresh request ID")

/-- A member of an active refresh cohort. -/
structure CohortMember where
  jobId : String
  initialState : String
  submittedAt : Time
  cooldownUntil : Time
  deriving DecidableEq

/-- The newest ledger row of a cohort still cooling down. -/
def activeLedgerRow (dedupeKey : String) (now : Time) (db : Db) : Option RefreshRequestRow :=
  ((db.refreshRequests.filter fun r => r.dedupeKey = dedupeKey ∧ now < r.cooldownUntil).insertionSort
    fun a b => toLex (b.submittedAt, b.requestId) ≤ toLex (a.submittedAt, a.requestId)).head?

/-- The agent jobs no ledger row refers to. -/
def Db.orphanJobs (db : Db) : List JobRow :=
  db.jobs.filter fun j => j.trigger = .agentRequest ∧ ∀ r ∈ db.refreshRequests, r.jobId ≠ j.jobId

/-- The cohort members among orphan jobs, from their control metadata. -/
def orphanMembers (dedupeKey : String) (now : Time) :
    List JobRow → Except StoreError (List CohortMember)
  | [] => .ok []
  | j :: js => do
    match j.request.get? "_refresh_control" with
    | none => orphanMembers dedupeKey now js
    | some _ =>
      let control ← refreshControl j.request
      let rest ← orphanMembers dedupeKey now js
      if control.dedupeKey = dedupeKey ∧ now < control.cooldownUntil then
        .ok (⟨j.jobId, control.initialState, control.submittedAt, control.cooldownUntil⟩ :: rest)
      else .ok rest

/-- `max(candidates, key=(submitted_at, job_id))`: the first of the greatest. -/
def latestMember : List CohortMember → Option CohortMember
  | [] => none
  | c :: cs => some (cs.foldl (fun best d =>
      if toLex (best.submittedAt, best.jobId) < toLex (d.submittedAt, d.jobId) then d else best) c)

/-- `_active_refresh_dedupe`. -/
def activeRefreshDedupe (dedupeKey : String) (now : Time) (db : Db) :
    Except StoreError (Option CohortMember) := do
  let ledger := (activeLedgerRow dedupeKey now db).map fun r =>
    CohortMember.mk r.jobId r.initialState r.submittedAt r.cooldownUntil
  let orphans ← orphanMembers dedupeKey now db.orphanJobs
  .ok (latestMember (ledger.toList ++ orphans))

/-- `_validate_existing_refresh_request`. -/
def validateExistingRefreshRequest (row : RefreshRequestRow) (args : RefreshArgs) :
    Except StoreError DurableRefreshResult := do
  require (row.principal = args.principal)
    (.refreshAccess "request_instance_id belongs to another principal")
  require (row.requestFingerprint = args.requestFingerprint)
    (.refreshReplay "request_instance_id was reused for a different request")
  .ok { jobId := some row.jobId, disposition := row.disposition, initialState := row.initialState
        submittedAt := row.submittedAt }

/-- `_validate_refresh_confirmation_identity`. -/
def validateRefreshConfirmationIdentity (row : RefreshConfirmationRow) (args : RefreshArgs) :
    Except StoreError Unit := do
  require (row.principal = args.principal)
    (.refreshAccess "request_instance_id belongs to another principal")
  require (row.requestFingerprint = args.requestFingerprint)
    (.refreshReplay "request_instance_id was reused for a different request")
  require (row.datasourceId = args.datasourceId ∧ row.definitionVersion = args.definitionVersion)
    (.refreshReplay "request_instance_id was reused for a different datasource")

/-! ## The daily budget -/

section

variable (env : Env)

/-- `_refresh_jobs_in_london_day`. -/
def refreshJobsInLondonDay (submittedAt : Time) (db : Db) : Except StoreError Nat := do
  let (dayStart, dayEnd) ← env.londonDayWindow submittedAt
  .ok (rowcount (fun j => j.datasourceId = some onspdRefreshDatasourceId ∧
    j.trigger = .agentRequest ∧ dayStart ≤ j.createdAt ∧ j.createdAt < dayEnd) db.jobs)

/-- The answer that asks for a confirmation. -/
def confirmationRequired (row : RefreshConfirmationRow) : DurableRefreshResult where
  jobId := none
  disposition := .confirmationRequired
  initialState := "confirmation_required"
  submittedAt := row.issuedAt
  confirmationToken := some row.confirmationToken
  confirmationExpiresAt := some row.expiresAt

/-- `_issue_refresh_confirmation`. -/
def issueRefreshConfirmation (args : RefreshArgs) (pending : Option RefreshConfirmationRow)
    (db : Db) : Except StoreError (DurableRefreshResult × Db) :=
  match pending with
  | some row => do
    require (args.submittedAt < row.expiresAt)
      (.refreshConfirmation "refresh confirmation expired; create a new request")
    .ok (confirmationRequired row, db)
  | none => do
    let expiresAt ← orThrow (args.submittedAt.add? refreshConfirmationTtl) .overflow
    let (dayStart, _) ← env.londonDayWindow args.submittedAt
    let row : RefreshConfirmationRow := {
      confirmationToken := env.newId "refresh_confirmation" db.drawn
      requestId := args.requestId
      principal := args.principal
      requestFingerprint := args.requestFingerprint
      datasourceId := args.datasourceId
      definitionVersion := args.definitionVersion
      dayStartAt := dayStart
      issuedAt := args.submittedAt
      expiresAt }
    require (∀ c ∈ db.refreshConfirmations, c.requestId ≠ args.requestId)
      (.integrity "UNIQUE constraint failed: refresh_confirmation.request_id")
    .ok (confirmationRequired row, { db with
      refreshConfirmations := db.refreshConfirmations ++ [row]
      drawn := db.drawn + 1 })

/-- `_onspd_refresh_confirmation`: `none` lets the submission go on. -/
def onspdRefreshConfirmation (args : RefreshArgs) (pending : Option RefreshConfirmationRow)
    (db : Db) : Except StoreError (Option DurableRefreshResult × Db) :=
  if args.datasourceId ≠ onspdRefreshDatasourceId then .ok (none, db)
  else do
    let used ← refreshJobsInLondonDay env args.submittedAt db
    if used < onspdRefreshDailyLimit then do
      require (args.confirmationToken = none) (.refreshConfirmation
        "confirmation is not required while the ONSPD daily quota remains")
      .ok (none, db)
    else
      match args.confirmationToken with
      | none => do
        let (result, db) ← issueRefreshConfirmation env args pending db
        .ok (some result, db)
      | some token => do
        let row ← orThrow pending (.refreshConfirmation "refresh confirmation is unknown")
        require (row.confirmationToken = token)
          (.refreshConfirmation "refresh confirmation is invalid")
        require (args.submittedAt < row.expiresAt)
          (.refreshConfirmation "refresh confirmation expired; create a new request")
        .ok (none, db)

/-! ## Submission -/

/-- The ledger row still to be written, or an answer that needs none. -/
inductive RefreshStep where
  | done (result : DurableRefreshResult)
  | bind (row : RefreshRequestRow)

/-- The ledger row of a submission. -/
def ledgerRow (args : RefreshArgs) (dedupeKey jobId : String) (disposition : RefreshDisposition)
    (initialState : String) (submittedAt cooldownUntil : Time) : RefreshRequestRow where
  requestId := args.requestId
  principal := args.principal
  requestFingerprint := args.requestFingerprint
  dedupeKey := dedupeKey
  datasourceId := args.datasourceId
  definitionVersion := args.definitionVersion
  requestProfile := args.requestProfile
  jobId := jobId
  disposition := disposition
  initialState := initialState
  submittedAt := submittedAt
  cooldownUntil := cooldownUntil

/-- The binding of a request that is already durable: its ledger row, the identity check of a pending
confirmation, the job of a submission that stopped before its ledger row, or an active cohort. -/
def resolveRefresh (args : RefreshArgs) (db : Db) :
    Except StoreError (Option RefreshStep × Option RefreshConfirmationRow) :=
  match db.refreshRequests.find? fun r => r.requestId = args.requestId with
  | some row => do
    let result ← validateExistingRefreshRequest row args
    .ok (some (.done result), none)
  | none => do
    let pending := db.refreshConfirmations.find? fun c => c.requestId = args.requestId
    match pending with
    | some row => validateRefreshConfirmationIdentity row args
    | none => .ok ()
    match ← refreshJobByRequestId args.requestId db with
    | some job => do
      let control ← refreshControl job.request
      require (control.principal = args.principal)
        (.refreshAccess "request_instance_id belongs to another principal")
      require (control.requestFingerprint = args.requestFingerprint)
        (.refreshReplay "request_instance_id was reused for a different request")
      .ok (some (.bind (ledgerRow args control.dedupeKey job.jobId .accepted control.initialState
        control.submittedAt control.cooldownUntil)), pending)
    | none =>
      match ← activeRefreshDedupe args.dedupeKey args.submittedAt db with
      | some prior => .ok (some (.bind (ledgerRow args args.dedupeKey prior.jobId .deduplicated
          prior.initialState args.submittedAt prior.cooldownUntil)), pending)
      | none => .ok (none, pending)

/-- Everything `submit_agent_refresh` does before the ledger insert. -/
def prepareRefresh (args : RefreshArgs) (clock : Nat → Time) : Proc Db StoreError RefreshStep := do
  Proc.query fun _ => validateRefreshArgs args
  Proc.atomically (syncRegistry env args.submittedAt)
  let definition ← Proc.query fun _ => registryAsOperational
    (env.registry.lookup env.platform args.datasourceId (some args.definitionVersion))
  let (step, pending) ← Proc.query (resolveRefresh args)
  match step with
  | some step => pure step
  | none =>
    match ← Proc.atomically (onspdRefreshConfirmation env args pending) with
    | some result => pure (.done result)
    | none =>
      let queued ← enqueue env {
        datasourceId := args.datasourceId
        definitionVersion := some args.definitionVersion
        request := some (refreshRequestMembers definition args)
        trigger := "agent_request"
        lane := some args.lane
        scheduledFor := some args.submittedAt
        requestInstanceId := some args.requestId } clock
      Proc.query fun _ => require (queued.accepted = true)
        (.operational "refresh job was not accepted for ledger binding")
      pure (.bind (ledgerRow args args.dedupeKey queued.jobId .accepted queued.state.name
        args.submittedAt args.cooldownUntil))

/-- `_record_refresh_request`. -/
def recordRefreshRequest (row : RefreshRequestRow) (db : Db) :
    Except StoreError (DurableRefreshResult × Db) := do
  require (∀ r ∈ db.refreshRequests, r.requestId ≠ row.requestId)
    (.integrity "UNIQUE constraint failed: refresh_request.request_id")
  require (row.submittedAt ≤ row.cooldownUntil)
    (.integrity "CHECK constraint failed: cooldown_until >= submitted_at")
  require (∃ j ∈ db.jobs, j.jobId = row.jobId) (.integrity "FOREIGN KEY constraint failed")
  .ok ({ jobId := some row.jobId, disposition := row.disposition, initialState := row.initialState
         submittedAt := row.submittedAt },
    { db with refreshRequests := db.refreshRequests ++ [row] })

/-- `submit_agent_refresh`. -/
def submitAgentRefresh (args : RefreshArgs) (clock : Nat → Time) :
    Proc Db StoreError DurableRefreshResult := do
  match ← prepareRefresh env args clock with
  | .done result => pure result
  | .bind row => Proc.atomically (recordRefreshRequest row)

end

end NanFung
