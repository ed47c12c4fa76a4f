import NanFung.Recurrence
import NanFung.Schema

/-!
# The store's environment and shared helpers

What an `OperationalStore` is constructed with (`Env`), the time arithmetic of leases and retries,
the compare-and-set condition every worker call repeats, and `sync_registry`. A transaction is a
function `Db → Except StoreError (α × Db)`: an exception discards its writes. Methods made of several
transactions are `Proc`s. The clock is an argument everywhere.
-/

namespace NanFung

open Table

/-- `StoredArtifact`. -/
structure Artifact where
  contentSha256 : String
  mediaType : Option String
  deriving DecidableEq, Repr

/-- Evidence is given as bytes or as an artifact stored before. -/
inductive EvidenceBody where
  | bytes (body : List UInt8)
  | stored (artifact : Artifact)
  deriving DecidableEq

/-- A parsed submarket mapping. -/
structure SubmarketMapping where
  key : String
  name : String
  version : Option String
  locations : List String
  deriving DecidableEq

/-- The deployment around the database: registry, runtime bindings, and the checks on URLs, artifact
bytes, submarket submissions and time zones that the store calls but does not define. -/
structure Env where
  platform : Platform
  registry : DatasourceRegistry
  runtimeBindings : List BindingDescriptor
  /-- `validate_source_url(url, policy)` for allowed hosts and a method accepts. -/
  sourceUrlAllowed : List String → String → String → Bool
  /-- Verify or validate the bytes against the definition's artifact policy and publish them. -/
  publishArtifact : DatasourceDefinition → EvidenceBody → Option String → Except StoreError Artifact
  /-- `validate_submarket_mapping_submission`; the error is its text. -/
  submarketAttestation : Option String → Option String → Except String String
  /-- The sandboxed parse of a saved submarket artifact. -/
  submarketMapping : Artifact → Except String SubmarketMapping
  /-- `ZoneInfo(name)`, if there is one. -/
  zoneInfo : String → Option Zone
  /-- `_ONSPD_REFRESH_TIMEZONE`. -/
  london : Zone
  /-- `str(Path(output_directory).expanduser().resolve())`. -/
  resolvePath : String → String

namespace Env

variable (env : Env)

def newId (kind : String) (n : Nat) : String := env.platform.newId kind n

/-- `_json`: the value a JSON column holds. -/
def json (v : Json) : Except StoreError Json := env.platform.normalizeJson v

/-- `_json(value) if value else None`. -/
def optJson : Option (List (String × Json)) → Except StoreError (Option Json)
  | some (m :: ms) => do
    let v ← env.json (.obj (m :: ms))
    .ok (some v)
  | _ => .ok none

/-- `_london_day_window`: the bounds of the London calendar day of an instant. -/
def londonDayWindow (t : Time) : Except StoreError (Time × Time) := do
  let wall ← orThrow (env.london.toLocal t) .overflow
  let day := wall / dayMicros
  let start ← orThrow (env.london.toUtc (day * dayMicros)) .overflow
  let stop ← orThrow (env.london.toUtc ((day + 1) * dayMicros)) .overflow
  .ok (start, stop)

/-- Draw an identifier outside a transaction. -/
def draw (kind : String) : Proc Db StoreError String := fun db =>
  (.ok (env.newId kind db.drawn), { db with drawn := db.drawn + 1 })

end Env

/-! ## Leases and retry times -/

/-- `_timestamp(anchor + timedelta(seconds=_lease_seconds(value)))`. -/
def leaseDeadline (now : Time) (leaseSeconds : Int) : Except StoreError Time := do
  require (1 ≤ leaseSeconds ∧ leaseSeconds ≤ 3600)
    (.operational "lease_seconds must be an integer in [1, 3600]")
  orThrow (now.add? (leaseSeconds.toNat * Time.second)) .overflow

/-- The bounded exponential delay of `_retry_timestamp`, in seconds. -/
def retryDelay (policy : Json) (attemptNo : Nat) : Nat :=
  let base : Int := match ((policy.get? "base_delay_seconds").getD (.int 60)).asInt? with
    | some b => if b < 0 then 60 else b
    | none => 60
  let maximum : Int := match ((policy.get? "max_delay_seconds").getD (.int 3600)).asInt? with
    | some m => if m < base then max base 3600 else m
    | none => max base 3600
  (min maximum (base * 2 ^ min (attemptNo - 1) 16)).toNat

/-- `_retry_timestamp`. -/
def retryTimestamp (now : Time) (policy : Json) (attemptNo : Nat) : Except StoreError Time :=
  orThrow (now.add? (retryDelay policy attemptNo * Time.second)) .overflow

/-- `job_id = ? AND claim_token = ? AND state = ? AND lease_expires_at > ?`. -/
def JobRow.leasedBy (jobId claimToken : String) (state : JobState) (now : Time) (j : JobRow) :
    Bool :=
  j.jobId = jobId ∧ j.claimToken = some claimToken ∧ j.state = state ∧
    ∃ e ∈ j.leaseExpiresAt, now < e

/-- The number of rows a statement's condition selects. -/
def rowcount {α : Type} (p : α → Bool) (t : List α) : Nat := (t.filter p).length

/-- The definition row a job refers to. -/
def Db.jobDefinition? (db : Db) (j : JobRow) : Option DefinitionRow := do
  let datasourceId ← j.datasourceId
  let version ← j.definitionVersion
  db.definition? datasourceId version

/-- `_require_running_run`: the job under the handle's claim, with the retry policy of its
definition. -/
def requireRunningRun (run : RunHandle) (now : Time) (db : Db) :
    Except StoreError (JobRow × Json) :=
  orThrow (do
    let j ← db.jobs.find? (JobRow.leasedBy run.jobId run.claimToken .running now)
    let d ← db.jobDefinition? j
    let _ ← db.attempts.find? fun a =>
      a.attemptId = run.attemptId ∧ a.jobId = j.jobId ∧ a.status = .running
    some (j, d.definition.retryPolicy)) (.operational "run is not owned by an active claim")

/-! ## Registry synchronisation -/

section Sync

variable (env : Env)

/-- `_insert_definition`. -/
def insertDefinition (d : DatasourceDefinition) (now : Time) (db : Db) : Except StoreError Db :=
  match db.definitions.find? fun r => r.definition.key = d.key with
  | some r => do
    require (r.definition.definitionHash = d.definitionHash)
      (.operational "immutable datasource definition conflicts with database")
    .ok db
  | none => do
    require (∀ r ∈ db.definitions, r.definition.definitionHash ≠ d.definitionHash)
      (.integrity "UNIQUE constraint failed: datasource_definition.definition_hash")
    .ok { db with definitions := db.definitions ++ [⟨d, now⟩] }

/-- `_schedule_id`. -/
def scheduleId (d : DatasourceDefinition) (name : String) : Except StoreError String := do
  let digest ← env.platform.requestHash (.obj [
    ("datasource_id", .str d.datasourceId),
    ("definition_version", .int d.definitionVersion),
    ("name", .str name)])
  .ok ("schedule_" ++ String.ofList (digest.toList.take 24))

/-- `INSERT OR IGNORE INTO workflow_schedule` for one schedule of a definition. -/
def insertSchedule (d : DatasourceDefinition) (s : ScheduleDescriptor) (now : Time) (db : Db) :
    Except StoreError Db := do
  let id ← scheduleId env d s.name
  let rule ← env.json s.rule
  let ruleHash ← env.platform.requestHash s.rule
  if ∃ r ∈ db.schedules, r.scheduleId = id ∨
      ((r.datasourceId, r.definitionVersion) = d.key ∧ r.name = s.name ∧ r.ruleHash = ruleHash) then
    .ok db
  else
    .ok { db with schedules := db.schedules ++ [{
      scheduleId := id
      datasourceId := d.datasourceId
      definitionVersion := d.definitionVersion
      name := s.name
      lane := d.defaultLane
      rule
      ruleHash
      timezone := s.timezone
      catchupPolicy := s.catchupPolicy
      maxCatchupJobs := s.maxCatchupJobs
      maxCatchupHorizonSeconds := s.maxCatchupHorizonSeconds
      cursorAt := none
      nextDueAt := none
      enabled := s.enabled
      pausedReason := none
      createdAt := now
      updatedAt := now }] }

/-- One definition with its schedules. -/
def syncDefinition (now : Time) (db : Db) (d : DatasourceDefinition) : Except StoreError Db := do
  let db ← insertDefinition d now db
  d.schedules.foldlM (fun db s => insertSchedule env d s now db) db

/-- `sync_registry`. -/
def syncRegistry (now : Time) (db : Db) : Except StoreError (Unit × Db) := do
  let db ← env.registry.definitions.foldlM (syncDefinition env now) db
  .ok ((), db)

end Sync

end NanFung
