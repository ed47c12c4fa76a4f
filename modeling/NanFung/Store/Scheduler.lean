import NanFung.Store.Refresh

/-!
# The scheduler

`scheduler_tick` turns due slots into jobs: every slot is an `enqueue` of its own, and the cursor is
written after them in a transaction of its own. A tick that stops in between is modelled by `limit`,
the number of such writes after which the process ends.
-/

namespace NanFung

open Table

/-- What a tick reports about one schedule. -/
structure ScheduleReport where
  scheduleId : String
  datasourceId : String
  accepted : Nat
  deduplicated : Nat
  skippedSlots : Nat
  deriving DecidableEq, Repr

/-- The progress of a tick: writes made so far, whether the process has stopped, and the lists of the
report (`errors` pairs a schedule with the code and the exception's class). -/
structure Tick where
  writes : Nat := 0
  stopped : Bool := false
  schedules : List ScheduleReport := []
  blocked : List (String × String) := []
  errors : List (String × String × String) := []

/-- `except (JobError, ValueError, TypeError)`. -/
def StoreError.isValueError : StoreError → Bool
  | .job _ | .value _ | .registry _ | .canonicalization _ => true
  | _ => false

section

variable (env : Env)

/-- `RuntimeBindings.validate(definition, operation="ingest").ready`. -/
def runtimeReady (definition : DatasourceDefinition) : Bool :=
  definition.executableBindings.all fun b => b ∈ env.runtimeBindings

/-- The cursor a schedule starts a tick from. -/
def ScheduleRow.cursor (s : ScheduleRow) : Time := s.cursorAt.getD s.createdAt

/-- The recurrence of a schedule and its due slots. -/
def planSchedule (s : ScheduleRow) (now : Time) :
    Except StoreError (Recurrence × ScheduleMaterialization) := do
  let recurrence ← recurrenceFromRule env.platform env.zoneInfo s.rule s.timezone s.createdAt
  let horizon := if s.maxCatchupHorizonSeconds = 0 then none
    else some (s.maxCatchupHorizonSeconds * Time.second)
  let due ← materializeDueSlots recurrence s.cursor now s.catchupPolicy s.maxCatchupJobs horizon
  .ok (recurrence, due)

/-- The arguments a tick enqueues a slot with. -/
def slotArgs (s : ScheduleRow) (definition : DatasourceDefinition) (slot : Time) : EnqueueArgs where
  datasourceId := definition.datasourceId
  request := some (Json.insert "scheduled_slot" (.str (isoformat slot)) definition.defaultRequest)
  trigger := "schedule"
  lane := some s.lane.name
  scheduledFor := some slot
  scheduleId := some s.scheduleId

/-- How the loop over the slots of one schedule ended. -/
inductive SlotsOutcome where
  | done (accepted deduplicated : Nat)
  | failed (className : String)
  | stopped

/-- The loop over the due slots; an `OperationalError` ends it. -/
def tickSlots (s : ScheduleRow) (definition : DatasourceDefinition) (clock : Nat → Time)
    (limit : Option Nat) : List Time → Nat → Nat → Nat → Proc Db StoreError (Nat × SlotsOutcome)
  | [], writes, accepted, deduplicated => pure (writes, .done accepted deduplicated)
  | slot :: slots, writes, accepted, deduplicated =>
    if limit = some writes then pure (writes, .stopped)
    else do
      let result ← tryCatch
        (do
          let r ← enqueue env (slotArgs s definition slot) fun _ => clock writes
          pure (Except.ok r))
        fun e => if e.isOperational then pure (Except.error e) else throw e
      match result with
      | .error e => pure (writes + 1, .failed e.className)
      | .ok r =>
        if r.accepted then
          tickSlots s definition clock limit slots (writes + 1) (accepted + 1) deduplicated
        else tickSlots s definition clock limit slots (writes + 1) accepted (deduplicated + 1)

/-- `_pause_schedule`. -/
def pauseSchedule (scheduleId reason : String) (now : Time) (db : Db) :
    Except StoreError (Unit × Db) :=
  .ok ((), { db with
    schedules := updateWhere (fun s => s.scheduleId = scheduleId)
      (fun s => { s with pausedReason := some reason, updatedAt := now }) db.schedules })

/-- `_update_schedule_cursor`. -/
def updateScheduleCursor (scheduleId : String) (cursorAt nextDueAt now : Time) (db : Db) :
    Except StoreError (Unit × Db) :=
  .ok ((), { db with
    schedules := updateWhere (fun s => s.scheduleId = scheduleId)
      (fun s => { s with
        cursorAt := some cursorAt
        nextDueAt := some nextDueAt
        pausedReason := none
        updatedAt := now }) db.schedules })

/-- Write the cursor of a schedule whose slots are all enqueued. -/
def tickCursor (s : ScheduleRow) (definition : DatasourceDefinition) (recurrence : Recurrence)
    (due : ScheduleMaterialization) (now : Time) (limit : Option Nat) (t : Tick)
    (accepted deduplicated : Nat) : Proc Db StoreError Tick := do
  let nextCursor := due.nextCursorAt.getD s.cursor
  let nextDue ← Proc.query fun _ => recurrence.nextAfter nextCursor
  if limit = some t.writes then pure { t with stopped := true }
  else do
    Proc.atomically (updateScheduleCursor s.scheduleId nextCursor nextDue now)
    pure { t with
      writes := t.writes + 1
      schedules := t.schedules ++ [⟨s.scheduleId, definition.datasourceId, accepted, deduplicated,
        due.skippedSlots⟩] }

/-- One schedule of a tick. -/
def tickSchedule (now : Time) (clock : Nat → Time) (limit : Option Nat) (t : Tick)
    (s : ScheduleRow) : Proc Db StoreError Tick :=
  if t.stopped then pure t
  else do
    let definition ← Proc.query fun _ =>
      env.registry.lookup env.platform s.datasourceId (some s.definitionVersion)
    if !runtimeReady env definition then
      pure { t with blocked := t.blocked ++ [(s.scheduleId, definition.datasourceId)] }
    else match planSchedule env s now with
      | .error e =>
        if e.isValueError then
          if limit = some t.writes then pure { t with stopped := true }
          else do
            Proc.atomically (pauseSchedule s.scheduleId "SCHEDULE_INVALID" now)
            pure { t with
              writes := t.writes + 1
              errors := t.errors ++ [(s.scheduleId, "SCHEDULE_INVALID", e.className)] }
        else throw e
      | .ok (recurrence, due) => do
        let (writes, outcome) ← tickSlots env s definition clock limit due.slots t.writes 0 0
        let t := { t with writes }
        match outcome with
        | .stopped => pure { t with stopped := true }
        | .failed name => pure { t with
            errors := t.errors ++ [(s.scheduleId, "SCHEDULE_ENQUEUE_FAILED", name)] }
        | .done accepted deduplicated =>
          tickCursor s definition recurrence due now limit t accepted deduplicated

/-- The schedules a tick reads, in its order. -/
def Db.enabledSchedules (db : Db) : List ScheduleRow :=
  (db.schedules.filter fun s => s.enabled ∧ s.pausedReason = none).insertionSort
    fun a b => a.scheduleId ≤ b.scheduleId

/-- `scheduler_tick`; `limit = none` is a tick that runs to its end. -/
def schedulerTick (now : Time) (clock : Nat → Time) (limit : Option Nat) :
    Proc Db StoreError Tick := do
  Proc.atomically (syncRegistry env now)
  let _ ← Proc.atomically (recoverExpired env now)
  let schedules ← Proc.query fun db => .ok db.enabledSchedules
  schedules.foldlM (tickSchedule env now clock limit) {}

end

end NanFung
