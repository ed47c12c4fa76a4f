import NanFung.Dates
import NanFung.Lib.Loops
import NanFung.Read.Selection

/-!
# Reading records

What the read repository makes of the selected rows: `_read_record` with the freshness labels and the
checks of `ReadRecord.__post_init__`, and the pages of `_observation_page`. One row that cannot be read
fails the page it is on.
-/

namespace NanFung

/-- Exceptions of a read. -/
inductive ReadError where
  /-- The `ValueError` of `date.fromisoformat`. -/
  | isoformat (text : String)
  | value (message : String)
  | invalidReadRequest (message : String)
  | overflow
  deriving DecidableEq, Repr

/-- Continue with a proof that the condition holds. -/
def ensure {ε : Type} (c : Prop) [Decidable c] (e : ε) : Except ε (PLift c) :=
  if h : c then .ok ⟨h⟩ else .error e

@[simp] theorem ensure_ok {ε : Type} {c : Prop} [Decidable c] {e : ε} {p : PLift c} :
    ensure c e = .ok p ↔ c := by
  unfold ensure
  split
  · exact iff_of_true rfl ‹c›
  · exact iff_of_false (fun h => nomatch h) ‹¬c›

theorem exists_bind_ok {ε α β : Type} {x : Except ε α} {f : α → Except ε β}
    (h : ∃ a, x = .ok a ∧ ∃ b, f a = .ok b) : ∃ b, (x >>= f) = .ok b := by
  obtain ⟨a, ha, b, hb⟩ := h
  exact ⟨b, bind_ok.mpr ⟨a, ha, hb⟩⟩

/-! ## Freshness -/

inductive Freshness where
  | fresh
  | aging
  | stale
  | neverIngested
  | unknown
  | notApplicable
  deriving DecidableEq, Repr

/-- `timedelta.max` in microseconds. -/
def maxDelta : Nat := 1000000000 * dayMicros - 1

/-- A `timedelta` that is not negative. -/
def delta (micros : Nat) : Except ReadError Nat := do
  require (micros ≤ maxDelta) .overflow
  .ok micros

/-- The longest gap between the values of a cycle, given in ascending order. -/
def longestGap (period : Nat) (values : List Nat) : Nat :=
  let gaps := (values.zip (values.rotate 1)).map fun p =>
    let gap := (p.2 + period - p.1) % period
    if gap = 0 then period else gap
  gaps.foldl max 0

/-- The distinct integers of a list within bounds, in ascending order. -/
def cycleValues (low high : Nat) (items : List Json) : List Nat :=
  (List.range (high + 1)).filter fun n => low ≤ n ∧ ∃ v ∈ items, v.asInt? = some (n : Int)

/-- `_rule_interval`, in microseconds. -/
def ruleInterval (rule : Json) : Except ReadError (Option Nat) :=
  match rule.get? "kind", (rule.get? "seconds").bind Json.asInt? with
  | some (.str "interval"), some seconds =>
    if 0 < seconds then do
      let d ← delta (seconds.toNat * Time.second)
      .ok (some d)
    else .ok none
  | some (.str "daily"), _ => .ok (some dayMicros)
  | some (.str "weekly"), _ =>
    match rule.get? "weekdays" with
    | some (.arr weekdays) =>
      match cycleValues 0 6 weekdays with
      | [] => .ok (some (7 * dayMicros))
      | values => .ok (some (longestGap 7 values * dayMicros))
    | _ => .ok (some (7 * dayMicros))
  | some (.str "monthly"), _ =>
    match rule.get? "months" with
    | some (.arr months) =>
      match cycleValues 1 12 months with
      | [] => .ok (some (31 * dayMicros))
      | values => .ok (some (31 * longestGap 12 values * dayMicros))
    | _ => .ok (some (31 * dayMicros))
  | _, _ => .ok none

/-- `isinstance(value, dict)`. -/
def isObject : Json → Bool
  | .obj _ => true
  | _ => false

/-- `_schedule_interval`. -/
def scheduleInterval (definition : Json) : Except ReadError (Option Nat) :=
  match definition.get? "schedules" with
  | some (.arr schedules) => do
    let intervals ← (schedules.filter isObject).mapM fun item =>
      ruleInterval ((item.get? "rule").getD .null)
    .ok (intervals.reduceOption.min?)
  | _ => .ok none

/-- An integer that is no boolean. -/
def strictInt? : Json → Option Int
  | .int i => some i
  | _ => none

/-- `_explicit_freshness_windows`. -/
def explicitFreshnessWindows (policy : Json) : Except ReadError (Option (Nat × Nat)) :=
  match (policy.get? "fresh_for_seconds").bind strictInt?,
    (policy.get? "stale_after_seconds").bind strictInt? with
  | some fresh, some stale =>
    if fresh < 0 ∨ stale ≤ fresh then .ok none
    else do
      let freshFor ← delta (fresh.toNat * Time.second)
      let staleAfter ← delta (stale.toNat * Time.second)
      .ok (some (freshFor, staleAfter))
  | _, _ => .ok none

/-- `_freshness_windows` of a definition. -/
def freshnessWindows (definition : Json) : Except ReadError (Option (Nat × Nat)) :=
  match definition.get? "freshness_policy" with
  | some (.obj members) => do
    let policy := Json.obj members
    if policy.get? "status" = some (.str "not_applicable") then .ok none
    else do
      match ← explicitFreshnessWindows policy with
      | some windows => .ok (some windows)
      | none =>
        if policy.get? "status" ≠ some (.str "configured") then .ok none
        else do
          let scheduled ← scheduleInterval definition
          let interval := scheduled.getD
            (if definition.get? "automation_mode" = some (.str "on_demand") then dayMicros
              else 30 * dayMicros)
          let tripled ← delta (interval * 3)
          .ok (some (tripled / 2, tripled))
  | _ => .ok none

/-- `_freshness_for`. -/
def freshnessFor (value : Option Time) (definition : Json) (asOf : Time) :
    Except ReadError Freshness :=
  match value with
  | none => .ok .unknown
  | some value => do
    match ← freshnessWindows definition with
    | none => .ok .notApplicable
    | some (freshFor, staleAfter) =>
      let age := asOf.val - value.val
      .ok (if age ≤ freshFor then .fresh else if age ≤ staleAfter then .aging else .stale)

/-- A definition whose freshness windows `timedelta` can hold. -/
def Windowed (definition : Json) : Prop := ∃ windows, freshnessWindows definition = .ok windows

theorem freshnessFor_ok {definition : Json} (h : Windowed definition) (value : Option Time)
    (asOf : Time) : ∃ f, freshnessFor value definition asOf = .ok f := by
  obtain ⟨windows, hw⟩ := h
  cases value with
  | none => exact ⟨_, rfl⟩
  | some value =>
    unfold freshnessFor
    simp only [hw]
    cases windows with
    | none => exact ⟨_, rfl⟩
    | some w => exact ⟨_, rfl⟩

/-! ## Records -/

/-- The query kinds of `_RECORD_TYPES`. -/
inductive QueryKind where
  | metrics
  | supply
  | events
  | geographies
  deriving DecidableEq, Repr

namespace QueryKind

/-- `_RECORD_TYPES`. -/
def recordType : QueryKind → String
  | .metrics => "metric"
  | .supply => "supply"
  | .events => "event"
  | .geographies => "geography"

def all : List QueryKind := [.metrics, .supply, .events, .geographies]

end QueryKind

/-- `MAX_RECORD_PAYLOAD_BYTES`. -/
def maxRecordPayloadBytes : Nat := 65536

/-- The length of a payload's JSON text in UTF-8. -/
def payloadBytes (payload : List (String × Json)) : Nat := utf8Length (Json.obj payload).render

/-- `ReadRecord`. -/
structure ReadRecord where
  observationId : String
  datasourceId : String
  queryKind : QueryKind
  category : String
  recordType : String
  accessClass : AccessClass
  availableAt : Time
  payload : List (String × Json)
  evidenceIds : List String
  sourceDate : Option CalendarDate
  retrievedAt : Option Time
  unit : Option String
  definition : Option String
  periodLabel : Option String
  retrievalFreshness : Freshness
  observationFreshness : Freshness
  degraded : Bool
  canonicalAvailable : Bool
  canonical : Bool
  lane : Lane
  observationId_ne : observationId ≠ ""
  datasourceId_ne : datasourceId ≠ ""
  category_ne : category ≠ ""
  recordType_ne : recordType ≠ ""
  evidence_named : ∀ id ∈ evidenceIds, id ≠ ""
  payload_bounded : payloadBytes payload ≤ maxRecordPayloadBytes

section

variable (P : Platform)

/-- `_query_kind_for_type`. -/
def queryKindForType (recordType : String) : Except ReadError QueryKind :=
  orThrow (QueryKind.all.find? fun k => k.recordType = recordType)
    (.value ("unsupported canonical record type " ++ P.pyRepr recordType))

/-- `date.fromisoformat(source_date) if source_date else None`. -/
def readSourceDate : Option String → Except ReadError (Option CalendarDate)
  | none => .ok none
  | some text =>
    if text = "" then .ok none
    else do
      let d ← orThrow (dateFromIsoformat text.toList) (.isoformat text)
      .ok (some d)

/-- `_source_timestamp`. -/
def sourceTimestamp : Option String → Option Time
  | none => none
  | some text =>
    if text = "" then none else (dateFromIsoformat text.toList).map CalendarDate.midnight

/-- The members of a payload; `persist_observation` stores nothing but objects. -/
def payloadMembers : Json → Except ReadError (List (String × Json))
  | .obj members => .ok members
  | _ => .error (.invalidReadRequest "record payload must be bounded JSON-compatible data")

/-- `_read_record` of a canonical row. -/
def readRecord (row : CanonicalRow) (evidence : List EvidenceItem) (asOf : Time) :
    Except ReadError ReadRecord := do
  let o := row.revision
  let retrievedAt := (evidence.map (·.retrievedAt)).max?
  let retrievalFreshness ← freshnessFor retrievedAt row.definition.definitionJson asOf
  let observationFreshness ←
    freshnessFor (sourceTimestamp o.sourceDate) row.definition.definitionJson asOf
  let queryKind ← queryKindForType P o.recordType
  let sourceDate ← readSourceDate o.sourceDate
  let ⟨observationId_ne⟩ ← ensure (o.observationId ≠ "")
    (.invalidReadRequest "observation_id must be non-empty")
  let ⟨datasourceId_ne⟩ ← ensure (o.stream.datasourceId ≠ "")
    (.invalidReadRequest "datasource_id must be non-empty")
  let ⟨category_ne⟩ ← ensure (o.category ≠ "") (.invalidReadRequest "category must be non-empty")
  let ⟨recordType_ne⟩ ← ensure (o.recordType ≠ "")
    (.invalidReadRequest "record_type must be non-empty")
  let ⟨evidence_named⟩ ← ensure (∀ id ∈ evidence.map EvidenceItem.evidenceId, id ≠ "")
    (.invalidReadRequest "evidence IDs must be non-empty")
  let payload ← payloadMembers o.payload
  let ⟨payload_bounded⟩ ← ensure (payloadBytes payload ≤ maxRecordPayloadBytes)
    (.invalidReadRequest "record payload exceeds the read response bound")
  .ok {
    observationId := o.observationId
    datasourceId := o.stream.datasourceId
    queryKind
    category := o.category
    recordType := o.recordType
    accessClass := row.definition.accessClass
    availableAt := row.availableAt
    payload
    evidenceIds := evidence.map EvidenceItem.evidenceId
    sourceDate
    retrievedAt
    unit := o.unit
    definition := o.definition
    periodLabel := o.periodLabel
    retrievalFreshness
    observationFreshness
    degraded := decide (retrievalFreshness = .stale ∨ observationFreshness = .stale)
    canonicalAvailable := true
    canonical := true
    lane := row.lane
    observationId_ne
    datasourceId_ne
    category_ne
    recordType_ne
    evidence_named
    payload_bounded }

/-! ## Pages -/

/-- A page request: the filters of `_filter_sql` as a condition on rows, the keyset boundary and the
limit. -/
structure PageQuery where
  selects : CanonicalRow × List EvidenceItem → Bool
  after : Option (Time × String)
  limit : Nat

/-- `available_at < ? OR (available_at = ? AND observation_id < ?)`. -/
def beyond (boundary : Time × String) (row : CanonicalRow × List EvidenceItem) : Bool :=
  row.1.availableAt < boundary.1 ∨
    row.1.availableAt = boundary.1 ∧ row.1.revision.observationId < boundary.2

/-- The rows of a page: the newest first, one more than the limit. -/
def Db.pageRows (db : Db) (query : PageQuery) (asOf : Time) (classes : List AccessClass) :
    List (CanonicalRow × List EvidenceItem) :=
  let rows := (db.canonicalRecords asOf classes none).filter query.selects
  let rows := rows.filter fun row => ∀ boundary ∈ query.after, beyond boundary row
  (rows.insertionSort fun a b => toLex (b.1.availableAt, b.1.revision.observationId) ≤
    toLex (a.1.availableAt, a.1.revision.observationId)).take (query.limit + 1)

/-- `_observation_page` of canonical rows: the records and the count before the boundary. -/
def observationPage (db : Db) (query : PageQuery) (asOf : Time) (classes : List AccessClass) :
    Except ReadError (List ReadRecord × Nat) := do
  let records ← (db.pageRows query asOf classes).mapM fun row => readRecord P row.1 row.2 asOf
  .ok (records, ((db.canonicalRecords asOf classes none).filter query.selects).length)

/-- `query_canonical`: every canonical row is read, then the records of other types are dropped. -/
def queryCanonical (db : Db) (kind : Option QueryKind) (asOf : Time) (classes : List AccessClass) :
    Except ReadError (List ReadRecord) := do
  let records ← (db.canonicalRecords asOf classes none).mapM fun row =>
    readRecord P row.1 row.2 asOf
  .ok (records.filter fun r => ∀ k ∈ kind, r.recordType = k.recordType)

/-! ## What can be read -/

/-- A source date is missing, blank or a date. -/
def Dated (sourceDate : Option String) : Prop :=
  ∀ text ∈ sourceDate, text ≠ "" → (dateFromIsoformat text.toList).isSome

instance (sourceDate : Option String) : Decidable (Dated sourceDate) :=
  inferInstanceAs (Decidable (∀ text ∈ sourceDate, _))

/-- A payload that fits into a response. -/
def Bounded (payload : Json) : Prop :=
  ∃ members, payload = .obj members ∧ payloadBytes members ≤ maxRecordPayloadBytes

/-- What `_read_record` asks of a row. -/
structure Readable (row : CanonicalRow) (evidence : List EvidenceItem) : Prop where
  kind : ∃ k ∈ QueryKind.all, k.recordType = row.revision.recordType
  dated : Dated row.revision.sourceDate
  observationId : row.revision.observationId ≠ ""
  datasourceId : row.revision.stream.datasourceId ≠ ""
  category : row.revision.category ≠ ""
  recordType : row.revision.recordType ≠ ""
  evidenceIds : ∀ id ∈ evidence.map EvidenceItem.evidenceId, id ≠ ""
  payload : Bounded row.revision.payload

/-- A record carries the columns of its row. -/
structure ReadRecord.Of (row : CanonicalRow) (r : ReadRecord) : Prop where
  observationId : r.observationId = row.revision.observationId
  datasourceId : r.datasourceId = row.revision.stream.datasourceId
  category : r.category = row.revision.category
  recordType : r.recordType = row.revision.recordType
  payload : Json.obj r.payload = row.revision.payload
  unit : r.unit = row.revision.unit
  definition : r.definition = row.revision.definition
  periodLabel : r.periodLabel = row.revision.periodLabel
  sourceDate : readSourceDate row.revision.sourceDate = .ok r.sourceDate

variable {P} {row : CanonicalRow} {evidence : List EvidenceItem} {asOf : Time}

theorem readSourceDate_ok {sourceDate : Option String} :
    (∃ d, readSourceDate sourceDate = .ok d) ↔ Dated sourceDate := by
  cases sourceDate with
  | none => exact iff_of_true ⟨none, rfl⟩ fun _ h => nomatch h
  | some text =>
    simp only [readSourceDate, Dated, Option.mem_some_iff, forall_eq']
    by_cases hblank : text = ""
    · rw [if_pos hblank]
      exact iff_of_true ⟨none, rfl⟩ fun h => absurd hblank h
    · rw [if_neg hblank]
      simp only [bind_ok, orThrow_ok, Except.ok.injEq]
      rw [Option.isSome_iff_exists]
      constructor
      · rintro ⟨_, d, hd, -⟩ -
        exact ⟨d, hd⟩
      · intro h
        obtain ⟨d, hd⟩ := h hblank
        exact ⟨some d, d, hd, rfl⟩

theorem queryKindForType_ok {recordType : String} :
    (∃ k, queryKindForType P recordType = .ok k) ↔ ∃ k ∈ QueryKind.all, k.recordType = recordType := by
  simp only [queryKindForType, orThrow_ok]
  rw [← Option.isSome_iff_exists, List.find?_isSome]
  simp only [decide_eq_true_eq]

theorem payloadMembers_ok {payload : Json} {members : List (String × Json)} :
    payloadMembers payload = .ok members ↔ payload = .obj members := by
  cases payload with
  | obj ms => exact ⟨fun h => congrArg Json.obj (Except.ok.inj h), fun h => congrArg Except.ok (Json.obj.inj h)⟩
  | _ => exact iff_of_false (fun h => by cases h) fun h => by cases h

/-- A row is read if and only if it is readable. -/
theorem readRecord_ok (hwindows : Windowed row.definition.definitionJson) :
    (∃ r, readRecord P row evidence asOf = .ok r) ↔ Readable row evidence := by
  constructor
  · rintro ⟨r, h⟩
    simp only [readRecord, bind_ok, ensure_ok] at h
    obtain ⟨-, -, -, -, k, hk, d, hd, -, hid, -, hds, -, hcat, -, htype, -, hev, members, hpayload, -,
      hbytes, -⟩ := h
    exact ⟨queryKindForType_ok.mp ⟨k, hk⟩, readSourceDate_ok.mp ⟨d, hd⟩, hid, hds, hcat, htype, hev,
      members, payloadMembers_ok.mp hpayload, hbytes⟩
  · intro h
    obtain ⟨f, hf⟩ := freshnessFor_ok hwindows ((evidence.map (·.retrievedAt)).max?) asOf
    obtain ⟨g, hg⟩ := freshnessFor_ok hwindows (sourceTimestamp row.revision.sourceDate) asOf
    obtain ⟨k, hk⟩ := (queryKindForType_ok (P := P)).mpr h.kind
    obtain ⟨d, hd⟩ := readSourceDate_ok.mpr h.dated
    obtain ⟨members, hpayload, hbytes⟩ := h.payload
    unfold readRecord
    refine exists_bind_ok ⟨f, hf, exists_bind_ok ⟨g, hg, exists_bind_ok ⟨k, hk, exists_bind_ok ⟨d, hd, ?_⟩⟩⟩⟩
    refine exists_bind_ok ⟨⟨h.observationId⟩, ensure_ok.mpr h.observationId, ?_⟩
    refine exists_bind_ok ⟨⟨h.datasourceId⟩, ensure_ok.mpr h.datasourceId, ?_⟩
    refine exists_bind_ok ⟨⟨h.category⟩, ensure_ok.mpr h.category, ?_⟩
    refine exists_bind_ok ⟨⟨h.recordType⟩, ensure_ok.mpr h.recordType, ?_⟩
    refine exists_bind_ok ⟨⟨h.evidenceIds⟩, ensure_ok.mpr h.evidenceIds, ?_⟩
    refine exists_bind_ok ⟨members, payloadMembers_ok.mpr hpayload, ?_⟩
    exact exists_bind_ok ⟨⟨hbytes⟩, ensure_ok.mpr hbytes, _, rfl⟩

/-- What is read are the columns of the row. -/
theorem readRecord_of {r : ReadRecord} (h : readRecord P row evidence asOf = .ok r) : r.Of row := by
  simp only [readRecord, bind_ok, ensure_ok, Except.ok.injEq] at h
  obtain ⟨-, -, -, -, -, -, d, hd, -, -, -, -, -, -, -, -, -, -, members, hpayload, -, -, rfl⟩ := h
  exact ⟨rfl, rfl, rfl, rfl, (payloadMembers_ok.mp hpayload).symm, rfl, rfl, rfl, hd⟩

/-- A loop without an exception is one whose items raise none. -/
theorem mapM_isOk {ε α β : Type} {f : α → Except ε β} {l : List α} :
    (∃ l', l.mapM f = .ok l') ↔ ∀ a ∈ l, ∃ b, f a = .ok b := by
  simp only [mapM_ok]
  induction l with
  | nil => exact iff_of_true ⟨[], .nil⟩ fun _ h => nomatch h
  | cons a l ih =>
    rw [List.forall_mem_cons, ← ih]
    constructor
    · rintro ⟨_, hall⟩
      obtain ⟨b, l', hb, hl', -⟩ := List.forall₂_cons_left_iff.mp hall
      exact ⟨⟨b, hb⟩, l', hl'⟩
    · rintro ⟨⟨b, hb⟩, l', hl'⟩
      exact ⟨b :: l', .cons hb hl'⟩

/-- A page is read if and only if each of its rows is. -/
theorem observationPage_ok {db : Db} {query : PageQuery} {classes : List AccessClass} :
    (∃ page, observationPage P db query asOf classes = .ok page) ↔
      ∀ row ∈ db.pageRows query asOf classes, ∃ r, readRecord P row.1 row.2 asOf = .ok r := by
  rw [← mapM_isOk]
  constructor
  · rintro ⟨page, h⟩
    simp only [observationPage, bind_ok] at h
    obtain ⟨records, hrecords, -⟩ := h
    exact ⟨records, hrecords⟩
  · rintro ⟨records, hrecords⟩
    exact exists_bind_ok ⟨records, hrecords, _, rfl⟩

end

end NanFung
