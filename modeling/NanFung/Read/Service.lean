import NanFung.Dates
import NanFung.Lib.Base64
import NanFung.Lib.JsonRead
import NanFung.Lib.PyText
import NanFung.Registry

/-!
# The read service

`ReadService.query` over a repository: the signed cursor, its checks, and the page that is returned. A
text that a caller supplies is any Python string; stored texts and those of the host have no surrogates.
-/

namespace NanFung

open Base64 PyText

/-- What may leave the service. -/
inductive ServiceError where
  /-- `ReadApiError` itself. -/
  | readApi (message : String)
  | invalidReadRequest (message : String)
  | invalidCursor (message : String)
  | accessDenied (message : String)
  /-- `UnicodeEncodeError` -/
  | unicodeEncode
  /-- `TypeError` -/
  | type
  /-- `AttributeError` -/
  | attribute
  /-- Another `ValueError`. -/
  | value
  deriving DecidableEq, Repr

/-- The error is a `ReadApiError`. -/
def ServiceError.IsReadApi : ServiceError → Prop
  | .readApi _ | .invalidReadRequest _ | .invalidCursor _ | .accessDenied _ => True
  | _ => False

/-! ## Contracts -/

/-- `READ_SCHEMA_VERSION` -/
def readSchemaVersion : String := "read_api.v1"

/-- `QUERY_KINDS` -/
def queryKinds : List String := ["metrics", "supply", "events", "geographies", "health"]

/-- `ALLOWED_FILTERS` -/
def allowedFilters : List String :=
  ["datasource_id", "category", "record_type", "metric_id", "geography_code", "provider",
    "observation_id", "evidence_id", "source_date_from", "source_date_to"]

/-- `ReadContext`; its sets are lists that hold nothing twice. -/
structure ReadContext where
  principal : String
  allowedAccessClasses : List AccessClass
  allowedResultRefs : List String
  classes_nodup : allowedAccessClasses.Nodup
  refs_nodup : allowedResultRefs.Nodup

/-- `ReadQuery` as its constructor leaves it: a filter of one value is stored as the value. -/
structure ReadQuery where
  queryKind : String
  filters : List (String × List PyText)
  asOf : Option Time
  cursor : Option PyText
  limit : Nat
  resultRef : Option PyText
  kind_known : queryKind ∈ queryKinds
  limit_bounds : 1 ≤ limit ∧ limit ≤ 100
  cursor_bounds : ∀ c ∈ cursor, 1 ≤ c.length ∧ c.length ≤ 4096
  ref_bounds : ∀ ref ∈ resultRef, 1 ≤ ref.length ∧ ref.length ≤ 512
  filters_allowed : ∀ f ∈ filters, f.1 ∈ allowedFilters ∧ f.2 ≠ []
  filters_nodup : (filters.map Prod.fst).Nodup

/-- What the service reads of a `ReadRecord`. -/
structure ServiceRecord where
  observationId : String
  datasourceId : String
  queryKind : String
  category : String
  recordType : String
  accessClass : AccessClass
  availableAt : Time
  payload : List (String × Json)
  evidenceIds : List String
  sourceDate : Option CalendarDate
  canonical : Bool
  lane : String

structure ReadPage where
  records : List ServiceRecord
  totalCount : Nat

structure ReadResponse where
  queryKind : String
  anchorAsOf : Time
  records : List ServiceRecord
  nextCursor : Option (List Char)
  totalCount : Nat
  canonical : Bool
  accessClass : Option AccessClass

/-- A repository whose methods return; a method that is missing is none, and so is a page that is no
`ReadPage`. -/
structure ReadRepository where
  queryCanonical : ReadQuery → Time → ReadContext → List ServiceRecord
  queryResult : Option (PyText → ReadQuery → Time → ReadContext → List ServiceRecord)
  queryPage : Option (ReadQuery → Time → ReadContext → Option (String × String) → Option ReadPage)

/-- `ReadService`; `sign` is HMAC-SHA256 under its secret, `float` the `repr` of a literal's value. -/
structure ReadService where
  repository : ReadRepository
  sign : Bytes → Bytes
  cursorMaxAge : Nat
  float : String → String
  maxAge_pos : 0 < cursorMaxAge

/-- What the clock shows where a query reads it. -/
structure ServiceClock where
  anchor : Time
  validate : Time
  issue : Time

section

variable (P : Platform) (svc : ReadService) (clock : ServiceClock) (context : ReadContext)
  (q : ReadQuery)

/-! ## Fingerprints -/

/-- `policy_fingerprint` -/
def ReadContext.policyFingerprint : String :=
  P.sha256 (Json.render (.obj [
    ("principal", .str context.principal),
    ("access_classes", .arr
      (((context.allowedAccessClasses.map AccessClass.name).insertionSort (· ≤ ·)).map .str)),
    ("result_refs", .arr ((context.allowedResultRefs.insertionSort (· ≤ ·)).map .str))]))

def ReadContext.allows (accessClass : AccessClass) : Bool :=
  accessClass ∈ context.allowedAccessClasses

/-- A text as JSON, if it can be encoded. -/
def textJson? (text : PyText) : Option Json := (chars? text).map fun s => .str (String.ofList s)

/-- The value of a filter as JSON. -/
def filterJson? : List PyText → Option Json
  | [value] => textJson? value
  | values => (values.mapM textJson?).map .arr

/-- `_query_fingerprint` -/
def queryFingerprint : Except ServiceError String := do
  let filters ← orThrow (q.filters.mapM fun f => (filterJson? f.2).map fun v => (f.1, v))
    .unicodeEncode
  let resultRef ← match q.resultRef with
    | none => .ok Json.null
    | some ref => orThrow (textJson? ref) .unicodeEncode
  .ok (P.sha256 (Json.render (.obj [
    ("schema_version", .str readSchemaVersion),
    ("query_kind", .str q.queryKind),
    ("filters", .obj filters),
    ("result_ref", resultRef),
    ("sort", .arr [.str "available_at:desc", .str "observation_id:desc"])])))

/-! ## Cursors -/

/-- What a call of `_make_cursor` is given, with the time that it reads. -/
structure CursorCall where
  policyFingerprint : String
  queryFingerprint : String
  anchorAsOf : Time
  lastAvailableAt : Time
  lastObservationId : String
  issuedAt : Time

def CursorCall.payload (call : CursorCall) : List (String × Json) :=
  [("schema_version", .str readSchemaVersion),
    ("query_fingerprint", .str call.queryFingerprint),
    ("policy_fingerprint", .str call.policyFingerprint),
    ("anchor_as_of", .str (isoformat call.anchorAsOf)),
    ("last_available_at", .str (isoformat call.lastAvailableAt)),
    ("last_observation_id", .str call.lastObservationId),
    ("issued_at", .str (isoformat call.issuedAt))]

/-- `_encode_part` of `_json_bytes`. -/
def encodeJson (value : Json) : List Char := encode (utf8Encode value.render)

/-- The signature of an encoded part. -/
def signature (encoded : List Char) : List Char := encode (svc.sign (utf8Encode encoded))

/-- `_make_cursor` -/
def makeCursor (call : CursorCall) : List Char :=
  let encoded := encodeJson (.obj call.payload)
  encoded ++ '.' :: signature svc encoded

/-- `_decode_part` -/
def decodePart (value : List Char) : Except ServiceError Bytes :=
  orThrow (urlsafeDecode value) (.invalidCursor "cursor is not base64url")

/-- `_decode_cursor` -/
def decodeCursor (cursor : PyText) : Except ServiceError Json :=
  match cursor.split '.' with
  | [encoded, supplied] => do
    let encoded ← orThrow (ascii? encoded) .unicodeEncode
    -- `compare_digest` takes texts of ASCII characters only
    let supplied ← orThrow (ascii? supplied) .type
    require (signature svc encoded = supplied) (.invalidCursor "cursor signature is invalid")
    let bytes ← decodePart encoded
    let text ← orThrow (utf8Decode bytes) (.invalidCursor "cursor payload is invalid")
    match Json.loads svc.float text with
    | .ok (.obj members) => .ok (.obj members)
    | .ok _ => .error (.invalidCursor "cursor payload must be an object")
    | .error .decode => .error (.invalidCursor "cursor payload is invalid")
    -- only `JSONDecodeError` is handled
    | .error _ => .error .value
  | _ => .error (.invalidCursor "cursor has an invalid envelope")

/-- `_anchor_as_of` -/
def anchorAsOf : Option Json → Except ServiceError Time
  | none => .ok (q.asOf.getD clock.anchor)
  | some cursor =>
    match cursor.get? "anchor_as_of" with
    | none => .error (.invalidCursor "cursor anchor is invalid")
    | some (.str text) => do
      let anchor ← orThrow (fromIsoformat text) (.invalidCursor "cursor anchor is invalid")
      require (∀ asOf ∈ q.asOf, asOf = anchor)
        (.invalidCursor "cursor cannot be reused with a different as_of")
      .ok anchor
    | some _ => .error .attribute

/-- A timestamp of a cursor. -/
def cursorTime (cursor : Json) (key : String) : Except ServiceError Time :=
  orThrow (((cursor.get? key).bind Json.asStr?).bind fromIsoformat)
    (.invalidCursor "cursor timestamps are invalid")

/-- `_validate_cursor` -/
def validateCursor (cursor : Json) (fingerprint : String) (anchor : Time) :
    Except ServiceError Unit := do
  require (cursor.get? "schema_version" = some (.str readSchemaVersion))
    (.invalidCursor "cursor schema is unsupported")
  require (cursor.get? "query_fingerprint" = some (.str fingerprint))
    (.invalidCursor "cursor does not match this query")
  require (cursor.get? "policy_fingerprint" = some (.str (context.policyFingerprint P)))
    (.invalidCursor "cursor does not match this context")
  require (cursor.get? "anchor_as_of" = some (.str (isoformat anchor)))
    (.invalidCursor "cursor anchor is invalid")
  require (((cursor.get? "last_observation_id").bind Json.asStr?).isSome)
    (.invalidCursor "cursor sort key is invalid")
  let _ ← cursorTime cursor "last_available_at"
  let issuedAt ← cursorTime cursor "issued_at"
  require (clock.validate.val ≤ issuedAt.val + svc.cursorMaxAge)
    (.invalidCursor "cursor has expired")

/-- The sort key that a cursor holds. -/
def cursorKey (cursor : Json) : String × String :=
  (((cursor.get? "last_available_at").bind Json.asStr?).getD "",
    ((cursor.get? "last_observation_id").bind Json.asStr?).getD "")

/-! ## Records -/

/-- The values of a record that a filter of a key compares. -/
def ServiceRecord.actualValues (r : ServiceRecord) (key : String) : Option (List String) :=
  if key = "datasource_id" then some [r.datasourceId]
  else if key = "category" then some [r.category]
  else if key = "record_type" then some [r.recordType]
  else if key = "observation_id" then some [r.observationId]
  else if key = "evidence_id" then some r.evidenceIds
  else ((Json.lookup key r.payload).filter (· ≠ .null)).map fun v => [P.pyStr v]

def isoText (d : CalendarDate) : PyText := ofChars (isoDate d.year d.month d.day)

/-- What `_matches` asks of one filter. -/
def ServiceRecord.passes (r : ServiceRecord) (key : String) (wanted : List PyText) : Bool :=
  if key = "source_date_from" then
    r.sourceDate.any fun d => ¬ Before (isoText d) (wanted.headD [])
  else if key = "source_date_to" then
    r.sourceDate.any fun d => ¬ Before (wanted.headD []) (isoText d)
  else (r.actualValues P key).any fun actual => wanted.any fun value => value ∈ actual.map ofString

/-- `_matches` -/
def ServiceRecord.satisfies (r : ServiceRecord) : Bool :=
  decide (r.queryKind = q.queryKind) && q.filters.all fun f => r.passes P f.1 f.2

/-- `_serialised_sort_key` -/
def ServiceRecord.sortKey (r : ServiceRecord) : String × String :=
  (isoformat r.availableAt, r.observationId)

/-- The result reference is one that the context grants. -/
def ReadContext.grants (ref : PyText) : Bool := ref ∈ context.allowedResultRefs.map ofString

/-- A record that may be returned as canonical. -/
def ServiceRecord.eligible (r : ServiceRecord) (asOf : Time) : Bool :=
  r.canonical && decide (r.lane = "production_ingestion") && decide (r.availableAt ≤ asOf) &&
    context.allows r.accessClass

/-- `_load_records` -/
def loadRecords (asOf : Time) : Except ServiceError (List ServiceRecord) :=
  match q.resultRef with
  | none => .ok ((svc.repository.queryCanonical q asOf context).filter
      fun r => r.eligible context asOf)
  | some ref => do
    require (context.grants ref = true) (.accessDenied "result reference is not granted to this context")
    let load ← orThrow svc.repository.queryResult
      (.readApi "repository does not support run-scoped results")
    let records := load ref q asOf context
    require (∀ r ∈ records, r.canonical = false)
      (.readApi "run-scoped result references must not return canonical rows")
    .ok (records.filter fun r => decide (r.availableAt ≤ asOf) && context.allows r.accessClass)

/-- The place of a class in `_ACCESS_RANK`. -/
def accessRank : AccessClass → Nat
  | .open_ => 0
  | .internal => 1
  | .restricted => 2
  | .referenceOnly => 3

/-- `most_restrictive_access` -/
def mostRestrictiveAccess (classes : List AccessClass) : Option AccessClass :=
  classes.argmax accessRank

/-- The response for the records after the cursor, of which the first `limit` are returned. -/
def respond (fingerprint : String) (asOf : Time) (records : List ServiceRecord) (totalCount : Nat) :
    ReadResponse :=
  let page := records.take q.limit
  { queryKind := q.queryKind
    anchorAsOf := asOf
    records := page
    nextCursor := (page.getLast?.filter fun _ => page.length < records.length).map fun last =>
      makeCursor svc ⟨context.policyFingerprint P, fingerprint, asOf, last.availableAt,
        last.observationId, clock.issue⟩
    totalCount
    canonical := q.resultRef.isNone
    accessClass := mostRestrictiveAccess (page.map ServiceRecord.accessClass) }

/-- `_query_storage_page` -/
def queryStoragePage
    (load : ReadQuery → Time → ReadContext → Option (String × String) → Option ReadPage)
    (fingerprint : String) (asOf : Time) (cursor : Option Json) : Except ServiceError ReadResponse := do
  require (∀ ref ∈ q.resultRef, context.grants ref = true)
    (.accessDenied "result reference is not granted to this context")
  let after := cursor.map cursorKey
  let page ← orThrow (load q asOf context after)
    (.readApi "paged repository returned an invalid page")
  require (page.records.length ≤ q.limit + 1)
    (.readApi "paged repository exceeded the requested page bound")
  require (page.records.length ≤ page.totalCount)
    (.readApi "paged repository returned an invalid total count")
  if q.resultRef = none then
    require (∀ r ∈ page.records, r.eligible context asOf = true ∧ r.satisfies P q = true)
      (.readApi "paged repository returned an ineligible canonical row")
  else
    require (∀ r ∈ page.records, r.canonical = false ∧ r.availableAt ≤ asOf ∧
        context.allows r.accessClass = true ∧ r.satisfies P q = true)
      (.readApi "paged repository returned an ineligible result row")
  require (∀ p ∈ page.records.zip page.records.tail, ¬ toLex p.1.sortKey ≤ toLex p.2.sortKey)
    (.readApi "paged repository returned rows out of keyset order")
  require (∀ key ∈ after, ∀ r ∈ page.records, toLex r.sortKey < toLex key)
    (.readApi "paged repository ignored the cursor boundary")
  .ok (respond P svc clock context q fingerprint asOf page.records page.totalCount)

/-- The rest of `query`, once its cursor is checked. -/
def queryPage (fingerprint : String) (asOf : Time) (cursor : Option Json) :
    Except ServiceError ReadResponse :=
  match svc.repository.queryPage, decide (q.queryKind ≠ "health") with
  | some load, true => queryStoragePage P svc clock context q load fingerprint asOf cursor
  | _, _ => do
    let records ← loadRecords svc context q asOf
    let records := (records.filter fun r => r.satisfies P q).insertionSort fun a b =>
      toLex (b.availableAt, b.observationId) ≤ toLex (a.availableAt, a.observationId)
    let remaining := match cursor with
      | none => records
      | some cursor => records.filter fun r => toLex r.sortKey < toLex (cursorKey cursor)
    .ok (respond P svc clock context q fingerprint asOf remaining records.length)

/-- `ReadService.query` -/
def ReadService.query : Except ServiceError ReadResponse := do
  let fingerprint ← queryFingerprint P q
  match q.cursor with
  | none => do
    let asOf ← anchorAsOf clock q none
    queryPage P svc clock context q fingerprint asOf none
  | some cursor => do
    let cursor ← decodeCursor svc cursor
    let asOf ← anchorAsOf clock q (some cursor)
    validateCursor P svc clock context cursor fingerprint asOf
    queryPage P svc clock context q fingerprint asOf (some cursor)

end

end NanFung
