import NanFung.Lib.Dict
import NanFung.Lib.Json

/-!
# The turn ledger

`addQueryLedger` and `enrichQueryLedger` of `turn-runner.ts`: every query result that the host sees
leaves an entry for each of its records, and every citation that the host resolves leaves an entry
beside the first query entry that lists its reference. A result's data is an object of the JSON data
model; a property that is absent is `undefined`.
-/

namespace NanFung.Brief

abbrev Members := List (String × Json)

/-! ## Dynamic values -/

/-- `isRecord(value)`, with the members. -/
def record? : Json → Option Members
  | .obj members => some members
  | _ => none

/-- `typeof value === "number"`. -/
def isNumber : Json → Bool
  | .int _ | .float _ => true
  | _ => false

/-- `typeof record[key] === "string"`, with the text. -/
def string? (record : Members) (key : String) : Option String :=
  (Json.lookup key record).bind Json.asStr?

def recordArray : Option Json → List Members
  | some (.arr items) => items.filterMap record?
  | _ => []

def stringArray : Option Json → List String
  | some (.arr items) => items.filterMap Json.asStr?
  | _ => []

/-- `value ?? fallback`. -/
def orElse (value fallback : Option Json) : Option Json :=
  match value with
  | none | some .null => fallback
  | some v => some v

/-- An object literal: a member whose value is `undefined` reads as an absent one. -/
def literal (members : List (String × Option Json)) : Members :=
  members.filterMap fun m => m.2.map fun v => (m.1, v)

/-- `{ ...record, [key]: value }`. -/
def spreadWith (record : Members) (key : String) (value : Option Json) : Members :=
  match value with
  | some v => Json.insert key v record
  | none => record.filter fun m => m.1 ≠ key

/-! ## Entries -/

inductive EntryKind where
  | query | citation
  deriving DecidableEq, Repr

structure LedgerEntry where
  kind : EntryKind
  anchorAsOf : String
  capabilityId : Option String
  datasourceIds : Option (List String)
  normalizedFilters : Option Json
  resultCount : Option Json
  observationIds : List String
  citationRefs : List String
  numericProjection : Option Json
  freshness : Option Json
  deriving DecidableEq, Repr

abbrev Ledger := List LedgerEntry

/-- `queryBinding(data)`: the part of an entry that says what was asked. -/
def queryBinding (data : Members) (entry : LedgerEntry) : LedgerEntry :=
  let datasourceIds := stringArray (Json.lookup "datasource_ids" data)
  { entry with
    datasourceIds := if datasourceIds = [] then none else some datasourceIds
    normalizedFilters := (Json.lookup "normalized_filters" data).filter fun v => (record? v).isSome
    resultCount := (Json.lookup "result_count" data).filter isNumber }

/-- The numbers of a record, with the source date for a missing period label. -/
def numericProjection (record : Members) : Option Json :=
  ((Json.lookup "numeric" record).bind record?).map fun numeric =>
    .obj (spreadWith numeric "period_label"
      (orElse (Json.lookup "period_label" numeric) (Json.lookup "source_date" numeric)))

/-- The ledger entry of one record of a query result. -/
def recordEntry (data : Members) (anchor capabilityId : String) (record : Members) : LedgerEntry :=
  queryBinding data
    { kind := .query
      anchorAsOf := anchor
      capabilityId := some capabilityId
      datasourceIds := none
      normalizedFilters := none
      resultCount := none
      observationIds := (string? record "observation_id").toList
      citationRefs := stringArray (Json.lookup "citation_refs" record)
      numericProjection := numericProjection record
      freshness := some (.obj (literal
        [("retrieval_freshness", Json.lookup "retrieval_freshness" record),
          ("observation_freshness", Json.lookup "observation_freshness" record),
          ("degraded", Json.lookup "degraded" record)])) }

/-- The ledger entry of a query result without records. -/
def emptyEntry (data : Members) (anchor capabilityId : String) : LedgerEntry :=
  queryBinding data
    { kind := .query
      anchorAsOf := anchor
      capabilityId := some capabilityId
      datasourceIds := none
      normalizedFilters := none
      resultCount := none
      observationIds := []
      citationRefs := []
      numericProjection := none
      freshness := none }

/-- `addQueryLedger(turn, data, records)`: what is pushed on the ledger. -/
def queryEntries (data : Members) (records : List Members) : Ledger :=
  match string? data "anchor_as_of", string? data "capability_id" with
  | some anchor, some capabilityId =>
    if records = [] then [emptyEntry data anchor capabilityId]
    else records.map (recordEntry data anchor capabilityId)
  | _, _ => []

def addQueryLedger (ledger : Ledger) (data : Members) (records : List Members) : Ledger :=
  ledger ++ queryEntries data records

/-- The query entry a citation belongs to: the first that lists the reference and, where the
citation names an observation, that observation. -/
def citedQuery (ledger : Ledger) (ref : String) (observationId : Option String) :
    Option LedgerEntry :=
  ledger.find? fun entry => entry.kind = .query ∧ ref ∈ entry.citationRefs ∧
    observationId.all fun o => o ∈ entry.observationIds

def citationEntry (citation : Members) (ref : String) (observationId : Option String)
    (query : LedgerEntry) : LedgerEntry :=
  { kind := .citation
    anchorAsOf := query.anchorAsOf
    capabilityId := query.capabilityId
    datasourceIds := none
    normalizedFilters := none
    resultCount := none
    observationIds := observationId.toList
    citationRefs := [ref]
    numericProjection := some (.obj (literal
      [("published_at", orElse (Json.lookup "published_at" citation) (some .null)),
        ("datasource_confidence", Json.lookup "confidence" citation),
        ("source", Json.lookup "publisher" citation),
        ("public_url", orElse (Json.lookup "public_url" citation) (some .null)),
        ("anchor_as_of", some (.str query.anchorAsOf))]))
    freshness := none }

/-- The loop of `enrichQueryLedger`, one citation. -/
def enrichOne (ledger : Ledger) (citation : Members) : Ledger :=
  match string? citation "citation_ref" with
  | none => ledger
  | some ref =>
    let observationId := string? citation "observation_id"
    match citedQuery ledger ref observationId with
    | none => ledger
    | some query => ledger ++ [citationEntry citation ref observationId query]

def enrichQueryLedger (ledger : Ledger) (data : Members) : Ledger :=
  (recordArray (Json.lookup "citations" data)).foldl enrichOne ledger

/-! ## The ledgers of a turn -/

/-- The ledgers that query and citation results build. -/
inductive Built : Ledger → Prop
  | empty : Built []
  | query {ledger : Ledger} (data : Members) (before : Built ledger) :
    Built (addQueryLedger ledger data (recordArray (Json.lookup "records" data)))
  | citations {ledger : Ledger} (data : Members) (before : Built ledger) :
    Built (enrichQueryLedger ledger data)

variable {ledger : Ledger} {data : Members} {records : List Members} {entry : LedgerEntry}

theorem citedQuery_eq_some {ref : String} {observationId : Option String} {query : LedgerEntry}
    (h : citedQuery ledger ref observationId = some query) :
    query ∈ ledger ∧ query.kind = .query ∧ ref ∈ query.citationRefs ∧
      ∀ o ∈ observationId, o ∈ query.observationIds := by
  refine ⟨List.mem_of_find?_eq_some h, ?_⟩
  have hp := List.find?_some h
  simpa [Option.all_eq_true] using hp

/-- One citation adds at most one entry, beside a query entry for its reference. -/
theorem enrichOne_cases (ledger : Ledger) (citation : Members) :
    enrichOne ledger citation = ledger ∨
      ∃ ref query, citedQuery ledger ref (string? citation "observation_id") = some query ∧
        enrichOne ledger citation =
          ledger ++ [citationEntry citation ref (string? citation "observation_id") query] := by
  unfold enrichOne
  cases string? citation "citation_ref" with
  | none => exact Or.inl rfl
  | some ref =>
    cases hq : citedQuery ledger ref (string? citation "observation_id") with
    | none => exact Or.inl (by simp only [hq])
    | some query => exact Or.inr ⟨ref, query, hq, by simp only [hq]⟩

/-- Citations only add entries. -/
theorem prefix_enrichQueryLedger (ledger : Ledger) (data : Members) :
    ledger <+: enrichQueryLedger ledger data := by
  unfold enrichQueryLedger
  generalize recordArray (Json.lookup "citations" data) = citations
  induction citations generalizing ledger with
  | nil => exact List.prefix_rfl
  | cons citation citations ih =>
    refine List.IsPrefix.trans ?_ (ih _)
    obtain h | ⟨ref, query, -, h⟩ := enrichOne_cases ledger citation
    · rw [h]
    · rw [h]
      exact List.prefix_append _ _

end NanFung.Brief
