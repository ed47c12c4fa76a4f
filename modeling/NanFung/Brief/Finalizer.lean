import NanFung.Brief.Ledger
import NanFung.Lib.Proc

/-!
# The finaliser

`finalizer.ts`: a draft is parsed, its texts are guarded, its citation references are resolved
against the ledger of the turn, and the brief is filled with the numbers and the sources the ledger
holds for them. What the host's own text engine does (Unicode normalisation and regular expressions)
is a parameter; the expressions are the source's.
-/

namespace NanFung.Brief

/-! ## Texts -/

structure RegExp where
  source : String
  flags : String
  deriving DecidableEq, Repr

/-- The text functions of the host: `text.normalize("NFKC")`, and `pattern.exec(text)` with the index
(in UTF-16 code units) and the text of the match. -/
structure TextEngine where
  nfkc : String → String
  exec : RegExp → String → Option (Nat × String)

def numberWords : RegExp :=
  ⟨"\\b(?:one|two|three|four|five|six|seven|eight|nine|ten|eleven|twelve|thirteen|fourteen|fifteen|sixteen|seventeen|eighteen|nineteen|twenty|thirty|forty|fifty|sixty|seventy|eighty|ninety|hundred|first|second|third|fourth|fifth|sixth|seventh|eighth|ninth|tenth|eleventh|twelfth|thirteenth|fourteenth|fifteenth|sixteenth|seventeenth|eighteenth|nineteenth|twentieth|thirtieth|fortieth|fiftieth|sixtieth|seventieth|eightieth|ninetieth|hundredth|point|percent|gbp|usd|eur|jpy|cny|hkd)\\b",
    "iu"⟩

def chineseNumeralCharacters : String := "零〇一二三四五六七八九十百千万亿壹贰叁肆伍陆柒捌玖拾佰仟萬億"

def chineseNumericExpression : RegExp :=
  let numerals := "[" ++ chineseNumeralCharacters ++ "]+"
  ⟨"(?:百分之" ++ numerals ++ "|第" ++ numerals ++ "|" ++ numerals ++
      "(?:個)?(?:百分(?:點)?|成|點|元|英鎊|美元|港元|歐元|年|月|日|季|週|周|號|折)|(?<![\\p\x7bScript=Han\x7d])" ++
      numerals ++ "(?![\\p\x7bScript=Han\x7d]))",
    "u"⟩

def unicodeNumber : RegExp := ⟨"\\p\x7bN\x7d", "u"⟩
def percentOrCurrency : RegExp := ⟨"[%％٪\\p\x7bSc\x7d]", "u"⟩

/-- `NumericGuard.check(text)`: the first span that reads as a number. -/
def NumericGuard.check (engine : TextEngine) (text : String) : Option String :=
  let normalized := engine.nfkc text
  (([unicodeNumber, percentOrCurrency, numberWords, chineseNumericExpression].filterMap
    fun pattern => engine.exec pattern normalized).map Prod.snd).head?

/-- The UTF-16 code units of a character. -/
def utf16Width (c : Char) : Nat := if c.toNat < 0x10000 then 1 else 2

/-- The characters between two UTF-16 offsets. -/
def utf16Slice (start stop offset : Nat) : List Char → List Char
  | [] => []
  | c :: cs =>
    let rest := utf16Slice start stop (offset + utf16Width c) cs
    if start ≤ offset ∧ offset + utf16Width c ≤ stop then c :: rest else rest

def negatedClaim : RegExp :=
  ⟨"\\b(?:not|no|rather\\s+than|instead\\s+of|without)\\s+(?:an?\\s+|the\\s+|pure\\s+)?(?:\\w+\\s+)\x7b0,4\x7d$",
    "iu"⟩

def negatedArticle : RegExp := ⟨"\\b(?:not|no)\\s+(?:an?\\s+|the\\s+)?$", "iu"⟩

def isNegatedClaim (engine : TextEngine) (text : String) (claimIndex : Nat) : Bool :=
  let textBefore := String.ofList (utf16Slice (claimIndex - 40) claimIndex 0 text.toList)
  (engine.exec negatedClaim textBefore).isSome || (engine.exec negatedArticle textBefore).isSome

/-! ## Drafts -/

inductive BriefStatus where
  | complete | partially | unavailable
  deriving DecidableEq, Repr

inductive Confidence where
  | high | medium | low
  deriving DecidableEq, Repr

def BriefStatus.text : BriefStatus → String
  | .complete => "complete"
  | .partially => "partial"
  | .unavailable => "unavailable"

def Confidence.text : Confidence → String
  | .high => "high"
  | .medium => "medium"
  | .low => "low"

/-- The value that has a text, among some. -/
def member? {α : Type} (values : List α) (text : α → String) (s : String) : Option α :=
  values.find? fun v => text v = s

def BriefStatus.ofText? : String → Option BriefStatus :=
  member? [.complete, .partially, .unavailable] text
def Confidence.ofText? : String → Option Confidence := member? [.high, .medium, .low] text

structure NumericFactDraft where
  claimId : String
  confidence : Confidence
  numericCitationRef : String
  deriving DecidableEq, Repr

structure QualitativeFactDraft where
  claimId : String
  confidence : Confidence
  text : String
  supportingCitationRefs : List String
  deriving DecidableEq, Repr

inductive FactDraft where
  | numeric (fact : NumericFactDraft)
  | qualitative (fact : QualitativeFactDraft)
  deriving DecidableEq, Repr

structure InferenceDraft where
  claimId : String
  text : String
  confidence : Confidence
  supportingFactIds : List String
  caveat : String
  deriving DecidableEq, Repr

structure MarketBriefDraft where
  title : String
  status : BriefStatus
  facts : List FactDraft
  inferences : List InferenceDraft
  limitations : List String
  deriving DecidableEq, Repr

namespace FactDraft

def claimId : FactDraft → String
  | numeric f => f.claimId
  | qualitative f => f.claimId

def confidence : FactDraft → Confidence
  | numeric f => f.confidence
  | qualitative f => f.confidence

/-- `factRefs`. -/
def refs : FactDraft → List String
  | numeric f => [f.numericCitationRef]
  | qualitative f => f.supportingCitationRefs

def texts : FactDraft → List String
  | numeric _ => []
  | qualitative f => [f.text]

end FactDraft

/-- The texts of the draft that the model wrote. -/
def MarketBriefDraft.texts (draft : MarketBriefDraft) : List String :=
  draft.title :: draft.limitations ++ draft.facts.flatMap FactDraft.texts ++
    draft.inferences.flatMap fun inference => [inference.text, inference.caveat]

/-- The references of the draft, in the order of its facts. -/
def MarketBriefDraft.refs (draft : MarketBriefDraft) : List String :=
  draft.facts.flatMap FactDraft.refs

/-! ## Rejections -/

/-- What `finalizeBrief` throws: a `DraftRejected`, or a `TypeError` of the host. -/
inductive Rejection where
  | rejected (code : String) (offendingRef : Option String)
  | typeError
  deriving DecidableEq, Repr

abbrev Finalize (α : Type) := Except Rejection α

/-- `new DraftRejected(code)`. -/
def draftRejected (code : String) : Rejection := .rejected code none

def schemaEscape : Rejection := draftRejected "SCHEMA_ESCAPE"

/-! ## Parsing -/

def requireRecord (input : Option Json) : Finalize Members := orThrow (input.bind record?) schemaEscape

def requireKeys (record : Members) (allowed : List String) : Finalize Unit :=
  require (∀ m ∈ record, m.1 ∈ allowed) schemaEscape

def requireArray : Option Json → Finalize (List Json)
  | some (.arr items) => .ok items
  | _ => .error schemaEscape

def requireString (input : Option Json) : Finalize String :=
  orThrow (input.bind Json.asStr?) schemaEscape

def requireStrings (input : Option Json) : Finalize (List String) := do
  (← requireArray input).mapM fun item => requireString (some item)

def requireMember {α : Type} (ofText? : String → Option α) (input : Option Json) : Finalize α :=
  orThrow ((input.bind Json.asStr?).bind ofText?) schemaEscape

inductive FactKind where
  | numeric | qualitative
  deriving DecidableEq, Repr

def FactKind.text : FactKind → String
  | .numeric => "numeric"
  | .qualitative => "qualitative"

def FactKind.ofText? : String → Option FactKind := member? [.numeric, .qualitative] text

def parseFact (input : Json) : Finalize FactDraft := do
  let record ← requireRecord (some input)
  let kind ← requireMember FactKind.ofText? (Json.lookup "kind" record)
  let claimId ← requireString (Json.lookup "claim_id" record)
  let confidence ← requireMember Confidence.ofText? (Json.lookup "confidence" record)
  match kind with
  | .numeric =>
    requireKeys record ["claim_id", "kind", "confidence", "numeric_citation_ref"]
    let numericCitationRef ← requireString (Json.lookup "numeric_citation_ref" record)
    pure (.numeric ⟨claimId, confidence, numericCitationRef⟩)
  | .qualitative =>
    requireKeys record ["claim_id", "kind", "confidence", "text", "supporting_citation_refs"]
    let text ← requireString (Json.lookup "text" record)
    let supportingCitationRefs ← requireStrings (Json.lookup "supporting_citation_refs" record)
    pure (.qualitative ⟨claimId, confidence, text, supportingCitationRefs⟩)

def parseInference (input : Json) : Finalize InferenceDraft := do
  let record ← requireRecord (some input)
  require ((Json.lookup "caveat" record).isSome) (draftRejected "MISSING_CAVEAT")
  requireKeys record ["claim_id", "text", "confidence", "supporting_fact_ids", "caveat"]
  let claimId ← requireString (Json.lookup "claim_id" record)
  let text ← requireString (Json.lookup "text" record)
  let confidence ← requireMember Confidence.ofText? (Json.lookup "confidence" record)
  let factIds ← requireStrings (Json.lookup "supporting_fact_ids" record)
  let caveat ← requireString (Json.lookup "caveat" record)
  pure ⟨claimId, text, confidence, factIds, caveat⟩

/-- The loop that adds each of some texts to a set it must be new to. -/
def requireDistinct (code : String) (seen : List String) : List String → Finalize Unit
  | [] => pure ()
  | s :: rest => do
    require (s ∉ seen) (.rejected code (some s))
    requireDistinct code (s :: seen) rest

/-- The loop over the fact ids an inference rests on. -/
def requireKnown (facts : List FactDraft) : List String → Finalize Unit
  | [] => pure ()
  | factId :: rest => do
    require (∃ fact ∈ facts, fact.claimId = factId) (.rejected "UNKNOWN_FACT_ID" (some factId))
    requireKnown facts rest

def parseDraft (input : Json) : Finalize MarketBriefDraft := do
  let record ← requireRecord (some input)
  requireKeys record ["schema_version", "title", "status", "facts", "inferences", "limitations"]
  require (Json.lookup "schema_version" record = some (.str "market_brief_draft.v1")) schemaEscape
  let title ← requireString (Json.lookup "title" record)
  let status ← requireMember BriefStatus.ofText? (Json.lookup "status" record)
  let factsInput ← requireArray (Json.lookup "facts" record)
  let inferencesInput ← requireArray (Json.lookup "inferences" record)
  let limitations ← requireStrings (Json.lookup "limitations" record)
  require (factsInput.length ≤ 12) (draftRejected "FACT_LIMIT_EXCEEDED")
  require (inferencesInput.length ≤ 8) (draftRejected "INFERENCE_LIMIT_EXCEEDED")
  let facts ← factsInput.mapM parseFact
  let inferences ← inferencesInput.mapM parseInference
  requireDistinct "DUPLICATE_CLAIM_ID" []
    (facts.map FactDraft.claimId ++ inferences.map InferenceDraft.claimId)
  requireKnown facts (inferences.flatMap InferenceDraft.supportingFactIds)
  pure ⟨title, status, facts, inferences, limitations⟩

/-! ## The guards of the model's texts -/

/-- The loop of `guardModelText`. -/
def guardTexts (engine : TextEngine) : List String → Finalize Unit
  | [] => pure ()
  | value :: rest =>
    match NumericGuard.check engine value with
    | some span => .error (.rejected "NUMERIC_GUARD_VIOLATION" (some span))
    | none => guardTexts engine rest

def guardModelText (engine : TextEngine) (draft : MarketBriefDraft) : Finalize Unit :=
  guardTexts engine draft.texts

/-- A text that makes a claim and does not negate it. -/
def Claims (engine : TextEngine) (term : RegExp) (value : String) : Bool :=
  match engine.exec term value with
  | some (index, _) => !isNegatedClaim engine value index
  | none => false

/-- `guardCapabilityClaims(draft, prohibitedTerms, rejectCode)`. -/
def guardCapabilityClaims (engine : TextEngine) (draft : MarketBriefDraft)
    (prohibitedTerms : List RegExp) (rejectCode : String) : Finalize Unit :=
  require (∀ value ∈ draft.texts, ∀ term ∈ prohibitedTerms, Claims engine term value = false)
    (draftRejected rejectCode)

def planningCapabilityId : String := "london-planning-activity"

def planningLimitation : String :=
  "Planning application counts cover all use classes and are not office-only supply, floorspace, completions, rent, vacancy, or named-submarket evidence."

def planningAvailabilityLimitation : String :=
  "No canonical planning-application activity is available for the requested borough and month."

def planningClaimTerms : List RegExp :=
  [⟨"\\boffice(?:-only)?\\s+supply\\b", "iu"⟩, ⟨"\\bfloorspace\\b", "iu"⟩,
    ⟨"\\b(?:completions?|completed\\s+projects?)\\b", "iu"⟩, ⟨"\\brent\\b", "iu"⟩,
    ⟨"\\bvacancy\\b", "iu"⟩, ⟨"\\b(?:named[-\\s]+)?submarket\\b", "iu"⟩]

def guardPlanningClaims (engine : TextEngine) (draft : MarketBriefDraft) : Finalize Unit :=
  guardCapabilityClaims engine draft planningClaimTerms "PLANNING_PROXY_CLAIM"

/-- `CAPABILITY_CLAIM_GUARDS`. -/
def capabilityClaimGuards : Dict String (List (RegExp × String)) :=
  [("uk.gdp.current",
      [(⟨"London office|office rent|office vacancy", "iu"⟩, "GDP_PROXY_CLAIM")]),
    ("uk.inflation.current",
      [(⟨"London office|office rent|office vacancy", "iu"⟩, "INFLATION_PROXY_CLAIM")]),
    ("uk.labour.current",
      [(⟨"London office|office rent|office vacancy", "iu"⟩, "LABOUR_PROXY_CLAIM")]),
    ("uk.employment.london",
      [(⟨"office rent|office vacancy|London office (?!employment)", "iu"⟩,
        "EMPLOYMENT_PROXY_CLAIM")]),
    ("uk.hybrid-working",
      [(⟨"office occupancy|office demand|building access", "iu"⟩, "HYBRID_PROXY_CLAIM")]),
    ("london.epc-certificates", [(⟨"office only|office certificates", "iu"⟩, "EPC_PROXY_CLAIM")]),
    ("london.office-stock",
      [(⟨"vacancy|floorspace|available floor area|market rent", "iu"⟩,
        "OFFICE_STOCK_PROXY_CLAIM")])]

/-- The properties every plain object inherits: reading one of them from a table of guards returns a
value that is not iterable. -/
def objectPrototype : List String :=
  ["constructor", "__defineGetter__", "__defineSetter__", "hasOwnProperty", "__lookupGetter__",
    "__lookupSetter__", "isPrototypeOf", "propertyIsEnumerable", "toString", "valueOf", "__proto__",
    "toLocaleString"]

/-- The claims that one capability's data does not bear out. -/
def guardCapability (engine : TextEngine) (draft : MarketBriefDraft) :
    Option String → Finalize Unit
  | none => pure ()
  | some capabilityId =>
    match capabilityClaimGuards.get? capabilityId with
    | some guards => guards.forM fun g => guardCapabilityClaims engine draft [g.1] g.2
    | none => require (capabilityId ∉ objectPrototype) .typeError

/-! ## The host's side of a reference -/

structure NumericFields where
  value : String
  unit : String
  definition : String
  asOf : String
  sourceDate : String
  periodLabel : String
  deriving DecidableEq, Repr

structure CitationMetadata where
  publishedAt : Option String
  datasourceConfidence : Confidence
  source : String
  publicUrl : Option String
  anchorAsOf : Option String
  deriving DecidableEq, Repr

def parseNumericFields (input : Option Json) : Option NumericFields := do
  let record ← input.bind record?
  let value ← string? record "value"
  let unit ← string? record "unit"
  let definition ← string? record "definition"
  let asOf ← string? record "as_of"
  let sourceDate ← string? record "source_date"
  let periodLabel ← string? record "period_label"
  pure ⟨value, unit, definition, asOf, sourceDate, periodLabel⟩

/-- A property that is a text or `null`. -/
def nullable? : Option Json → Option (Option String)
  | some .null => some none
  | some (.str s) => some (some s)
  | _ => none

/-- A property that is a text or absent. -/
def optional? : Option Json → Option (Option String)
  | none => some none
  | some (.str s) => some (some s)
  | _ => none

def parseCitationMetadata (input : Option Json) : Option CitationMetadata := do
  let record ← input.bind record?
  let publishedAt ← nullable? (Json.lookup "published_at" record)
  let confidence ← (string? record "datasource_confidence").bind Confidence.ofText?
  let source ← string? record "source"
  let publicUrl ← nullable? (orElse (Json.lookup "public_url" record) (some .null))
  let anchorAsOf ← optional? (Json.lookup "anchor_as_of" record)
  pure ⟨publishedAt, confidence, source, publicUrl, anchorAsOf⟩

structure CitationResolution where
  entry : LedgerEntry
  fields : NumericFields
  metadata : CitationMetadata
  deriving DecidableEq, Repr

structure HostLedger where
  anchorAsOf : Option String
  citations : Dict String CitationResolution
  deriving DecidableEq, Repr

/-- The maps that the loop of `hostLedger` fills. -/
structure Collected where
  numeric : Dict String (LedgerEntry × NumericFields)
  metadata : Dict String CitationMetadata
  deriving DecidableEq, Repr

/-- The numbers an entry has for a reference. -/
def collectNumeric (entry : LedgerEntry) (ref : String) (c : Collected) : Finalize Collected :=
  match parseNumericFields entry.numericProjection with
  | none => pure c
  | some fields => do
    require (c.numeric.get? ref = none) (.rejected "DUPLICATE_CITATION_REF" (some ref))
    pure { c with numeric := c.numeric.set ref (entry, fields) }

/-- The metadata an entry has for a reference. -/
def collectMetadata (entry : LedgerEntry) (ref : String) (c : Collected) : Finalize Collected :=
  match parseCitationMetadata entry.numericProjection with
  | none => pure c
  | some metadata => do
    require (c.metadata.get? ref = none) (.rejected "DUPLICATE_CITATION_REF" (some ref))
    require (∀ anchor ∈ metadata.anchorAsOf, anchor = entry.anchorAsOf)
      (.rejected "CROSS_ANCHOR" (some ref))
    pure { c with metadata := c.metadata.set ref metadata }

/-- The loop of `hostLedger`, one reference of one entry. -/
def collectRef (entry : LedgerEntry) (c : Collected) (ref : String) : Finalize Collected := do
  collectMetadata entry ref (← collectNumeric entry ref c)

/-- The loop of `hostLedger`, one entry. -/
def collectEntry (anchor : Option String) (c : Collected) (entry : LedgerEntry) :
    Finalize Collected := do
  require (anchor = some entry.anchorAsOf) (draftRejected "CROSS_ANCHOR")
  entry.citationRefs.foldlM (collectRef entry) c

/-- The anchor of a ledger: its first entry's. -/
def firstAnchor (ledger : Ledger) : Option String := ledger.head?.map LedgerEntry.anchorAsOf

/-- The references with both numbers and metadata. -/
def Collected.citations (c : Collected) : Dict String CitationResolution :=
  c.numeric.filterMap fun e =>
    (c.metadata.get? e.1).map fun metadata => (e.1, ⟨e.2.1, e.2.2, metadata⟩)

def hostLedger (ledger : Ledger) : Finalize HostLedger := do
  let anchor := firstAnchor ledger
  let collected ← ledger.foldlM (collectEntry anchor) ⟨[], []⟩
  pure ⟨anchor, collected.citations⟩

/-- The second loop of `resolveReferences`. -/
def resolveAll (ledger : HostLedger) (resolved : Dict String CitationResolution) :
    List String → Finalize (Dict String CitationResolution)
  | [] => pure resolved
  | ref :: rest => do
    let resolution ← orThrow (ledger.citations.get? ref) (.rejected "UNKNOWN_CITATION_REF" (some ref))
    require (resolution.metadata.anchorAsOf = none ∨
        resolution.metadata.anchorAsOf = ledger.anchorAsOf)
      (.rejected "CROSS_ANCHOR" (some ref))
    resolveAll ledger (resolved.set ref resolution) rest

def resolveReferences (draft : MarketBriefDraft) (ledger : HostLedger) :
    Finalize (Dict String CitationResolution) := do
  draft.facts.forM fun fact => requireDistinct "DUPLICATE_CITATION_REF" [] fact.refs
  resolveAll ledger [] draft.refs

/-! ## The brief -/

inductive HydratedFact where
  | numeric (claimId : String) (confidence : Confidence) (fields : NumericFields)
  | qualitative (fact : QualitativeFactDraft)
  deriving DecidableEq, Repr

structure BriefSource where
  citationRef : String
  source : String
  publicUrl : Option String
  publishedAt : Option String
  deriving DecidableEq, Repr

structure BriefLineage where
  observationIds : List String
  citationRefs : List String
  deriving DecidableEq, Repr

structure MarketBrief where
  title : String
  status : BriefStatus
  facts : List HydratedFact
  inferences : List InferenceDraft
  limitations : List String
  asOf : Option String
  sources : List BriefSource
  lineage : Dict String BriefLineage
  freshnessWarnings : List String
  publishedAt : Option String
  publicationDateWarning : Bool
  datasourceConfidence : Dict String Confidence
  factConfidence : Dict String Confidence
  inferenceConfidence : Dict String Confidence
  displayText : String
  deriving DecidableEq, Repr

/-- The own members that assignments `object[key] = value` leave on an object literal: a key of
`__proto__` sets the object's prototype instead. -/
def assignAll {ν : Type} (es : List (String × ν)) : Dict String ν :=
  Dict.setAll [] (es.filter fun e => e.1 ≠ "__proto__")

/-- `requiredResolution(references, ref)`. -/
def requiredResolution (references : Dict String CitationResolution) :
    Option String → Finalize CitationResolution
  | none => .error (draftRejected "UNRESOLVED_REF")
  | some ref => orThrow (references.get? ref) (.rejected "UNRESOLVED_REF" (some ref))

/-- What one fact contributes to the brief. -/
structure Hydration where
  fact : HydratedFact
  datasourceConfidence : Confidence
  lineage : BriefLineage
  deriving DecidableEq, Repr

/-- The body of `draft.facts.map`. -/
def hydrateFact (references : Dict String CitationResolution) (fact : FactDraft) :
    Finalize Hydration := do
  let resolution ← requiredResolution references fact.refs.head?
  let resolutions ← fact.refs.mapM fun ref => requiredResolution references (some ref)
  let lineage : BriefLineage :=
    ⟨(resolutions.flatMap fun r => r.entry.observationIds).eraseDups, fact.refs⟩
  match fact with
  | .qualitative f => pure ⟨.qualitative f, resolution.metadata.datasourceConfidence, lineage⟩
  | .numeric f =>
    pure ⟨.numeric f.claimId f.confidence resolution.fields,
      resolution.metadata.datasourceConfidence, lineage⟩

def staleWarning : String := "Canonical data is stale; the last-good value is retained."
def degradedWarning : String := "Canonical data is degraded; verify freshness before relying on it."

def freshness? (entry : LedgerEntry) (key : String) : Option Json :=
  (entry.freshness.bind record?).bind (Json.lookup key)

def LedgerEntry.isStale (entry : LedgerEntry) : Bool :=
  freshness? entry "retrieval_freshness" = some (.str "stale") ||
    freshness? entry "observation_freshness" = some (.str "stale")

def LedgerEntry.isDegraded (entry : LedgerEntry) : Bool :=
  freshness? entry "degraded" = some (.bool true)

def freshnessWarnings (references : Dict String CitationResolution) : List String :=
  (if references.any fun e => e.2.entry.isStale then [staleWarning] else []) ++
    (if references.any fun e => e.2.entry.isDegraded then [degradedWarning] else [])

def renderDisplayText (title : String) (publicationDateWarning coverageUnavailable : Bool) : String :=
  if coverageUnavailable then title ++ ". Coverage unavailable."
  else if publicationDateWarning then title ++ ". Publication date unavailable."
  else title

/-- An attempt at planning data that returned nothing, for a draft without facts. -/
def emptyPlanningAttempt (draft : MarketBriefDraft) (ledger : Ledger) : Bool :=
  draft.facts = [] && ledger.any fun entry =>
    entry.kind = .query && entry.capabilityId = some planningCapabilityId &&
      entry.observationIds = []

def briefSources (references : Dict String CitationResolution) : List BriefSource :=
  references.map fun e => ⟨e.1, e.2.metadata.source, e.2.metadata.publicUrl, e.2.metadata.publishedAt⟩

/-- The end of `finalizeBrief`: the brief of a draft whose references are resolved. -/
def assembleBrief (draft : MarketBriefDraft) (ledger : Ledger) (anchor : Option String)
    (references : Dict String CitationResolution) (hydrations : List Hydration) : MarketBrief :=
  let planningBacked := references.any fun e => e.2.entry.capabilityId = some planningCapabilityId
  let emptyPlanning := emptyPlanningAttempt draft ledger
  let sources := briefSources references
  let warnings := freshnessWarnings references
  let publishedAt := (sources.filterMap BriefSource.publishedAt).head?
  let ids := draft.facts.map FactDraft.claimId
  { title := draft.title
    status :=
      if emptyPlanning then .unavailable
      else if draft.status = .complete ∧ warnings ≠ [] then .partially
      else draft.status
    facts := hydrations.map Hydration.fact
    inferences := draft.inferences
    limitations :=
      if emptyPlanning then [planningAvailabilityLimitation]
      else if planningBacked then draft.limitations ++ [planningLimitation]
      else draft.limitations
    asOf := anchor
    sources := sources
    lineage := assignAll (ids.zip (hydrations.map Hydration.lineage))
    freshnessWarnings := warnings
    publishedAt := publishedAt
    publicationDateWarning := publishedAt.isNone
    datasourceConfidence := assignAll (ids.zip (hydrations.map Hydration.datasourceConfidence))
    factConfidence := assignAll (draft.facts.map fun f => (f.claimId, f.confidence))
    inferenceConfidence := assignAll (draft.inferences.map fun i => (i.claimId, i.confidence))
    displayText := renderDisplayText draft.title publishedAt.isNone (draft.facts = []) }

def finalizeBrief (engine : TextEngine) (input : Json) (ledger : Ledger) : Finalize MarketBrief := do
  let draft ← parseDraft input
  guardModelText engine draft
  let host ← hostLedger ledger
  require (host.anchorAsOf ≠ none ∨ draft.facts = []) (draftRejected "UNRESOLVED_REF")
  let references ← resolveReferences draft host
  if references.any fun e => e.2.entry.capabilityId = some planningCapabilityId then
    guardPlanningClaims engine draft
  ((references.map fun e => e.2.entry.capabilityId).eraseDups).forM (guardCapability engine draft)
  let hydrations ← draft.facts.mapM (hydrateFact references)
  pure (assembleBrief draft ledger host.anchorAsOf references hydrations)

end NanFung.Brief
