import NanFung.Release.Pages

/-!
# Contracts of the file releases

The closed discovery and release surfaces of `file_release_workflow.py`, and the checks that an
acquisition passes at each stage.
-/

namespace NanFung.Release

/-- `FILE_RELEASE_AUTOMATIC_DATASOURCE_IDS` -/
inductive FileRelease where
  | voaNdrOfficeStock | onsOpnHybridWorking | mhclgEpcLiveTableALondon
  deriving DecidableEq, Repr

inductive Stage where
  | discovery | selection | release
  deriving DecidableEq, Repr

/-- `FileReleaseContract` -/
structure FileReleaseContract where
  datasourceId : String
  discoverySourceId : String
  releaseSourceId : String
  discoveryUrl : String
  discoveryPolicy : SourcePolicy
  releasePolicy : SourcePolicy
  discoveryParser : Bytes → Except ReleaseError Parsed
  selectionParser : Option (Bytes → Except ReleaseError Parsed) := none

def FileReleaseContract.policy (contract : FileReleaseContract) : Stage → SourcePolicy
  | .discovery | .selection => contract.discoveryPolicy
  | .release => contract.releasePolicy

def FileReleaseContract.sourceId (contract : FileReleaseContract) : Stage → String
  | .discovery | .selection => contract.discoverySourceId
  | .release => contract.releaseSourceId

def htmlPolicy : ArtifactPolicy :=
  { maxBytes := 4 * 1024 * 1024, allowedMediaTypes := ["text/html", "application/xhtml+xml"] }

def jsonPolicy : ArtifactPolicy :=
  { maxBytes := 4 * 1024 * 1024, allowedMediaTypes := ["application/json"] }

def voaReleasePolicy : ArtifactPolicy where
  maxBytes := 250 * 1024 * 1024
  allowedMediaTypes :=
    ["application/zip", "application/x-zip-compressed", "application/octet-stream"]

def xlsxReleasePolicy : ArtifactPolicy where
  maxBytes := 250 * 1024 * 1024
  allowedMediaTypes :=
    ["application/vnd.openxmlformats-officedocument.spreadsheetml.sheet",
      "application/octet-stream"]

def odsReleasePolicy : ArtifactPolicy where
  maxBytes := 250 * 1024 * 1024
  allowedMediaTypes :=
    ["application/vnd.oasis.opendocument.spreadsheet", "application/octet-stream"]

variable (lib : PageLibrary)

/-- `contract_for` -/
def contractFor : FileRelease → FileReleaseContract
  | .voaNdrOfficeStock => {
      datasourceId := "voa.ndr_office_stock"
      discoverySourceId := "govuk.voa_collection"
      releaseSourceId := "voa.ndr_stock"
      discoveryUrl := voaStockCollectionUrl
      discoveryPolicy := { allowedHosts := ["www.gov.uk"], artifact := htmlPolicy }
      releasePolicy :=
        { allowedHosts := ["assets.publishing.service.gov.uk"], artifact := voaReleasePolicy }
      discoveryParser := parseVoaCurrentReleasePageHtml lib
      selectionParser := some (parseVoaOfficeStockCollectionHtml lib) }
  | .onsOpnHybridWorking => {
      datasourceId := "ons.opn.hybrid_working"
      discoverySourceId := "ons.opn"
      releaseSourceId := "ons.opn"
      discoveryUrl := onsWorkingArrangementsUrl
      discoveryPolicy := { allowedHosts := ["www.ons.gov.uk"], artifact := htmlPolicy }
      releasePolicy :=
        { allowedHosts := ["www.ons.gov.uk"], allowedQueryKeys := ["uri"],
          artifact := xlsxReleasePolicy }
      discoveryParser := parseHybridWorkingDatasetHtml lib }
  | .mhclgEpcLiveTableALondon => {
      datasourceId := "mhclg.epc.live_table_a_london"
      discoverySourceId := "mhclg.epc"
      releaseSourceId := "mhclg.epc_attachment"
      discoveryUrl := epbContentApiUrl
      discoveryPolicy := { allowedHosts := ["www.gov.uk"], artifact := jsonPolicy }
      releasePolicy :=
        { allowedHosts := ["assets.publishing.service.gov.uk"], artifact := odsReleasePolicy }
      discoveryParser := parseExactNonDomesticEpcAttachmentJson lib }

/-! ## URLs of the next stage -/

/-- `except PolicyError`: the failed check of a policy under the workflow's message. -/
def approved {α : Type} (check : Except ReleaseError α) (message : String) : Except ReleaseError α :=
  match check with
  | .error (.policy _) => .error (.workflow message)
  | result => result

@[simp] theorem approved_ok {α : Type} {check : Except ReleaseError α} {message : String} {a : α} :
    approved check message = .ok a ↔ check = .ok a := by
  unfold approved
  split
  · exact ⟨nofun, nofun⟩
  · rfl

/-- `_validate_release_shape` -/
def validateReleaseShape (datasource : FileRelease) (parsed : ParseResult) :
    Except ReleaseError Unit := do
  let host := lib.lower (parsed.hostname.getD "")
  let path := (lib.lower parsed.path).toList
  let query := lib.parseQsl parsed.query
  match datasource with
  | .voaNdrOfficeStock =>
    require (host = "assets.publishing.service.gov.uk" ∧ ".zip".toList <:+ path)
      (.workflow "VOA discovery did not select an official ZIP")
    require ("ndr".toList <:+: path ∧ "stock".toList <:+: path ∧ query = [])
      (.workflow "VOA release URL is outside the stock contract")
  | .onsOpnHybridWorking =>
    require (host = "www.ons.gov.uk" ∧ path = "/file".toList ∧ query.length = 1)
      (.workflow "ONS discovery did not select its workbook endpoint")
    require (∀ entry ∈ query, entry.1 = "uri" ∧ ".xlsx".toList <:+ (lib.lower entry.2).toList ∧
        "/datasets/publicopinionsandsocialtrendsgreatbritainworkingarrangements/".toList <:+:
          (lib.lower entry.2).toList)
      (.workflow "ONS workbook URL is outside the dataset contract")
  | .mhclgEpcLiveTableALondon =>
    require (host = "assets.publishing.service.gov.uk" ∧ ".ods".toList <:+ path ∧ query = [])
      (.workflow "EPC attachment URL is outside the Table A contract")

/-- `validate_release_url` -/
def validateReleaseUrl (datasource : FileRelease) (candidate : String) :
    Except ReleaseError String := do
  require (candidate ≠ "") (.workflow "file-release discovery did not return a URL")
  let parsed ← approved
    (validateSourceUrl lib.toTextLibrary candidate (contractFor lib datasource).releasePolicy)
    "discovered release URL is not approved"
  validateReleaseShape lib datasource parsed
  .ok candidate

/-- `release_url_from_discovery` -/
def releaseUrlFromDiscovery (datasource : FileRelease) (parsed : Parsed) :
    Except ReleaseError String :=
  match datasource, parsed with
  | .mhclgEpcLiveTableALondon, .attachment candidate title _ => do
    require (title = nonDomesticTitle)
      (.workflow "EPC discovery did not select the exact Table A attachment")
    validateReleaseUrl lib datasource candidate
  | .mhclgEpcLiveTableALondon, .url _ =>
    .error (.workflow "EPC discovery parser returned invalid metadata")
  | _, .url candidate => validateReleaseUrl lib datasource candidate
  | _, .attachment .. => .error (.workflow "file-release discovery did not return a URL")

/-- `selection_url_from_discovery` -/
def selectionUrlFromDiscovery (datasource : FileRelease) (parsed : Parsed) :
    Except ReleaseError String := do
  require ((contractFor lib datasource).selectionParser.isSome = true)
    (.workflow "datasource has no intermediate release page")
  match parsed with
  | .attachment .. => .error (.workflow "collection did not return a release page URL")
  | .url candidate =>
    require (candidate ≠ "") (.workflow "collection did not return a release page URL")
    let _ ← approved
      (validateSourceUrl lib.toTextLibrary candidate (contractFor lib datasource).discoveryPolicy)
      "release page URL is not approved"
    require (datasource = .voaNdrOfficeStock ∧ isCurrentVoaStockReleasePageUrl lib candidate = true)
      (.workflow "collection selected an invalid VOA release page")
    .ok candidate

/-! ## Metadata of an acquisition -/

/-- `AcquisitionMetadata` -/
structure Metadata where
  requestUrl : String
  finalUrl : String
  status : Nat
  headers : Headers
  retrievedAt : String
  method : String
  keyed : headers.keys.Nodup

/-- An acquisition with the bytes that it published. -/
structure Artifact extends Metadata where
  body : Bytes

/-- `FileReleaseAcquisition`, whose status and method are fixed. -/
structure FileReleaseAcquisition where
  datasourceId : String
  stage : Stage
  sourceId : String
  requestUrl : String
  finalUrl : String
  headers : Headers
  retrievedAt : String
  deriving DecidableEq, Repr

/-- `_same_endpoint` -/
def sameEndpoint (expected actual : String) : Except ReleaseError Bool := do
  let left ← parse lib expected
  let right ← parse lib actual
  .ok (lib.lower left.scheme = lib.lower right.scheme &&
    lib.lower (left.hostname.getD "") = lib.lower (right.hostname.getD "") &&
    left.path = right.path && lib.parseQsl left.query = lib.parseQsl right.query)

/-- `_adapt_metadata` -/
def adaptMetadata (datasource : FileRelease) (stage : Stage) (expectedUrl : String)
    (response : Metadata) : Except ReleaseError FileReleaseAcquisition := do
  let contract := contractFor lib datasource
  require (expectedUrl ≠ "") (.workflow "release metadata requires its discovered URL")
  require (response.requestUrl = expectedUrl)
    (.workflow "acquisition request URL does not match contract")
  require (lib.upper response.method = "GET") (.workflow "file-release requests must use GET")
  require (response.status = 200 ∧ hasContentRange lib.toTextLibrary response.headers = false)
    (.workflow "file-release responses require a complete HTTP 200 response")
  require (hasContentType lib.toTextLibrary response.headers = true)
    (.workflow "file-release responses require Content-Type")
  let _ ← approved (validateSourceUrl lib.toTextLibrary expectedUrl (contract.policy stage))
    "acquisition provenance is not approved"
  let _ ← approved (validateSourceUrl lib.toTextLibrary response.finalUrl (contract.policy stage))
    "acquisition provenance is not approved"
  let retrievedAt ← orThrow (lib.normalizeTimestamp response.retrievedAt)
    (.workflow "acquisition provenance is not approved")
  let same ← sameEndpoint lib expectedUrl response.finalUrl
  require (same = true)
    (.workflow "acquisition final URL does not match the fixed source contract")
  .ok {
    datasourceId := contract.datasourceId
    stage
    sourceId := contract.sourceId stage
    requestUrl := lib.redactUrl expectedUrl
    finalUrl := lib.redactUrl response.finalUrl
    headers := redactHeaders lib.toTextLibrary response.headers
    retrievedAt }

/-! ## What the checks give -/

variable {lib} {datasource : FileRelease} {stage : Stage} {url : String} {m : Metadata}

/-- What the metadata of an approved acquisition have. -/
structure Adapts (lib : PageLibrary) (datasource : FileRelease) (stage : Stage) (url : String)
    (m : Metadata) : Prop where
  ne : url ≠ ""
  request : m.requestUrl = url
  get : lib.upper m.method = "GET"
  status : m.status = 200
  range : hasContentRange lib.toTextLibrary m.headers = false
  contentType : hasContentType lib.toTextLibrary m.headers = true
  expected : ∃ parsed,
    validateSourceUrl lib.toTextLibrary url ((contractFor lib datasource).policy stage) = .ok parsed
  final : ∃ parsed,
    validateSourceUrl lib.toTextLibrary m.finalUrl ((contractFor lib datasource).policy stage) =
      .ok parsed
  time : ∃ t, lib.normalizeTimestamp m.retrievedAt = some t
  same : sameEndpoint lib url m.finalUrl = .ok true

theorem adaptMetadata_iff :
    (∃ a, adaptMetadata lib datasource stage url m = .ok a) ↔ Adapts lib datasource stage url m := by
  simp only [adaptMetadata, bind_ok, require_ok, orThrow_ok, approved_ok, Except.ok.injEq]
  constructor
  · rintro ⟨a, -, hne, -, hrequest, -, hget, -, ⟨hstatus, hrange⟩, -, htype, parsed, hexpected,
      parsed', hfinal, t, htime, same, hsame, -, rfl, -⟩
    exact ⟨hne, hrequest, hget, hstatus, hrange, htype, ⟨parsed, hexpected⟩, ⟨parsed', hfinal⟩,
      ⟨t, htime⟩, hsame⟩
  · rintro ⟨hne, hrequest, hget, hstatus, hrange, htype, ⟨parsed, hexpected⟩, ⟨parsed', hfinal⟩,
      ⟨t, htime⟩, hsame⟩
    exact ⟨_, (), hne, (), hrequest, (), hget, (), ⟨hstatus, hrange⟩, (), htype, parsed, hexpected,
      parsed', hfinal, t, htime, true, hsame, (), rfl, rfl⟩

theorem sameEndpoint_self {parsed : ParseResult} (h : lib.urlparse url = some parsed) :
    sameEndpoint lib url url = .ok true := by
  have hparse : parse lib url = .ok parsed := orThrow_ok.mpr h
  rw [sameEndpoint, hparse]
  show Except.ok (decide _ && decide _ && decide _ && decide _) = _
  rw [decide_eq_true rfl, decide_eq_true rfl, decide_eq_true rfl, decide_eq_true rfl]
  rfl

theorem validateReleaseUrl_ok {candidate : String}
    (h : validateReleaseUrl lib datasource candidate = .ok url) :
    candidate = url ∧ ∃ parsed,
      validateSourceUrl lib.toTextLibrary url (contractFor lib datasource).releasePolicy = .ok parsed := by
  simp only [validateReleaseUrl, bind_ok, require_ok, approved_ok, Except.ok.injEq] at h
  obtain ⟨-, -, parsed, hparsed, -, -, rfl⟩ := h
  exact ⟨rfl, parsed, hparsed⟩

theorem releaseUrlFromDiscovery_ok {parsed : Parsed}
    (h : releaseUrlFromDiscovery lib datasource parsed = .ok url) :
    ∃ result,
      validateSourceUrl lib.toTextLibrary url (contractFor lib datasource).releasePolicy = .ok result := by
  unfold releaseUrlFromDiscovery at h
  split at h
  · simp only [bind_ok, require_ok] at h
    obtain ⟨-, -, h⟩ := h
    exact (validateReleaseUrl_ok h).2
  · cases h
  · exact (validateReleaseUrl_ok h).2
  · cases h

/-- What the discovery of a contract selects as a page is not what it selects as the release. -/
theorem not_page_and_release {parsed : Parsed} {page : String}
    (hpage : selectionUrlFromDiscovery lib datasource parsed = .ok page)
    (hrelease : releaseUrlFromDiscovery lib datasource parsed = .ok url) : False := by
  simp only [selectionUrlFromDiscovery, bind_ok, require_ok] at hpage
  obtain ⟨-, -, hpage⟩ := hpage
  cases parsed with
  | attachment => cases hpage
  | url candidate =>
    simp only [bind_ok, require_ok, approved_ok, Except.ok.injEq] at hpage
    obtain ⟨-, -, result, hresult, -, ⟨rfl, -⟩, rfl⟩ := hpage
    obtain ⟨rfl, result', hresult'⟩ := validateReleaseUrl_ok hrelease
    have hat := validateSourceUrl_accepted hresult
    have hat' := validateSourceUrl_accepted hresult'
    obtain ⟨host, hhost, -, hallowed⟩ := hat.host
    obtain ⟨host', hhost', -, hallowed'⟩ := hat'.host
    obtain rfl : result = result' := Option.some.inj (hat.parses.symm.trans hat'.parses)
    obtain rfl : host = host' := Option.some.inj (hhost.symm.trans hhost')
    -- one text has one host, and the policies of the two stages share none
    have hsame : "www.gov.uk" = "assets.publishing.service.gov.uk" :=
      hostAllowed_single hallowed hallowed' (by decide) (by decide)
    exact absurd hsame (by decide)

end NanFung.Release
