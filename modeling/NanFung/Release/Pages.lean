import NanFung.Lib.Json
import NanFung.Lib.Loops
import NanFung.Release.Policies

/-!
# Release pages

The parsers that select a link from a saved page: the collection of the VOA and its release pages,
the dataset page of the ONS, and the content of the EPC live tables.
-/

namespace NanFung.Release

/-- What the parsers use besides URLs. -/
structure PageLibrary extends TextLibrary where
  /-- `_hrefs_from_html` -/
  hrefs : Bytes → List String
  /-- `json.loads` -/
  loads : Bytes → Option Json
  /-- `_VOA_STOCK_FILENAME.fullmatch` -/
  stockFilename : String → Bool
  /-- `int(match["year"])` of `_VOA_RELEASE_PAGE_PATH.fullmatch`. -/
  releasePageYear : String → Option Nat
  /-- What the parent reads of the frame of an isolated parser. -/
  frameText : String → Except ReleaseError String

/-- What a discovery parser returns. -/
inductive Parsed where
  | url (candidate : String)
  | attachment (url title : String) (updatedAt : Option String)
  deriving DecidableEq, Repr

variable (lib : PageLibrary)

def parse (url : String) : Except ReleaseError ParseResult :=
  orThrow (lib.urlparse url) (.value "invalid URL")

/-- `url.rsplit("/", 1)[-1]` -/
def lastSegment (path : String) : String :=
  String.ofList (path.toList.reverse.takeWhile (· ≠ '/')).reverse

/-- The checks of a URL that the selectors share. -/
def ParseResult.plain (parsed : ParseResult) : Bool :=
  parsed.username = none && parsed.password = none && parsed.port = some none &&
    parsed.fragment = ""

/-! ## VOA -/

def voaStockCollectionUrl : String :=
  "https://www.gov.uk/government/collections/non-domestic-rating-stock-of-properties-collection"

/-- `_looks_like_voa_stock_url` -/
def looksLikeVoaStockUrl (url : String) : Except ReleaseError Bool := do
  let parsed ← parse lib url
  .ok (lib.stockFilename (lastSegment parsed.path))

/-- `_is_approved_voa_stock_url` -/
def isApprovedVoaStockUrl (url : String) : Bool :=
  match lib.urlparse url with
  | none => false
  | some parsed =>
    lib.casefold parsed.scheme = "https" &&
    parsed.hostname = some "assets.publishing.service.gov.uk" && parsed.plain &&
    parsed.query = "" && decide ("/media/".toList <+: parsed.path.toList) &&
    lib.stockFilename (lastSegment parsed.path)

/-- `_canonical_voa_stock_url` -/
def canonicalVoaStockUrl (url : String) : Except ReleaseError String := do
  let parsed ← parse lib url
  .ok ("https://assets.publishing.service.gov.uk" ++ parsed.path)

/-- `is_current_voa_stock_release_page_url` -/
def isCurrentVoaStockReleasePageUrl (url : String) : Bool :=
  match lib.urlparse url with
  | none => false
  | some parsed =>
    lib.casefold parsed.scheme = "https" && parsed.hostname = some "www.gov.uk" && parsed.plain &&
    parsed.query = "" && (lib.releasePageYear parsed.path).isSome

/-- `candidates.add` -/
def addNew (url : String) (urls : List String) : List String :=
  if url ∈ urls then urls else urls ++ [url]

/-- The stock asset that a link is, once it looks like one. -/
def stockAsset (url : String) : Except ReleaseError String := do
  require (isApprovedVoaStockUrl lib url = true)
    (.value "VOA stock ZIP URL is not an approved official asset")
  canonicalVoaStockUrl lib url

/-- `parse_voa_office_stock_collection_html` -/
def parseVoaOfficeStockCollectionHtml (evidence : Bytes) : Except ReleaseError Parsed := do
  let candidates ← (lib.hrefs evidence).foldlM (fun candidates href => do
    let url := lib.strip (lib.unescape href)
    if ← looksLikeVoaStockUrl lib url then
      let asset ← stockAsset lib url
      .ok (addNew asset candidates)
    else .ok candidates) []
  match candidates with
  | [] => .error (.value "no approved VOA NDR stock ZIP was found in collection HTML")
  | [asset] => .ok (.url asset)
  | _ => .error (.value "VOA collection HTML contains ambiguous NDR stock ZIP links")

/-- `direct_assets` and `release_pages`. -/
structure CollectionLinks where
  directAssets : List String := []
  releasePages : Dict String Nat := []

/-- `parse_voa_current_release_page_html` -/
def parseVoaCurrentReleasePageHtml (evidence : Bytes) : Except ReleaseError Parsed := do
  let links ← (lib.hrefs evidence).foldlM (fun (links : CollectionLinks) href => do
    let url ← orThrow (lib.urljoin "https://www.gov.uk" (lib.strip (lib.unescape href)))
      (.value "invalid URL")
    if ← looksLikeVoaStockUrl lib url then
      let asset ← stockAsset lib url
      .ok { links with directAssets := addNew asset links.directAssets }
    else
      let parsed ← parse lib url
      match lib.releasePageYear parsed.path with
      | none => .ok links
      | some year =>
        if isCurrentVoaStockReleasePageUrl lib url then
          .ok { links with releasePages := links.releasePages.set url year }
        else .ok links) {}
  match links.directAssets with
  | [asset] => .ok (.url asset)
  | _ :: _ => .error (.value "VOA collection HTML contains ambiguous NDR stock ZIP links")
  | [] =>
    match (links.releasePages.map Prod.snd).max? with
    | none =>
      .error (.value "no approved VOA NDR stock release page was found in collection HTML")
    | some newestYear =>
      match links.releasePages.filter fun page => page.2 = newestYear with
      | [page] => .ok (.url page.1)
      | _ => .error (.value "VOA collection HTML contains ambiguous current release pages")

/-! ## ONS -/

def onsWorkingArrangementsUrl : String :=
  "https://www.ons.gov.uk/peoplepopulationandcommunity/wellbeing/datasets/" ++
    "publicopinionsandsocialtrendsgreatbritainworkingarrangements"

/-- `str.strip("/")` -/
def stripSlashes (path : List Char) : List Char :=
  ((path.dropWhile (· = '/')).reverse.dropWhile (· = '/')).reverse

/-- `_is_working_arrangements_xlsx_uri` -/
def isWorkingArrangementsXlsxUri (uri : String) : Except ReleaseError Bool := do
  let parsed ← parse lib uri
  let path := parsed.path.toList
  if parsed.scheme ≠ "" ∨ parsed.netloc ≠ "" ∨ parsed.query ≠ "" ∨ parsed.fragment ≠ "" ∨
      path.head? ≠ some '/' ∨ '\\' ∈ path ∨
      "/../".toList <:+: '/' :: stripSlashes path then
    .ok false
  else
    let normalizedPath := (lib.casefold parsed.path).toList.filter fun c => c ≠ '-' ∧ c ≠ '_'
    .ok (decide (".xlsx".toList <:+ normalizedPath ∧ "workingarrangements".toList <:+: normalizedPath))

/-- `_looks_like_hybrid_working_xlsx_url` -/
def looksLikeHybridWorkingXlsxUrl (url : String) : Except ReleaseError Bool := do
  let parsed ← parse lib url
  if parsed.path ≠ "/file" then .ok false
  else match lib.parseQsl parsed.query with
  | [(key, value)] => if key = "uri" then isWorkingArrangementsXlsxUri lib value else .ok false
  | _ => .ok false

/-- `_is_approved_hybrid_working_xlsx_url`, of a link that looks like one. -/
def isApprovedHybridWorkingXlsxUrl (parsed : ParseResult) : Bool :=
  lib.casefold parsed.scheme = "https" && parsed.hostname = some "www.ons.gov.uk" && parsed.plain

/-- `_canonical_hybrid_working_xlsx_url` -/
def canonicalHybridWorkingXlsxUrl (parsed : ParseResult) : String :=
  "https://www.ons.gov.uk/file" ++ if parsed.query = "" then "" else "?" ++ parsed.query

/-- `parse_hybrid_working_dataset_html` -/
def parseHybridWorkingDatasetHtml (evidence : Bytes) : Except ReleaseError Parsed := do
  let candidates ← (lib.hrefs evidence).foldlM (fun candidates href => do
    let url ← orThrow (lib.urljoin "https://www.ons.gov.uk" (lib.strip (lib.unescape href)))
      (.value "invalid URL")
    if ← looksLikeHybridWorkingXlsxUrl lib url then
      let parsed ← parse lib url
      require (isApprovedHybridWorkingXlsxUrl lib parsed = true)
        (.value "ONS working-arrangements XLSX URL is not approved")
      .ok (addNew (canonicalHybridWorkingXlsxUrl parsed) candidates)
    else .ok candidates) []
  match candidates with
  | [] => .error (.value "no approved ONS working-arrangements XLSX was found in dataset HTML")
  | candidate :: _ => .ok (.url candidate)

/-! ## EPC -/

def epbContentApiUrl : String :=
  "https://www.gov.uk/api/content/government/statistical-data-sets/" ++
    "live-tables-on-energy-performance-of-buildings-certificates"

/-- `_NON_DOMESTIC_TITLE` -/
def nonDomesticTitle : String :=
  "Table A: Non-domestic Energy Performance Certificates by energy performance asset rating"

/-- `_is_ods_attachment_url` -/
def isOdsAttachmentUrl (url : String) : Bool :=
  match lib.urlparse url with
  | none => false
  | some parsed =>
    lib.casefold parsed.scheme = "https" && parsed.hostname.isSome && parsed.plain &&
    parsed.query = "" && decide (".ods".toList <:+ (lib.casefold parsed.path).toList)

/-- `_find_non_domestic_attachment` with `require_exact_title`: the URLs of the exact matches. -/
def exactMatches (attachments : List Json) : List String :=
  attachments.foldl (fun urls item =>
    match item with
    | .obj members =>
      match Json.lookup "title" members, Json.lookup "url" members with
      | some (.str title), some (.str url) =>
        if isOdsAttachmentUrl lib url ∧ title = nonDomesticTitle then addNew url urls else urls
      | _, _ => urls
    | _ => urls) []

/-- `parse_exact_non_domestic_epc_attachment_json` -/
def parseExactNonDomesticEpcAttachmentJson (evidence : Bytes) : Except ReleaseError Parsed := do
  let value ← orThrow (lib.loads evidence) (.value "invalid JSON")
  match value with
  | .obj content =>
    match Json.lookup "details" content with
    | some (.obj details) =>
      match Json.lookup "attachments" details with
      | some (.arr attachments) =>
        match exactMatches lib attachments with
        | [] => .error (.value "EPC Content API has no exact Table A ODS attachment")
        | [url] =>
          let updatedAt := match Json.lookup "public_updated_at" content with
            | some (.str text) => some text
            | _ => none
          .ok (.attachment url nonDomesticTitle updatedAt)
        | _ => .error (.value "EPC Content API has ambiguous exact Table A attachments")
      | _ => .error (.value "EPC Content API response has no attachment list")
    | _ => .error (.value "EPC Content API response has no attachment list")
  | _ => .error (.value "EPC Content API evidence must contain a JSON object")

/-! ## Saved pages -/

/-- `max_input_bytes` of `ParserLimits`. -/
def maxInputBytes : Nat := 32 * 1024 * 1024

/-- The texts of a result, as they come through the frame. -/
def Parsed.framed : Parsed → Except ReleaseError Parsed
  | .url candidate => do
    .ok (.url (← lib.frameText candidate))
  | .attachment candidate title updatedAt => do
    .ok (.attachment (← lib.frameText candidate) (← lib.frameText title)
      (← updatedAt.mapM lib.frameText))

/-- `parse_saved_artifact` -/
def parseSavedArtifact (content : Bytes) (parser : Bytes → Except ReleaseError Parsed) :
    Except ReleaseError Parsed := do
  require (content.length ≤ maxInputBytes) (.parser "PARSER_INPUT_LIMIT")
  let parsed ← parser content
  parsed.framed lib

end NanFung.Release
