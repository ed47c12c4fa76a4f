import NanFung.Lib.Dict
import NanFung.Lib.Proc

/-!
# Source policies

`validate_request_url` and the artifact checks of `policies.py`. What the standard library does with
texts, addresses and archives is a parameter, of which little is used: that a parsed scheme is in
lower case, and that `upper` leaves the name of a method alone.
-/

namespace NanFung.Release

abbrev Bytes : Type := List UInt8

abbrev Headers : Type := Dict String String

/-- `ParseResult`; reading the port raises where it is no number. -/
structure ParseResult where
  scheme : String
  netloc : String
  hostname : Option String
  username : Option String
  password : Option String
  port : Option (Option Nat)
  path : String
  query : String
  fragment : String

/-- `ZipInfo` -/
structure ZipInfo where
  filename : String
  externalAttr : Nat
  fileSize : Nat
  compressSize : Nat

/-- What the standard library does; `none` stands for an exception. -/
structure TextLibrary where
  urlparse : String → Option ParseResult
  urljoin : String → String → Option String
  /-- `parse_qsl` that keeps blank values. -/
  parseQsl : String → List (String × String)
  lower : String → String
  upper : String → String
  casefold : String → String
  strip : String → String
  /-- `html.unescape` -/
  unescape : String → String
  /-- `str(ipaddress.ip_address(·))` -/
  ipAddress : String → Option String
  /-- `_is_public_address` -/
  isPublicAddress : String → Bool
  /-- `ZipFile(·).infolist()` -/
  zipMembers : Bytes → Option (List ZipInfo)
  /-- `normalize_timestamp` -/
  normalizeTimestamp : String → Option String
  /-- `redact_url` -/
  redactUrl : String → String
  lower_scheme : ∀ {url parsed}, urlparse url = some parsed → lower parsed.scheme = parsed.scheme
  upper_get : upper "GET" = "GET"

inductive ReleaseError where
  | policy (message : String)
  | workflow (message : String)
  | lifecycle (message : String)
  | parser (code : String)
  | artifactTooLarge (limit : Nat)
  | value (message : String)
  deriving DecidableEq, Repr

/-- `ArtifactPolicy` -/
structure ArtifactPolicy where
  maxBytes : Nat := 25 * 1024 * 1024
  allowedMediaTypes : List String := []
  maxArchiveMembers : Nat := 1000
  maxExpandedBytes : Nat := 1024 * 1024 * 1024
  maxCompressionRatio : Nat := 100

/-- `SourcePolicy`, with its texts in lower case as the constructor leaves them. -/
structure SourcePolicy where
  allowedHosts : List String
  allowedMethods : List String := ["GET"]
  allowedQueryKeys : List String := []
  allowedRequestHeaders : List String := ["accept", "user-agent"]
  requireHttps : Bool := true
  maxRedirects : Nat := 5
  artifact : ArtifactPolicy := {}

/-- The truth value of a text that may be missing. -/
def truthy (text : Option String) : Bool := text.getD "" ≠ ""

section

variable (lib : TextLibrary)

/-! ## Requests -/

/-- `str.rstrip(".")` -/
def rstripDots (text : String) : String :=
  String.ofList (text.toList.reverse.dropWhile (· = '.')).reverse

attribute [local instance] decidableChars

/-- `_normalize_host` -/
def normalizeHost (value : String) : Except ReleaseError String := do
  let host := lib.lower (rstripDots (lib.strip value))
  if ['*', '.'] <+: host.toList then
    require (host ≠ "*." ∧ '.' ∈ host.toList.drop 2) (.policy "invalid wildcard host")
    .ok host
  else
    require (host ≠ "" ∧ ∀ c ∈ ['/', ':', '@'], c ∉ host.toList) (.policy "invalid host")
    .ok host

/-- An entry of the allowlist admits the host. -/
def admits (host allowed : String) : Bool :=
  if ['*', '.'] <+: allowed.toList then
    decide (allowed.toList.drop 1 <:+ host.toList ∧ host.toList ≠ allowed.toList.drop 2)
  else decide (host = allowed)

/-- `_host_allowed` -/
def hostAllowed (host : String) (allowedHosts : List String) : Except ReleaseError Bool := do
  let normalized ← normalizeHost lib host
  .ok (allowedHosts.any (admits normalized))

/-- `validate_request_url` for a GET without a resolver, which is `validate_source_url`. -/
def validateSourceUrl (url : String) (policy : SourcePolicy) : Except ReleaseError ParseResult := do
  require (url ≠ "") (.policy "URL is required")
  let parsed ← orThrow (lib.urlparse url) (.value "invalid URL")
  require ((truthy parsed.username || truthy parsed.password) = false)
    (.policy "URL userinfo is not allowed")
  require (parsed.fragment = "") (.policy "URL fragments are not valid acquisition targets")
  require (policy.requireHttps = true → lib.lower parsed.scheme = "https")
    (.policy "HTTPS is required by source policy")
  require (lib.lower parsed.scheme ∈ ["https", "http"]) (.policy "unsupported URL scheme")
  let hostname ← orThrow (parsed.hostname.filter (· ≠ "")) (.policy "URL hostname is required")
  require (∀ address ∈ lib.ipAddress hostname, lib.isPublicAddress address = true)
    (.policy "URL uses a private, loopback, or otherwise unsafe IP literal")
  let port ← orThrow parsed.port (.value "port is no number")
  require (port = none ∨ port = some 443) (.policy "non-default URL port is not allowed")
  let allowed ← hostAllowed lib hostname policy.allowedHosts
  require (allowed = true) (.policy "URL host is not allowlisted")
  require ("GET" ∈ policy.allowedMethods) (.policy "method is not allowed: GET")
  require (policy.allowedQueryKeys ≠ [] →
      ∀ entry ∈ lib.parseQsl parsed.query, lib.lower entry.1 ∈ policy.allowedQueryKeys)
    (.policy "URL includes a query key not approved by source policy")
  .ok parsed

/-! ## Artifacts -/

/-- `_unsafe_member_path` -/
def unsafeMemberPath (name : String) : Bool :=
  name.toList.head? = some '/' || ['.', '.'] ∈ name.toList.splitOn '/' || '\\' ∈ name.toList

/-- `stat.S_ISLNK` -/
def isLink (mode : Nat) : Bool := mode &&& 0o170000 = 0o120000

/-- `validate_zip_members`, from a count and a total on. -/
def validateZipMembers (policy : ArtifactPolicy) :
    Nat → Nat → List ZipInfo → Except ReleaseError Unit
  | _, _, [] => .ok ()
  | count, total, member :: members => do
    require (count + 1 ≤ policy.maxArchiveMembers) (.policy "archive exceeds member count limit")
    require (unsafeMemberPath member.filename = false) (.policy "unsafe archive member path")
    require (isLink (member.externalAttr >>> 16) = false)
      (.policy "symlink archive member is not allowed")
    require (total + member.fileSize ≤ policy.maxExpandedBytes)
      (.policy "archive exceeds expanded byte limit")
    require (member.fileSize = 0 ∨ member.compressSize ≠ 0)
      (.policy "archive member has an invalid compression size")
    require (member.compressSize = 0 ∨
        member.fileSize ≤ policy.maxCompressionRatio * member.compressSize)
      (.policy "archive member exceeds compression ratio limit")
    validateZipMembers policy (count + 1) (total + member.fileSize) members

def validateZip (content : Bytes) (policy : ArtifactPolicy) : Except ReleaseError Unit := do
  let members ← orThrow (lib.zipMembers content) (.policy "artifact is not a valid ZIP container")
  validateZipMembers policy 0 0 members

/-- `bytes.count`, after some bytes that a match has used. -/
def countMarker (marker : Bytes) : Nat → Bytes → Nat
  | _, [] => 0
  | used + 1, _ :: content => countMarker marker used content
  | 0, b :: content =>
    if marker <+: b :: content then 1 + countMarker marker (marker.length - 1) content
    else countMarker marker 0 content

def ascii (text : String) : Bytes := text.toList.map fun c => UInt8.ofNat c.toNat

def pdfForbidden : List String :=
  ["/Encrypt", "/JavaScript", "/JS", "/Launch", "/EmbeddedFile"]

def validatePdf (content : Bytes) : Except ReleaseError Unit := do
  require (ascii "%PDF-" <+: content) (.policy "artifact is not a PDF document")
  require (countMarker (ascii "/Type /Page") 0 content ≤ 500) (.policy "PDF exceeds page limit")
  require (∀ marker ∈ pdfForbidden, countMarker (ascii marker) 0 content = 0)
    (.policy "PDF contains an unsupported active or encrypted feature")

def validateHtml (content : Bytes) : Except ReleaseError Unit :=
  require (0 ∉ content) (.policy "HTML artifact contains NUL bytes")

/-- The media type before its parameters. -/
def bareMediaType (mediaType : Option String) : String :=
  lib.lower (lib.strip (String.ofList ((mediaType.getD "").toList.takeWhile (· ≠ ';'))))

def zipMediaTypes : List String :=
  ["application/zip", "application/x-zip-compressed",
    "application/vnd.openxmlformats-officedocument.spreadsheetml.sheet",
    "application/vnd.oasis.opendocument.spreadsheet"]

/-- `validate_artifact_bytes` -/
def validateArtifact (content : Bytes) (mediaType : Option String) (policy : ArtifactPolicy) :
    Except ReleaseError Unit := do
  require (content.length ≤ policy.maxBytes) (.policy "artifact exceeds policy maximum")
  let normalized := bareMediaType lib mediaType
  require (policy.allowedMediaTypes = [] ∨ mediaType = none ∨
      normalized ∈ policy.allowedMediaTypes.map lib.lower) (.policy "media type is not allowed")
  if [0x50, 0x4B, 0x03, 0x04] <+: content ∨ normalized ∈ zipMediaTypes then
    validateZip lib content policy
  else if ascii "%PDF-" <+: content ∨ normalized = "application/pdf" then validatePdf content
  else if normalized ∈ ["text/html", "application/xhtml+xml"] then validateHtml content
  else .ok ()

/-! ## Headers -/

/-- `_SAFE_PERSISTED_HEADERS` -/
def safePersistedHeaders : List String :=
  ["accept", "content-length", "content-type", "etag", "if-modified-since", "if-none-match",
    "last-modified", "location", "range", "retry-after", "user-agent"]

/-- The alternatives of `_SENSITIVE_KEY`. -/
def sensitiveWords : List String :=
  ["authorization", "cookie", "apikey", "api_key", "api-key", "accesstoken", "access_token",
    "access-token", "refreshtoken", "refresh_token", "refresh-token", "token", "secret",
    "signature", "password", "passwd", "credential", "proxy-authorization"]

/-- `_SENSITIVE_KEY.search`, for a key in lower case. -/
def sensitive (key : String) : Bool := sensitiveWords.any fun word => decide (word.toList <:+: key.toList)

/-- `redact_headers` -/
def redactHeaders (headers : Headers) : Headers :=
  (headers.filter fun h => lib.lower h.1 ∈ safePersistedHeaders).map fun h =>
    (h.1, if sensitive (lib.lower h.1) then "[REDACTED]" else h.2)

/-- The headers of one name, whatever its case. -/
def headersNamed (name : String) (headers : Headers) : Headers :=
  headers.filter fun h => lib.lower h.1 = name

/-- `_media_type`, which is also what `headers.get("Content-Type")` gives. -/
def mediaTypeOf (headers : Headers) : Option String :=
  (headersNamed lib "content-type" headers).head?.map Prod.snd

/-- `_content_type`, as the truth value that is read of it. -/
def hasContentType (headers : Headers) : Bool :=
  (headersNamed lib "content-type" headers).any fun h => lib.strip h.2 ≠ ""

/-- `_has_content_range` -/
def hasContentRange (headers : Headers) : Bool := headersNamed lib "content-range" headers ≠ []

end

/-! ## What the checks give -/

variable {lib : TextLibrary} {url host : String} {policy : SourcePolicy} {parsed : ParseResult}
  {headers : Headers}

/-- What an accepted URL has. -/
structure Accepted (lib : TextLibrary) (url : String) (policy : SourcePolicy) (parsed : ParseResult) :
    Prop where
  parses : lib.urlparse url = some parsed
  noUserinfo : (truthy parsed.username || truthy parsed.password) = false
  scheme : parsed.scheme ∈ ["https", "http"]
  host : ∃ hostname, parsed.hostname = some hostname ∧ hostname ≠ "" ∧
    hostAllowed lib hostname policy.allowedHosts = .ok true

theorem validateSourceUrl_accepted (h : validateSourceUrl lib url policy = .ok parsed) :
    Accepted lib url policy parsed := by
  simp only [validateSourceUrl, bind_ok, require_ok, orThrow_ok, Except.ok.injEq] at h
  obtain ⟨-, -, parsed', hparses, -, huserinfo, -, -, -, -, -, hscheme, hostname, hhost, -, -, port, -,
    -, -, allowed, hallowed, -, rfl, -, -, -, -, rfl⟩ := h
  rw [lib.lower_scheme hparses] at hscheme
  obtain ⟨hhostname, hne⟩ := Option.filter_eq_some_iff.mp hhost
  exact ⟨hparses, huserinfo, hscheme, hostname, hhostname, of_decide_eq_true hne, hallowed⟩

/-- Two lists of one host each do not admit one host. -/
theorem hostAllowed_single {first second : String} (hfirst : hostAllowed lib host [first] = .ok true)
    (hsecond : hostAllowed lib host [second] = .ok true) (hexact : ¬ ['*', '.'] <+: first.toList)
    (hexact' : ¬ ['*', '.'] <+: second.toList) : first = second := by
  simp only [hostAllowed, bind_ok, Except.ok.injEq] at hfirst hsecond
  obtain ⟨normalized, hnormal, hadmits⟩ := hfirst
  obtain ⟨normalized', hnormal', hadmits'⟩ := hsecond
  rw [hnormal, Except.ok.injEq] at hnormal'
  rw [List.any_cons, List.any_nil, Bool.or_false, admits, if_neg hexact, decide_eq_true_eq] at hadmits
  rw [List.any_cons, List.any_nil, Bool.or_false, admits, if_neg hexact', decide_eq_true_eq]
    at hadmits'
  exact hadmits.symm.trans (hnormal'.trans hadmits')

theorem headersNamed_redactHeaders {name : String} (hsafe : name ∈ safePersistedHeaders)
    (hplain : sensitive name = false) :
    headersNamed lib name (redactHeaders lib headers) = headersNamed lib name headers := by
  rw [headersNamed, headersNamed, redactHeaders]
  induction headers with
  | nil => rfl
  | cons h headers ih =>
    by_cases hkept : lib.lower h.1 ∈ safePersistedHeaders
    · by_cases hname : lib.lower h.1 = name
      · subst hname
        simp only [List.filter_cons, List.map_cons, hkept, hplain, ih, decide_true, if_true,
          Bool.false_eq_true, if_false]
      · simp only [List.filter_cons, List.map_cons, hkept, hname, ih, decide_true, decide_false,
          if_true, Bool.false_eq_true, if_false]
    · -- a header of the name would have been kept
      have hname : lib.lower h.1 ≠ name := fun heq => hkept (heq ▸ hsafe)
      simp only [List.filter_cons, hkept, hname, ih, decide_false, Bool.false_eq_true, if_false]

theorem mediaTypeOf_redactHeaders : mediaTypeOf lib (redactHeaders lib headers) = mediaTypeOf lib headers := by
  rw [mediaTypeOf, headersNamed_redactHeaders (by decide) (by decide), mediaTypeOf]

theorem hasContentType_redactHeaders :
    hasContentType lib (redactHeaders lib headers) = hasContentType lib headers := by
  rw [hasContentType, headersNamed_redactHeaders (by decide) (by decide), hasContentType]

theorem hasContentRange_redactHeaders : hasContentRange lib (redactHeaders lib headers) = false := by
  rw [hasContentRange, decide_eq_false_iff_not, not_not, headersNamed, List.filter_eq_nil_iff]
  intro h hmem hname
  obtain ⟨h', hkept, rfl⟩ := List.mem_map.mp hmem
  have hsafe := of_decide_eq_true (List.mem_filter.mp hkept).2
  rw [of_decide_eq_true hname] at hsafe
  exact absurd hsafe (by decide)

theorem keys_redactHeaders_nodup (h : headers.keys.Nodup) : (redactHeaders lib headers).keys.Nodup := by
  have hkeys : (redactHeaders lib headers).keys =
      Dict.keys (headers.filter fun h => lib.lower h.1 ∈ safePersistedHeaders) := by
    rw [Dict.keys, redactHeaders, List.map_map]
    rfl
  rw [hkeys]
  exact h.sublist (List.filter_sublist.map Prod.fst)

end NanFung.Release
