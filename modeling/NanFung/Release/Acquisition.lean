import NanFung.Release.Contracts

/-!
# Live capture and replay of a release

`acquire_live_file_release`, which walks from the discovery page of a contract to its release, and the
chain of URLs by which `ingest_file_release_artifacts` walks the same pages once they are saved.
-/

namespace NanFung.Release

/-- An HTTP response; headers may be repeated. -/
structure Response where
  status : Nat
  headers : List (String × String)
  body : Bytes
  /-- `geturl()` -/
  url : String

/-- What is outside: the transport, the resolver and the clock. -/
structure Web where
  /-- `_open_once` -/
  openOnce : String → Response
  resolver : String → List String
  /-- `datetime.now(UTC).isoformat()` as a stage ends. -/
  now : Stage → String

/-- `FileReleaseCapture` -/
structure FileReleaseCapture where
  discovery : Artifact
  release : Artifact
  selection : Option Artifact

def FileReleaseCapture.stages (capture : FileReleaseCapture) : List (Stage × Artifact) :=
  (Stage.discovery, capture.discovery) :: (capture.selection.toList.map fun a => (Stage.selection, a)) ++
    [(Stage.release, capture.release)]

section

variable (lib : PageLibrary) (web : Web) (datasource : FileRelease)

/-! ## Acquisition -/

/-- `validate_target` of an acquisition, with the check of the one header that it sends. -/
def validateTarget (url : String) (policy : SourcePolicy) : Except ReleaseError Unit := do
  let parsed ← parse lib url
  require (parsed.scheme ∈ ["http", "https"] ∧ truthy parsed.hostname = true)
    (.value "acquisition URL must be an absolute HTTP(S) URL")
  require ((truthy parsed.username || truthy parsed.password) = false)
    (.value "acquisition URL must not contain userinfo")
  let parsed ← validateSourceUrl lib.toTextLibrary url policy
  let addresses := web.resolver (parsed.hostname.getD "")
  require (addresses ≠ [] ∧ ∀ address ∈ addresses, lib.isPublicAddress address = true)
    (.policy "URL resolves to a non-public address")
  require ("user-agent" ∈ policy.allowedRequestHeaders)
    (.value "request header is not allowed by source policy")

def redirectStatusCodes : List Nat := [301, 302, 303, 307, 308]

/-- The loop over redirects: the last URL and its response. -/
def follow (policy : SourcePolicy) : Nat → String → Except ReleaseError (String × Response)
  | redirects, currentUrl =>
    let response := web.openOnce currentUrl
    if response.status ∈ redirectStatusCodes then
      match headersNamed lib.toTextLibrary "location" response.headers with
      | [] => .error (.value "redirect response is missing Location")
      | (_, location) :: _ =>
        match redirects with
        | 0 => .error (.value "redirect limit exceeded")
        | redirects + 1 => do
          let nextUrl ← orThrow (lib.urljoin currentUrl location) (.value "invalid URL")
          validateTarget lib web nextUrl policy
          follow policy redirects nextUrl
    else .ok (currentUrl, response)

/-- `dict(response.headers.items())`, redacted. -/
def storedHeaders (response : Response) : Headers :=
  redactHeaders lib.toTextLibrary (Dict.setAll [] response.headers)

theorem storedHeaders_keyed {lib : PageLibrary} (response : Response) :
    (storedHeaders lib response).keys.Nodup :=
  keys_redactHeaders_nodup (Dict.keys_setAll_nodup List.nodup_nil)

/-- What an acquisition publishes of a response. -/
def published (stage : Stage) (requestUrl : String) (response : Response) : Artifact where
  requestUrl
  finalUrl := response.url
  status := response.status
  headers := storedHeaders lib response
  retrievedAt := web.now stage
  method := "GET"
  keyed := storedHeaders_keyed response
  body := response.body

/-- The `max_bytes` that `acquire_to_artifact` has by default. -/
def maxAcquisitionBytes : Nat := 32 * 1024 * 1024

/-- `acquire_to_artifact`, as the stages of a release call it: with a preflight that adapts the
metadata, and for a full response. -/
def acquireToArtifact (stage : Stage) (url : String) : Except ReleaseError Artifact := do
  let policy := (contractFor lib datasource).policy stage
  validateTarget lib web url policy
  let (currentUrl, response) ← follow lib web policy policy.maxRedirects url
  require (200 ≤ response.status ∧ response.status < 300)
    (.value "streamed acquisition requires a successful HTTP response")
  require (response.status = 200 ∧ hasContentRange lib.toTextLibrary response.headers = false)
    (.value "acquisition requires a complete HTTP 200 response")
  require (response.url = currentUrl) (.value "transport returned an unvalidated final URL")
  let maxBytes := min maxAcquisitionBytes policy.artifact.maxBytes
  require (response.body.length ≤ maxBytes) (.artifactTooLarge maxBytes)
  validateArtifact lib.toTextLibrary response.body (mediaTypeOf lib.toTextLibrary response.headers)
    policy.artifact
  let artifact := published lib web stage url response
  let _ ← adaptMetadata lib datasource stage url artifact.toMetadata
  .ok artifact

/-- `acquire_live_file_release` up to the URL of its release. -/
def livePages : Except ReleaseError (Artifact × Option Artifact × String) := do
  let contract := contractFor lib datasource
  let discovery ← acquireToArtifact lib web datasource .discovery contract.discoveryUrl
  let parsed ← parseSavedArtifact lib discovery.body contract.discoveryParser
  match contract.selectionParser with
  | none =>
    let releaseUrl ← releaseUrlFromDiscovery lib datasource parsed
    .ok (discovery, none, releaseUrl)
  | some selectionParser =>
    let selectionUrl ← selectionUrlFromDiscovery lib datasource parsed
    let selection ← acquireToArtifact lib web datasource .selection selectionUrl
    let parsed ← parseSavedArtifact lib selection.body selectionParser
    let releaseUrl ← releaseUrlFromDiscovery lib datasource parsed
    .ok (discovery, some selection, releaseUrl)

/-- The URL of the release, once the request for it goes out. -/
def releaseRequest : Except ReleaseError String := do
  let (_, _, releaseUrl) ← livePages lib web datasource
  validateTarget lib web releaseUrl (contractFor lib datasource).releasePolicy
  .ok releaseUrl

/-- `acquire_live_file_release` -/
def acquireLiveFileRelease : Except ReleaseError FileReleaseCapture := do
  let (discovery, selection, releaseUrl) ← livePages lib web datasource
  let release ← acquireToArtifact lib web datasource .release releaseUrl
  .ok { discovery, release, selection }

/-! ## Replay -/

/-- `_validate_artifact_policy` -/
def validateArtifactPolicy (stage : Stage) (artifact : Artifact) : Except ReleaseError Unit :=
  validateArtifact lib.toTextLibrary artifact.body (mediaTypeOf lib.toTextLibrary artifact.headers)
    ((contractFor lib datasource).policy stage).artifact

/-- `adapt_discovery_metadata` and `adapt_selection_metadata`, with the policy of the artifact. -/
def checkSaved (stage : Stage) (expectedUrl : String) (artifact : Artifact) :
    Except ReleaseError Unit := do
  let _ ← adaptMetadata lib datasource stage expectedUrl artifact.toMetadata
  validateArtifactPolicy lib datasource stage artifact

/-- The URL that `ingest_file_release_artifacts` derives for its release. -/
def replayedReleaseUrl (discovery selection : Option Artifact) (release : Artifact) :
    Except ReleaseError String :=
  let contract := contractFor lib datasource
  match discovery with
  | none => validateReleaseUrl lib datasource release.requestUrl
  | some discovery => do
    checkSaved lib datasource .discovery contract.discoveryUrl discovery
    let parsed ← parseSavedArtifact lib discovery.body contract.discoveryParser
    match selection with
    | none => releaseUrlFromDiscovery lib datasource parsed
    | some selection =>
      match contract.selectionParser with
      | none =>
        .error (.lifecycle "file-release selection is not part of this datasource contract")
      | some selectionParser =>
        let selectionUrl ← selectionUrlFromDiscovery lib datasource parsed
        checkSaved lib datasource .selection selectionUrl selection
        let parsed ← parseSavedArtifact lib selection.body selectionParser
        releaseUrlFromDiscovery lib datasource parsed

/-- The checks of `ingest_file_release_artifacts` on the artifacts that it is given. -/
def replay (capture : FileReleaseCapture) : Except ReleaseError String := do
  let releaseUrl ← replayedReleaseUrl lib datasource (some capture.discovery) capture.selection
    capture.release
  checkSaved lib datasource .release releaseUrl capture.release
  .ok releaseUrl

/-! ## The servers -/

/-- The servers answer each GET with a complete response at the requested URL, the hosts that a policy
approves have public addresses, and the clock reads a time. -/
structure Complete : Prop where
  status : ∀ url, (web.openOnce url).status = 200
  range : ∀ url, hasContentRange lib.toTextLibrary (web.openOnce url).headers = false
  url : ∀ url, (web.openOnce url).url = url
  resolves : ∀ stage host,
    hostAllowed lib.toTextLibrary host ((contractFor lib datasource).policy stage).allowedHosts = .ok true →
    web.resolver host ≠ [] ∧ ∀ address ∈ web.resolver host, lib.isPublicAddress address = true
  now : ∀ stage, ∃ t, lib.normalizeTimestamp (web.now stage) = some t

end

/-- The servers have the saved page. -/
structure Web.Serves (web : Web) (saved : Artifact) : Prop where
  headers : (web.openOnce saved.requestUrl).headers = saved.headers
  body : (web.openOnce saved.requestUrl).body = saved.body

end NanFung.Release
