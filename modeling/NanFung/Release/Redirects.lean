import NanFung.Lib.Traces
import NanFung.Release.SourceUrls
import NanFung.Release.Streaming
import NanFung.Store.Artifacts

/-!
# Acquisition with redirects

`acquire` and `acquire_to_artifact` of `common.py`, for any method, policy and host gate. The servers,
the resolver and the gate are outside: they answer each question as they like, by all that was asked
before it.
-/

namespace NanFung.Release.Redirects

/-! ## Requests and responses -/

/-- `Request`, with `_nan_fung_peer_addresses`. -/
structure Request where
  url : String
  method : String
  body : Option Bytes
  headers : Headers
  timeout : Nat
  peers : List String

/-- The body of a response as its reader gives it, in pieces of any size. -/
structure Body where
  content : Bytes
  /-- The transfer does not break off. -/
  complete : Bool
  /-- `read(size)` after so many bytes; `none` stands for an exception. -/
  read : Nat → Nat → Option Bytes
  prefix_of_read : ∀ {received size chunk}, read received size = some chunk →
    chunk <+: content.drop received
  end_of_read : ∀ {received size}, read received size = some [] → size = 0 ∨ content.length ≤ received
  isSome_read : complete = true → ∀ received size, (read received size).isSome
  read_broken : complete = false → ∀ {received size}, content.length ≤ received → 0 < size →
    read received size = none

/-- A response; headers may be repeated. -/
structure Response where
  status : Nat
  headers : List (String × String)
  body : Body
  /-- `geturl()` -/
  url : String

/-- How a connection to one address ends. -/
inductive Reply where
  | response (response : Response)
  | osError
  | raised

/-- What is asked of the outside, with the answer; `none` stands for an exception. -/
inductive Exchange where
  | resolved (host : String) (addresses : Option (List String))
  | permitted (host : String) (continuation granted : Bool)
  /-- `_open_once` is called. -/
  | requested (request : Request)
  | attempted (request : Request) (peer : String) (port : Nat) (reply : Reply)
  | recorded (host : String) (status : Nat) (retryAfter : Option String)
      (blockedUntil : Option (Option Time))

abbrev Log : Type := List Exchange

/-- The outside. -/
structure Outside where
  resolver : Log → String → Option (List String)
  /-- `host_gate.permit`; `false` stands for an exception. -/
  permit : Log → String → Bool → Bool
  connect : Log → Request → String → Nat → Reply
  /-- `host_gate.record_response` -/
  recordResponse : Log → String → Nat → Option String → Option (Option Time)
  /-- `datetime.now(UTC).isoformat()` -/
  now : Log → String

inductive AcquisitionError where
  | release (error : ReleaseError)
  | hostThrottleBlocked (host : String) (blockedUntil : Time)
  /-- What the resolver, the gate, the transport, the store or a hook raises. -/
  | outside
  | timeout

/-- What the standard library does for an acquisition. -/
structure AcquisitionLibrary extends TextLibrary where
  /-- `urlencode(·, doseq=True)` -/
  urlencode : List (String × String) → String
  sha256 : Bytes → String

/-- The arguments that the two functions share. -/
structure Arguments where
  url : String
  params : List (String × String) := []
  headers : Headers := []
  timeout : Nat := 30
  method : String := "GET"
  body : Option Bytes := none
  allowedHosts : List String := []
  maxBytes : Int := 32 * 1024 * 1024
  policy : SourcePolicy
  /-- `host_gate is not None` -/
  gated : Bool
  requireFullResponse : Bool := false

/-! ## Targets -/

/-- A check, whose exception is one of this repository. -/
def check {α : Type} (result : Except ReleaseError α) : Proc Log AcquisitionError α :=
  Proc.query fun _ => result.mapError .release

section

variable (lib : AcquisitionLibrary) (outside : Outside) (args : Arguments)

/-- `build_url` -/
def buildUrl (url : String) (params : List (String × String)) : String :=
  if params = [] then url
  else url ++ (if '?' ∈ url.toList then "&" else "?") ++ lib.urlencode params

/-- `_throttle_host` -/
def throttleHost (host : String) : String := lib.lower (rstripDots (lib.strip host))

/-- `validate_target` up to the resolver: the host to resolve. -/
def checkTarget (targetUrl : String) : Except ReleaseError String := do
  let parsed ← orThrow (lib.urlparse targetUrl) (.value "invalid URL")
  require (parsed.scheme ∈ ["http", "https"] ∧ truthy parsed.hostname = true)
    (.value "acquisition URL must be an absolute HTTP(S) URL")
  require ((truthy parsed.username || truthy parsed.password) = false)
    (.value "acquisition URL must not contain userinfo")
  let hostname := parsed.hostname.getD ""
  require (args.allowedHosts ≠ [] → throttleHost lib hostname ∈ args.allowedHosts.map (throttleHost lib))
    (.value ("host is not allowed: " ++ hostname))
  let parsed ← validateRequestUrl lib.toTextLibrary targetUrl args.policy args.method
  .ok (parsed.hostname.getD "")

/-- `validate_target`: the public addresses of the target. -/
def validateTarget (targetUrl : String) : Proc Log AcquisitionError (List String) := do
  let host ← check (checkTarget lib args targetUrl)
  let answer ← Proc.ask (outside.resolver · host) (.resolved host)
  match answer with
  | none => throw .outside
  | some addresses => do
    check (require (addresses ≠ [] ∧ ∀ address ∈ addresses, lib.isPublicAddress address = true)
      (.policy "URL resolves to a non-public address"))
    pure addresses

/-! ## One request -/

/-- The loop of `_open_once` over the addresses. -/
def attempt (request : Request) (port : Nat) : List String → Proc Log AcquisitionError Response
  | [] => throw .outside
  | peer :: peers => do
    let reply ← Proc.ask (outside.connect · request peer port) (.attempted request peer port)
    match reply with
    | .response response => pure response
    | .osError => attempt request port peers
    | .raised => throw .outside

/-- `_open_once` -/
def openOnce (request : Request) : Proc Log AcquisitionError Response := do
  Proc.ask (fun _ => ()) fun _ => .requested request
  let parsed ← check (orThrow (lib.urlparse request.url) (.value "invalid URL"))
  check (require (request.peers ≠ [])
    (.value "acquisition transport requires validated peer addresses"))
  check (require (truthy parsed.hostname = true) (.value "acquisition URL must have a hostname"))
  let defaultPort := if parsed.scheme = "https" then 443 else 80
  let port ← check (orThrow parsed.port (.value "port is no number"))
  check (require (parsed.scheme ∈ ["https", "http"]) (.value "unsupported acquisition URL scheme"))
  attempt outside request (if port.getD 0 = 0 then defaultPort else port.getD 0) request.peers

/-- Ask the gate, if there is one: the hosts permitted by then. -/
def permitHost (permittedHosts : List String) (host : String) :
    Proc Log AcquisitionError (List String) :=
  if args.gated = true then do
    let continuation := decide (host ∈ permittedHosts)
    let granted ← Proc.ask (outside.permit · host continuation) (.permitted host continuation)
    if granted = true then pure (host :: permittedHosts) else throw .outside
  else pure permittedHosts

/-- `response.headers.get` -/
def Response.header (name : String) (response : Response) : Option String :=
  (headersNamed lib.toTextLibrary name response.headers).head?.map Prod.snd

/-- Tell the gate of a response; a 429 that it blocks ends the acquisition. -/
def recordResponse (host : String) (response : Response) : Proc Log AcquisitionError Unit :=
  if args.gated = true then do
    let retryAfter := response.header lib "retry-after"
    let answer ← Proc.ask (outside.recordResponse · host response.status retryAfter)
      (.recorded host response.status retryAfter)
    match answer with
    | none => throw .outside
    | some none => pure ()
    | some (some blockedUntil) =>
      if response.status = 429 then throw (.hostThrottleBlocked host blockedUntil) else pure ()
  else pure ()

/-- The loop up to its look at the status: the permitted hosts, and the response. -/
def exchange (headers : Headers) (permittedHosts : List String) (currentUrl : String)
    (peers : List String) : Proc Log AcquisitionError (List String × Response) := do
  let parsed ← check (orThrow (lib.urlparse currentUrl) (.value "invalid URL"))
  let rawHost ← check (orThrow parsed.hostname (.value "acquisition URL must have a hostname"))
  let host := throttleHost lib rawHost
  let permittedHosts ← permitHost outside args permittedHosts host
  let response ← openOnce lib outside { url := currentUrl, method := args.method, body := args.body,
                                        headers, timeout := args.timeout, peers }
  recordResponse lib outside args host response
  pure (permittedHosts, response)

/-! ## The loop -/

/-- `_REDIRECT_STATUS_CODES` -/
def redirectStatusCodes : List Nat := [301, 302, 303, 307, 308]

/-- The loop, with the number of redirects that are left: the last URL and its response. -/
def follow (headers : Headers) (redirects : Nat) (permittedHosts : List String) (currentUrl : String)
    (peers : List String) : Proc Log AcquisitionError (String × Response) := do
  let (permittedHosts, response) ← exchange lib outside args headers permittedHosts currentUrl peers
  if response.status ∈ redirectStatusCodes then do
    let location ← check (orThrow ((response.header lib "location").filter (· ≠ ""))
      (.value "redirect response is missing Location"))
    check (require (lib.upper args.method = "GET")
      (.value "redirected non-GET requests are not supported"))
    match redirects with
    | 0 => check (.error (.value "redirect limit exceeded"))
    | redirects + 1 => do
      let nextUrl ← check (orThrow (lib.urljoin currentUrl location) (.value "invalid URL"))
      let peers ← validateTarget lib outside args nextUrl
      follow headers redirects permittedHosts nextUrl peers
  else pure (currentUrl, response)

/-- `USER_AGENT` -/
def userAgent : String := "nan-fung-datasource-research/0.1"

/-- What the functions compute before they ask for the page. -/
structure Prepared where
  requestUrl : String
  peers : List String
  maxBytes : Int
  headers : Headers

/-- The functions up to their loop. -/
def prepare : Proc Log AcquisitionError Prepared := do
  let requestUrl := buildUrl lib args.url args.params
  let peers ← validateTarget lib outside args requestUrl
  let maxBytes := min args.maxBytes args.policy.artifact.maxBytes
  check (require (1 ≤ maxBytes) (.value "max_bytes must be positive"))
  let headers := Dict.setAll [("User-Agent", userAgent)] args.headers
  check (require (∀ header ∈ Dict.keys headers, lib.lower header ∈ args.policy.allowedRequestHeaders)
    (.value "request header is not allowed by source policy"))
  pure { requestUrl, peers, maxBytes, headers }

/-- The functions up to the end of their loop. -/
def request (permittedHosts : List String) : Proc Log AcquisitionError (Prepared × String × Response) := do
  let prepared ← prepare lib outside args
  let (currentUrl, response) ← follow lib outside args prepared.headers args.policy.maxRedirects
    permittedHosts prepared.requestUrl prepared.peers
  pure (prepared, currentUrl, response)

/-- The checks of the status after the loop. -/
def requireSuccess (message : String) (response : Response) : Except ReleaseError Unit := do
  require (200 ≤ response.status ∧ response.status < 300) (.value message)
  require (args.requireFullResponse = true → response.status = 200 ∧
      hasContentRange lib.toTextLibrary response.headers = false)
    (.value "acquisition requires a complete HTTP 200 response")

/-- `redact_headers(dict(response.headers.items()))` -/
def auditHeaders (response : Response) : Headers :=
  redactHeaders lib.toTextLibrary (Dict.setAll [] response.headers)

end

/-! ## Bodies -/

/-- A loop that reads up to the first empty piece, in at most so many reads: after each piece it
requires the limit, and may write the piece. -/
def readLoop (read : Nat → Except AcquisitionError Bytes) (maxBytes : Int) (tooLarge : AcquisitionError)
    (write : Nat → Except AcquisitionError Unit) : Nat → Bytes → Except AcquisitionError Bytes
  | 0, _ => .error .outside
  | reads + 1, received => do
    let chunk ← read received.length
    if chunk = [] then .ok received
    else do
      require ((received ++ chunk).length ≤ maxBytes) tooLarge
      write received.length
      readLoop read maxBytes tooLarge write reads (received ++ chunk)

/-- `response.read` -/
def Body.readChunk (body : Body) (received size : Nat) : Except AcquisitionError Bytes :=
  orThrow (body.read received size) .outside

/-- No more reads than this give bytes. -/
def Body.reads (body : Body) : Nat := body.content.length + 1

/-! ## `acquire` -/

/-- `AcquisitionResponse` -/
structure AcquisitionResponse where
  requestUrl : String
  finalUrl : String
  status : Nat
  headers : Headers
  body : Bytes
  retrievedAt : String
  method : String

section

variable (lib : AcquisitionLibrary) (outside : Outside) (args : Arguments)

/-- The loop of `acquire` over the pieces of the body. -/
def readBody (maxBytes : Int) (body : Body) : Except AcquisitionError Bytes :=
  readLoop
    (fun received => body.readChunk received (min (64 * 1024) (maxBytes - received + 1)).toNat) maxBytes
    (.release (.value ("response exceeds " ++ toString maxBytes ++ " byte limit"))) (fun _ => .ok ())
    body.reads []

/-- `acquire` after its loop. -/
def receive (prepared : Prepared) (currentUrl : String) (response : Response) (now : String) :
    Except AcquisitionError AcquisitionResponse := do
  (requireSuccess lib args "acquisition requires a successful HTTP response" response).mapError .release
  let artifact ← readBody prepared.maxBytes response.body
  require (response.url = currentUrl)
    (.release (.value "transport returned an unvalidated final URL"))
  (validateArtifact lib.toTextLibrary artifact (response.header lib "content-type")
    args.policy.artifact).mapError .release
  .ok { requestUrl := prepared.requestUrl, finalUrl := response.url, status := response.status,
        headers := auditHeaders lib response, body := artifact, retrievedAt := now,
        method := args.method }

/-- `acquire` -/
def acquire : Proc Log AcquisitionError AcquisitionResponse := do
  let (prepared, currentUrl, response) ← request lib outside args []
  Proc.query fun log => receive lib args prepared currentUrl response (outside.now log)

end

/-! ## `acquire_to_artifact` -/

/-- What an artifact store does; each may raise. -/
inductive StoreStep where
  | prepare
  | write (received : Nat)
  | sync
  | link
  | unlink
  deriving DecidableEq

/-- `ArtifactStore` -/
structure ArtifactStore where
  objects : String → Option Bytes
  raises : StoreStep → Bool
  /-- How a temporary file comes in chunks. -/
  reading : (content : Bytes) → Reading content

def ArtifactStore.perform (store : ArtifactStore) (step : StoreStep) : Except AcquisitionError Unit :=
  require (store.raises step = false) .outside

/-- `DEFAULT_CHUNK_SIZE` -/
def defaultChunkSize : Nat := 1024 * 1024

/-- `put_stream`, with the chunk size that it has by default: the artifact, and the objects after it. -/
def putStream (sha256 : Bytes → String) (store : ArtifactStore) (reads : Nat)
    (read : Nat → Nat → Except AcquisitionError Bytes) (mediaType : Option String) (maxBytes : Int)
    (validator : ArtifactFile → Nat → Except AcquisitionError Unit)
    (beforePublish : Except AcquisitionError Unit) :
    Except AcquisitionError (StoredArtifact × (String → Option Bytes)) := do
  require (0 ≤ maxBytes) (.release (.value "max_bytes must be non-negative"))
  store.perform .prepare
  let content ← readLoop (read · defaultChunkSize) maxBytes
    (.release (.artifactTooLarge maxBytes.toNat)) (store.perform <| .write ·) reads []
  store.perform .sync
  validator ⟨content, store.reading content⟩ content.length
  beforePublish
  let contentSha256 := sha256 content
  store.perform .link
  match store.objects contentSha256 with
  | some existing => do
    -- `_require_verified`
    require (existing.length = content.length ∧ sha256 existing = contentSha256) .outside
    .ok ({ contentSha256, byteSize := content.length, mediaType, created := false }, store.objects)
  | none => do
    store.perform .unlink
    .ok ({ contentSha256, byteSize := content.length, mediaType, created := true },
      Function.update store.objects contentSha256 (some content))

/-- `AcquisitionMetadata` -/
structure AcquisitionMetadata where
  requestUrl : String
  finalUrl : String
  status : Nat
  headers : Headers
  retrievedAt : String
  method : String

/-- `StoredAcquisitionResponse` -/
structure StoredAcquisitionResponse extends AcquisitionMetadata where
  artifact : StoredArtifact

/-- The calls of `monotonic_clock`: one at the start, and two for the read after so many bytes. -/
inductive ClockCall where
  | start
  | before (received : Nat)
  | after (received : Nat)

/-- The arguments that `acquire_to_artifact` has of its own. -/
structure Streaming where
  artifactStore : ArtifactStore
  continuationHosts : List String := []
  /-- Whether the hook returns. -/
  beforePublish : Option (AcquisitionMetadata → Bool) := none
  maxStreamSeconds : Option ℚ := none
  monotonicClock : ClockCall → ℚ := fun _ => 0

/-- `_DeadlineReader.read`, where there is a deadline. -/
def Streaming.read (streaming : Streaming) (body : Body) (received size : Nat) :
    Except AcquisitionError Bytes :=
  match streaming.maxStreamSeconds with
  | none => body.readChunk received size
  | some seconds => do
    let deadline := streaming.monotonicClock .start + seconds
    require (streaming.monotonicClock (.before received) < deadline) .timeout
    let chunk ← body.readChunk received size
    require (streaming.monotonicClock (.after received) < deadline) .timeout
    .ok chunk

section

variable (lib : AcquisitionLibrary) (outside : Outside) (args : Arguments) (streaming : Streaming)

/-- `acquire_to_artifact` after its loop. -/
def receiveToArtifact (prepared : Prepared) (currentUrl : String) (response : Response) (now : String) :
    Except AcquisitionError (StoredAcquisitionResponse × (String → Option Bytes)) := do
  (requireSuccess lib args "streamed acquisition requires a successful HTTP response"
    response).mapError .release
  require (response.url = currentUrl)
    (.release (.value "transport returned an unvalidated final URL"))
  let mediaType := response.header lib "content-type"
  let metadata : AcquisitionMetadata :=
    { requestUrl := prepared.requestUrl, finalUrl := response.url, status := response.status,
      headers := auditHeaders lib response, retrievedAt := now, method := args.method }
  let (artifact, objects) ← putStream lib.sha256 streaming.artifactStore response.body.reads
    (streaming.read response.body) mediaType prepared.maxBytes
    (fun file byteSize => (validateArtifactFile lib.toTextLibrary file byteSize mediaType
      args.policy.artifact).mapError .release)
    (require (streaming.beforePublish.all (· metadata) = true) .outside)
  .ok ({ metadata with artifact }, objects)

/-- `acquire_to_artifact` -/
def acquireToArtifact :
    Proc Log AcquisitionError (StoredAcquisitionResponse × (String → Option Bytes)) := do
  check (require (∀ seconds ∈ streaming.maxStreamSeconds, 0 < seconds)
    (.value "max_stream_seconds must be positive"))
  let (prepared, currentUrl, response) ← request lib outside args
    (streaming.continuationHosts.map (throttleHost lib))
  Proc.query fun log =>
    receiveToArtifact lib args streaming prepared currentUrl response (outside.now log)

end

end NanFung.Release.Redirects
