import NanFung.Release.Confined

/-!
# Accepted bodies

Both functions accept the bodies that are complete, that are not longer than the limit and that the
artifact policy admits, from the URL that was validated last; they differ in the order of these checks
and in where a body goes.
-/

namespace NanFung.Release.Redirects

/-! ## Reading -/

variable {body : Body} {received artifact chunk : Bytes} {maxBytes : Int} {tooLarge : AcquisitionError}
  {read : Nat → Except AcquisitionError Bytes} {write : Nat → Except AcquisitionError Unit} {reads : Nat}

/-- What a loop reads comes from the body, by reads that ask for something. -/
def ReadsFrom (body : Body) (maxBytes : Int) (read : Nat → Except AcquisitionError Bytes) : Prop :=
  ∀ (received : Nat) (chunk : Bytes), (received : Int) ≤ maxBytes → read received = .ok chunk →
    ∃ size, 0 < size ∧ body.read received size = some chunk

/-- Such a read gives what the body gives. -/
def ReadsAll (body : Body) (maxBytes : Int) (read : Nat → Except AcquisitionError Bytes) : Prop :=
  ∀ received : Nat, (received : Int) ≤ maxBytes → ∃ size, 0 < size ∧
    read received = orThrow (body.read received size) .outside

theorem ReadsAll.readsFrom (h : ReadsAll body maxBytes read) : ReadsFrom body maxBytes read := by
  intro received chunk hreceived hread
  obtain ⟨size, hsize, heq⟩ := h received hreceived
  exact ⟨size, hsize, orThrow_ok.mp (heq ▸ hread)⟩

/-- One more piece. -/
theorem prefix_append (h : received <+: body.content) (hchunk : chunk <+: body.content.drop received.length) :
    received ++ chunk <+: body.content := by
  obtain ⟨rest, hrest⟩ := h
  rw [← hrest, List.drop_left] at hchunk
  rw [← hrest]
  exact (List.prefix_append_right_inj received).mpr hchunk

/-- A loop that ends has read the whole body, which is complete and not too long. -/
theorem of_readLoop (hread : ReadsFrom body maxBytes read) (hopening : received <+: body.content)
    (hmax : (received.length : Int) ≤ maxBytes)
    (h : readLoop read maxBytes tooLarge write reads received = .ok artifact) :
    artifact = body.content ∧ body.complete = true ∧ (body.content.length : Int) ≤ maxBytes := by
  induction reads generalizing received with
  | zero => cases h
  | succ reads ih =>
    simp only [readLoop, bind_ok] at h
    obtain ⟨chunk, hchunk, h⟩ := h
    obtain ⟨size, hsize, hsome⟩ := hread _ _ hmax hchunk
    split at h
    · next hempty =>
      subst hempty
      obtain rfl := Except.ok.inj h
      have hend : body.content.length ≤ received.length :=
        (body.end_of_read hsome).resolve_left hsize.ne'
      obtain rfl := hopening.eq_of_length (le_antisymm hopening.length_le hend)
      refine ⟨rfl, ?_, hmax⟩
      -- a transfer that breaks off does not end
      by_contra hbroken
      rw [body.read_broken (Bool.not_eq_true _ ▸ hbroken) hend hsize] at hsome
      cases hsome
    · simp only [bind_ok, require_ok] at h
      obtain ⟨-, hlimit, -, -, h⟩ := h
      exact ih (prefix_append hopening (body.prefix_of_read hsome)) hlimit h

/-- A complete body that is not too long is read to its end. -/
theorem readLoop_of (hread : ReadsAll body maxBytes read) (hwrite : ∀ received, write received = .ok ())
    (hcomplete : body.complete = true) (hlength : (body.content.length : Int) ≤ maxBytes)
    (hopening : received <+: body.content) (hreads : body.content.length < received.length + reads) :
    readLoop read maxBytes tooLarge write reads received = .ok body.content := by
  induction reads generalizing received with
  | zero =>
    have := hopening.length_le
    omega
  | succ reads ih =>
    have hle := hopening.length_le
    obtain ⟨size, hsize, heq⟩ := hread received.length (by omega)
    obtain ⟨chunk, hsome⟩ := Option.isSome_iff_exists.mp (body.isSome_read hcomplete received.length size)
    rw [hsome] at heq
    rw [readLoop, heq]
    simp only [orThrow, ok_bind]
    split
    · next hempty =>
      subst hempty
      have hend := (body.end_of_read hsome).resolve_left hsize.ne'
      exact congrArg Except.ok (hopening.eq_of_length (le_antisymm hle hend))
    · next hchunk =>
      have hnext := prefix_append hopening (body.prefix_of_read hsome)
      have hshort := hnext.length_le
      have hpos := List.length_pos_iff.mpr hchunk
      rw [List.length_append] at hshort
      have hlimit : ((received ++ chunk).length : Int) ≤ maxBytes := by
        rw [List.length_append]
        omega
      rw [require, if_pos hlimit, ok_bind, hwrite, ok_bind]
      refine ih hnext ?_
      rw [List.length_append]
      omega

/-! ## The ends of the functions -/

variable {lib : AcquisitionLibrary} {outside : Outside} {args : Arguments} {streaming : Streaming}
  {prepared : Prepared} {url now : String} {response : Response} {log : Log}

/-- The response is one that an acquisition accepts. -/
structure Acceptable (lib : AcquisitionLibrary) (args : Arguments) (maxBytes : Int) (url : String)
    (response : Response) : Prop where
  status : 200 ≤ response.status ∧ response.status < 300
  full : args.requireFullResponse = true → response.status = 200 ∧
    hasContentRange lib.toTextLibrary response.headers = false
  url : response.url = url
  complete : response.body.complete = true
  length : (response.body.content.length : Int) ≤ maxBytes
  policy : validateArtifact lib.toTextLibrary response.body.content (response.header lib "content-type")
    args.policy.artifact = .ok ()

theorem requireSuccess_ok {message : String} {u : Unit} :
    requireSuccess lib args message response = .ok u ↔
    (200 ≤ response.status ∧ response.status < 300) ∧ (args.requireFullResponse = true →
      response.status = 200 ∧ hasContentRange lib.toTextLibrary response.headers = false) := by
  simp only [requireSuccess, bind_ok, require_ok]
  constructor
  · rintro ⟨_, hstatus, hfull⟩
    exact ⟨hstatus, hfull⟩
  · rintro ⟨hstatus, hfull⟩
    exact ⟨(), hstatus, hfull⟩

theorem readsAll_readBody (hmax : 1 ≤ maxBytes) : ReadsAll body maxBytes fun received =>
    body.readChunk received (min (64 * 1024) (maxBytes - received + 1)).toNat := by
  intro received hreceived
  have hpositive := hmax
  exact ⟨_, by omega, rfl⟩

/-- What `acquire` makes of an acceptable response. -/
def accepted (lib : AcquisitionLibrary) (args : Arguments) (prepared : Prepared) (response : Response)
    (now : String) : AcquisitionResponse where
  requestUrl := prepared.requestUrl
  finalUrl := response.url
  status := response.status
  headers := auditHeaders lib response
  body := response.body.content
  retrievedAt := now
  method := args.method

theorem receive_ok (hmax : 1 ≤ prepared.maxBytes) {result : AcquisitionResponse} :
    receive lib args prepared url response now = .ok result ↔
      Acceptable lib args prepared.maxBytes url response ∧
        result = accepted lib args prepared response now := by
  simp only [receive, bind_ok, require_ok, mapError_ok, requireSuccess_ok, Except.ok.injEq]
  have hread := @readsAll_readBody response.body _ hmax
  constructor
  · rintro ⟨_, ⟨hstatus, hfull⟩, artifact, hbody, _, hurl, _, hpolicy, rfl⟩
    obtain ⟨rfl, hcomplete, hlength⟩ := of_readLoop hread.readsFrom List.nil_prefix
      (by rw [List.length_nil]; omega) hbody
    exact ⟨⟨hstatus, hfull, hurl, hcomplete, hlength, hpolicy⟩, rfl⟩
  · rintro ⟨h, rfl⟩
    refine ⟨(), ⟨h.status, h.full⟩, response.body.content, ?_, (), h.url, (), h.policy, rfl⟩
    exact readLoop_of hread (fun _ => rfl) h.complete h.length List.nil_prefix
      (by rw [List.length_nil, Body.reads]; omega)

theorem readsFrom_streaming : ReadsFrom body maxBytes (streaming.read body · defaultChunkSize) := by
  intro received chunk _ hread
  refine ⟨defaultChunkSize, by decide, ?_⟩
  unfold Streaming.read at hread
  split at hread
  · exact orThrow_ok.mp hread
  · simp only [bind_ok, Except.ok.injEq] at hread
    obtain ⟨_, -, chunk', hchunk, _, -, rfl⟩ := hread
    exact orThrow_ok.mp hchunk

/-- The artifact that `put_stream` describes. -/
def storedArtifact (lib : AcquisitionLibrary) (response : Response) (created : Bool) : StoredArtifact where
  contentSha256 := lib.sha256 response.body.content
  mediaType := response.header lib "content-type"
  byteSize := response.body.content.length
  created

/-- What `acquire_to_artifact` makes of an acceptable response. -/
def acceptedToArtifact (lib : AcquisitionLibrary) (args : Arguments) (prepared : Prepared)
    (response : Response) (now : String) (created : Bool) : StoredAcquisitionResponse where
  requestUrl := prepared.requestUrl
  finalUrl := response.url
  status := response.status
  headers := auditHeaders lib response
  retrievedAt := now
  method := args.method
  artifact := storedArtifact lib response created

/-- The store raises nothing, and keeps each content under its own digest. -/
structure ArtifactStore.Works (store : ArtifactStore) (sha256 : Bytes → String) : Prop where
  performs : ∀ step, store.raises step = false
  keeps : ∀ content object, store.objects (sha256 content) = some object → object = content

/-- No deadline, no hook, no continuation hosts, and a working store. -/
structure Streaming.Plain (streaming : Streaming) (sha256 : Bytes → String) : Prop where
  store : streaming.artifactStore.Works sha256
  hosts : streaming.continuationHosts = []
  hook : streaming.beforePublish = none
  deadline : streaming.maxStreamSeconds = none

/-- Whatever the hook, the deadline and the store do, only an acceptable response is returned. -/
theorem receiveToArtifact_ok (hmax : 1 ≤ prepared.maxBytes) {result : StoredAcquisitionResponse}
    {objects : String → Option Bytes}
    (h : receiveToArtifact lib args streaming prepared url response now = .ok (result, objects)) :
    Acceptable lib args prepared.maxBytes url response ∧
      ∃ created, result = acceptedToArtifact lib args prepared response now created := by
  have hpositive := hmax
  simp only [receiveToArtifact, bind_ok, require_ok, mapError_ok, requireSuccess_ok, Except.ok.injEq,
    putStream] at h
  obtain ⟨_, ⟨hstatus, hfull⟩, _, hurl, ⟨artifact, objects'⟩, ⟨_, hmax', _, -, content, hbody, _, -, _,
    hpolicy, _, -, _, -, hput⟩, hresult⟩ := h
  obtain ⟨rfl, hcomplete, hlength⟩ := of_readLoop readsFrom_streaming List.nil_prefix
    (by rw [List.length_nil]; omega) hbody
  have hpolicy := validateArtifactFile_eq.symm.trans hpolicy
  refine ⟨⟨hstatus, hfull, hurl, hcomplete, hlength, hpolicy⟩, ?_⟩
  obtain ⟨rfl, -⟩ := Prod.mk.inj hresult
  split at hput
  · simp only [bind_ok, Except.ok.injEq, Prod.mk.injEq] at hput
    obtain ⟨_, -, rfl, -⟩ := hput
    exact ⟨false, rfl⟩
  · simp only [bind_ok, Except.ok.injEq, Prod.mk.injEq] at hput
    obtain ⟨_, -, rfl, -⟩ := hput
    exact ⟨true, rfl⟩

/-- A working store takes a complete body that is valid and not too long. -/
theorem putStream_of {sha256 : Bytes → String} {store : ArtifactStore} {mediaType : Option String}
    {read : Nat → Nat → Except AcquisitionError Bytes}
    {validator : ArtifactFile → Nat → Except AcquisitionError Unit} (hworks : store.Works sha256)
    (hread : ReadsAll body maxBytes (read · defaultChunkSize)) (hcomplete : body.complete = true)
    (hlength : (body.content.length : Int) ≤ maxBytes)
    (hvalid : validator ⟨body.content, store.reading body.content⟩ body.content.length = .ok ()) :
    ∃ created objects, putStream sha256 store body.reads read mediaType maxBytes validator (.ok ()) =
        .ok ({ contentSha256 := sha256 body.content, mediaType, byteSize := body.content.length, created },
          objects) ∧ objects (sha256 body.content) = some body.content := by
  have hperform : ∀ step, store.perform step = .ok () := fun step => if_pos (hworks.performs step)
  have hpositive : 0 ≤ maxBytes := le_trans (Int.natCast_nonneg _) hlength
  have hbody := @readLoop_of body [] maxBytes (.release (.artifactTooLarge maxBytes.toNat)) _
    (store.perform <| .write ·) body.reads hread (fun _ => hperform _) hcomplete hlength
    List.nil_prefix (by rw [List.length_nil, Body.reads]; omega)
  rw [putStream, require, if_pos hpositive, ok_bind, hperform, ok_bind, hbody, ok_bind, hperform, ok_bind,
    hvalid, ok_bind, ok_bind]
  dsimp only
  rw [hperform, ok_bind]
  cases hobject : store.objects (sha256 body.content) with
  | none =>
    dsimp only
    rw [hperform, ok_bind]
    exact ⟨true, _, rfl, Function.update_self _ _ _⟩
  | some object =>
    obtain rfl := hworks.keeps _ _ hobject
    dsimp only
    rw [require, if_pos ⟨rfl, rfl⟩, ok_bind]
    exact ⟨false, _, rfl, hobject⟩

/-- A plain call returns what the response gives, and the store has the body. -/
theorem receiveToArtifact_of (hplain : streaming.Plain lib.sha256)
    (h : Acceptable lib args prepared.maxBytes url response) :
    ∃ created objects, receiveToArtifact lib args streaming prepared url response now =
        .ok (acceptedToArtifact lib args prepared response now created, objects) ∧
      objects (lib.sha256 response.body.content) = some response.body.content := by
  have hsuccess : (requireSuccess lib args "streamed acquisition requires a successful HTTP response"
      response).mapError AcquisitionError.release = .ok () :=
    mapError_ok.mpr (requireSuccess_ok.mpr ⟨h.status, h.full⟩)
  have hread : streaming.read response.body = response.body.readChunk := by
    funext received size
    rw [Streaming.read, hplain.deadline]
  have hall : ReadsAll response.body prepared.maxBytes (streaming.read response.body · defaultChunkSize) :=
    fun received _ => ⟨defaultChunkSize, by decide, by rw [hread]; rfl⟩
  have hpolicy : validateArtifactFile lib.toTextLibrary
      ⟨response.body.content, streaming.artifactStore.reading response.body.content⟩
      response.body.content.length (response.header lib "content-type") args.policy.artifact = .ok () :=
    validateArtifactFile_eq.trans h.policy
  have hhook : ∀ metadata, require (streaming.beforePublish.all (· metadata) = true)
      AcquisitionError.outside = .ok () := fun metadata => by
    rw [hplain.hook]
    rfl
  obtain ⟨created, objects, hput, hstored⟩ := @putStream_of response.body prepared.maxBytes lib.sha256
    streaming.artifactStore (response.header lib "content-type") _ (fun file byteSize =>
      (validateArtifactFile lib.toTextLibrary file byteSize (response.header lib "content-type")
        args.policy.artifact).mapError .release) hplain.store hall h.complete h.length
    (mapError_ok.mpr hpolicy)
  refine ⟨created, objects, ?_, hstored⟩
  rw [receiveToArtifact, hsuccess, ok_bind, require, if_pos h.url, ok_bind]
  dsimp only
  rw [hhook, hput]
  rfl

/-! ## Both functions -/

/-- The body came from the last validated URL, and is not longer than the limits. -/
def AcceptedFrom (lib : AcquisitionLibrary) (outside : Outside) (args : Arguments) (log : Log)
    (finalUrl : String) (content : Bytes) : Prop :=
  ∃ response, Served lib outside args log finalUrl response ∧ response.url = finalUrl ∧
    response.body.content = content ∧
      (content.length : Int) ≤ min args.maxBytes args.policy.artifact.maxBytes

/-- Both calls raise, or both return the same, with the same body. -/
def SameOutcome (sha256 : Bytes → String) : Except AcquisitionError AcquisitionResponse →
    Except AcquisitionError (StoredAcquisitionResponse × (String → Option Bytes)) → Prop
  | .ok response, .ok (stored, objects) =>
    stored.finalUrl = response.finalUrl ∧ stored.status = response.status ∧
      stored.headers = response.headers ∧ stored.requestUrl = response.requestUrl ∧
        stored.method = response.method ∧ stored.retrievedAt = response.retrievedAt ∧
          stored.artifact.contentSha256 = sha256 response.body ∧
            objects stored.artifact.contentSha256 = some response.body
  | .error _, .error _ => True
  | _, _ => False

theorem going_start {permittedHosts : List String} : Going args permittedHosts 0 permittedHosts [] where
  runs := List.forall_mem_nil _
  sent := rfl
  permitted _ host := by
    rw [List.any_nil]
    exact ⟨Or.inl, fun h => h.resolve_right Bool.false_ne_true⟩

/-- The log of a call is that of its requests: what comes after them asks nothing. -/
theorem run_tail {α β : Type} {p : Proc Log AcquisitionError α} {f : α → Log → Except AcquisitionError β}
    (log : Log) : ((p >>= fun a => Proc.query fun log => f a log).run log).2 = (p.run log).2 := by
  rw [Proc.run_bind]
  rcases p.run log with ⟨_ | _, _⟩ <;> rfl

/-- What holds of both functions, for any servers, resolver, gate, hook, clock and store. -/
structure Acquires (lib : AcquisitionLibrary) (outside : Outside) (args : Arguments) (streaming : Streaming) :
    Prop where
  confined : Confined lib outside args ((acquire lib outside args).run []).2
  confinedToArtifact :
    Confined lib outside args ((acquireToArtifact lib outside args streaming).run []).2
  gated : GatedOnce lib args ((acquire lib outside args).run []).2
  gatedToArtifact : streaming.continuationHosts = [] →
    GatedOnce lib args ((acquireToArtifact lib outside args streaming).run []).2
  accepted : ∀ response, ((acquire lib outside args).run []).1 = .ok response →
    AcceptedFrom lib outside args ((acquire lib outside args).run []).2 response.finalUrl response.body
  acceptedToArtifact : ∀ response objects,
    ((acquireToArtifact lib outside args streaming).run []).1 = .ok (response, objects) → ∃ content,
      AcceptedFrom lib outside args ((acquireToArtifact lib outside args streaming).run []).2
        response.finalUrl content ∧
      response.artifact.contentSha256 = lib.sha256 content ∧ response.artifact.byteSize = content.length
  sameLog : streaming.Plain lib.sha256 → ((acquireToArtifact lib outside args streaming).run []).2 =
    ((acquire lib outside args).run []).2
  sameOutcome : streaming.Plain lib.sha256 → SameOutcome lib.sha256 ((acquire lib outside args).run []).1
    ((acquireToArtifact lib outside args streaming).run []).1

/-- The calls of a function after the check of its deadline. -/
theorem run_acquireToArtifact (hdeadline : ∀ seconds ∈ streaming.maxStreamSeconds, 0 < seconds) :
    (acquireToArtifact lib outside args streaming).run log =
      (request lib outside args (streaming.continuationHosts.map (throttleHost lib)) >>= fun result =>
        Proc.query fun log => receiveToArtifact lib args streaming result.1 result.2.1 result.2.2
          (outside.now log)).run log := by
  have hcheck : (check (require (∀ seconds ∈ streaming.maxStreamSeconds, 0 < seconds)
      (.value "max_stream_seconds must be positive"))).run log = (.ok (), log) := by
    rw [require, if_pos hdeadline]
    rfl
  rw [acquireToArtifact, Proc.run_bind_of_ok hcheck]

theorem acquire_eq : acquire lib outside args = request lib outside args [] >>= fun result =>
    Proc.query fun log => receive lib args result.1 result.2.1 result.2.2 (outside.now log) := rfl

/-- The log of the requests of a call. -/
theorem along_request (permittedHosts : List String) :
    Along (Allowed lib outside args permittedHosts) ((request lib outside args permittedHosts).run []).2 :=
  obeys_request.along going_start

theorem along_acquireToArtifact : Along (Allowed lib outside args (streaming.continuationHosts.map
    (throttleHost lib))) ((acquireToArtifact lib outside args streaming).run []).2 := by
  by_cases hdeadline : ∀ seconds ∈ streaming.maxStreamSeconds, 0 < seconds
  · rw [run_acquireToArtifact hdeadline, run_tail]
    exact along_request _
  · have hcheck : (check (require (∀ seconds ∈ streaming.maxStreamSeconds, 0 < seconds)
        (.value "max_stream_seconds must be positive"))).run [] =
          (.error (.release (.value "max_stream_seconds must be positive")), []) := by
      rw [require, if_neg hdeadline]
      rfl
    rw [acquireToArtifact, Proc.run_bind_of_error hcheck]
    exact Along.nil

/-- A call that gets to a page was served it. -/
theorem of_request {permittedHosts : List String} {result : Prepared × String × Response}
    (h : (request lib outside args permittedHosts).run [] = (.ok result, log)) :
    Served lib outside args log result.2.1 result.2.2 ∧ 1 ≤ result.1.maxBytes ∧
      result.1.maxBytes = min args.maxBytes args.policy.artifact.maxBytes := by
  have hspec := (obeys_request [] (@going_start args permittedHosts)).2 result (congrArg Prod.fst h)
  rwa [h] at hspec

/-- What a result of the last step says of its response. -/
theorem of_tail {α : Type} {permittedHosts : List String}
    {f : Prepared × String × Response → Log → Except AcquisitionError α} {a : α}
    (h : ((request lib outside args permittedHosts >>= fun result =>
      Proc.query fun log => f result log).run []).1 = .ok a) :
    ∃ result log, (request lib outside args permittedHosts).run [] = (.ok result, log) ∧
      f result log = .ok a ∧ Served lib outside args log result.2.1 result.2.2 ∧
        1 ≤ result.1.maxBytes ∧
          result.1.maxBytes = min args.maxBytes args.policy.artifact.maxBytes := by
  obtain ⟨result, log, hrequest, htail⟩ := Proc.run_bind_ok.mp (Proc.run_of_fst h)
  exact ⟨result, log, hrequest, congrArg Prod.fst htail, of_request hrequest⟩

end NanFung.Release.Redirects
