import NanFung.Spec.Refresh

/-!
# The control metadata of a refresh job

`submit_agent_refresh` stores who asked for what inside the request of the job it enqueues. On its way
into the database the request is redacted and normalised; the metadata survives, except that its
texts are brought into NFC. Where they are in NFC already, `_refresh_control` reads back exactly what
was submitted.
-/

namespace NanFung

variable {env : Env}

/-! ## ASCII texts -/

/-- A text of ASCII characters. -/
def Ascii (s : String) : Prop := ∀ c ∈ s.toList, c.toNat < 128

instance (s : String) : Decidable (Ascii s) :=
  decidable_of_iff (s.toList.all fun c => decide (c.toNat < 128)) (by simp [Ascii])

/-- NFC leaves ASCII texts alone. -/
def Platform.NfcAscii (P : Platform) : Prop := ∀ s, Ascii s → P.nfc s = s

theorem ascii_isoformat (t : Time) : Ascii (isoformat t) := by
  intro c hc
  rw [isoformat, String.toList_ofList] at hc
  rcases FixedWidth.mem_render hc with hdigit | hsep
  · unfold FixedWidth.digitVal at hdigit
    split at hdigit
    · next h => omega
    · cases hdigit
  · have hseps : (isoLayout.map Prod.snd).all fun d => decide (d.toNat < 128) := by decide +kernel
    simpa using List.all_eq_true.mp hseps c hsep

theorem isoformat_ne_empty (t : Time) : isoformat t ≠ "" := fun h => by
  have hread := fromIsoformat_isoformat t
  rw [h] at hread
  exact nomatch hread

theorem ascii_of_isDigest {s : String} (h : isDigest s = true) : Ascii s := by
  simp only [isDigest, decide_eq_true_eq, List.all_eq_true] at h
  have hhex : Ascii "0123456789abcdef" := by decide +kernel
  exact fun c hc => hhex c (by simpa using h.2 c hc)

theorem ne_empty_of_isDigest {s : String} (h : isDigest s = true) : s ≠ "" := by
  rintro rfl
  exact absurd h (by decide +kernel)

/-! ## What is stored -/

/-- The metadata of a submission. -/
def RefreshArgs.control (args : RefreshArgs) : RefreshControl where
  principal := args.principal
  requestFingerprint := args.requestFingerprint
  dedupeKey := args.dedupeKey
  submittedAt := args.submittedAt
  cooldownUntil := args.cooldownUntil
  initialState := "queued"

/-- The checks a submission passes. -/
structure RefreshArgs.Valid (args : RefreshArgs) : Prop where
  principal : args.principal ≠ "" ∧ args.principal.length ≤ 256
  requestFingerprint : isDigest args.requestFingerprint = true
  dedupeKey : isDigest args.dedupeKey = true
  cooldown : args.submittedAt ≤ args.cooldownUntil

theorem validateRefreshArgs_ok {args : RefreshArgs} (h : validateRefreshArgs args = .ok ()) :
    args.Valid := by
  simp only [validateRefreshArgs, requireRefreshIdentifier, requireRefreshDigest,
    requireOptionalRefreshConfirmationToken, bind_ok, require_ok] at h
  obtain ⟨-, -, -, hprincipal, -, hfingerprint, -, hdedupe, -, -, -, -, -, -, hcooldown⟩ := h
  exact ⟨hprincipal, hfingerprint, hdedupe, hcooldown⟩

/-- The control object with its texts in NFC. -/
def storedControl (P : Platform) (args : RefreshArgs) : Json := .obj [
  ("principal", .str (P.nfc args.principal)),
  ("request_fingerprint", .str args.requestFingerprint),
  ("dedupe_key", .str args.dedupeKey),
  ("submitted_at", .str (isoformat args.submittedAt)),
  ("cooldown_until", .str (isoformat args.cooldownUntil)),
  ("initial_state", .str "queued")]

/-- Redaction keeps the control object. -/
theorem redactMember_control (P : Platform) (args : RefreshArgs) :
    P.redactMember "_refresh_control" (controlJson args) = controlJson args := by
  have hkey : sensitiveKey "_refresh_control" = false ∧ lower "_refresh_control" ≠ "headers" := by
    decide +kernel
  have hplain : ∀ k ∈ ["principal", "request_fingerprint", "dedupe_key", "submitted_at",
      "cooldown_until", "initial_state"], sensitiveKey k = false ∧
        lower k ∉ ["url", "source_url", "final_url", "base_url"] := by decide +kernel
  simp only [controlJson, Platform.redactMember, hkey, Platform.redactMembers, if_false,
    Bool.false_eq_true]
  simp only [hplain _ (by simp : "principal" ∈ _), hplain _ (by simp : "request_fingerprint" ∈ _),
    hplain _ (by simp : "dedupe_key" ∈ _), hplain _ (by simp : "submitted_at" ∈ _),
    hplain _ (by simp : "cooldown_until" ∈ _), hplain _ (by simp : "initial_state" ∈ _), if_false,
    Bool.false_eq_true]

/-- Normalisation brings the principal into NFC; the other texts are ASCII. -/
theorem normalizeJson_control (hascii : env.platform.NfcAscii) {args : RefreshArgs}
    (hvalid : args.Valid) {v : Json}
    (h : env.platform.normalizeJson (controlJson args) = .ok v) :
    v = storedControl env.platform args := by
  have hkey : ∀ k ∈ ["principal", "request_fingerprint", "dedupe_key", "submitted_at",
      "cooldown_until", "initial_state", "queued"], env.platform.nfc k = k := fun k hk =>
    hascii k ((by decide +kernel : ∀ k ∈ ["principal", "request_fingerprint", "dedupe_key",
      "submitted_at", "cooldown_until", "initial_state", "queued"], Ascii k) k hk)
  simp only [controlJson, Platform.normalizeJson, Platform.normalizeMembers, bind_ok, require_ok,
    Except.ok.injEq] at h
  obtain ⟨_, ⟨-, -, _, rfl, _, ⟨-, -, _, rfl, _, ⟨-, -, _, rfl, _, ⟨-, -, _, rfl, _, ⟨-, -, _, rfl,
    _, ⟨-, -, _, rfl, _, rfl, rfl⟩, rfl⟩, rfl⟩, rfl⟩, rfl⟩, rfl⟩, rfl⟩ := h
  simp only [storedControl, hascii _ (ascii_of_isDigest hvalid.requestFingerprint),
    hascii _ (ascii_of_isDigest hvalid.dedupeKey), hascii _ (ascii_isoformat _),
    hkey _ (by simp : "principal" ∈ _), hkey _ (by simp : "request_fingerprint" ∈ _),
    hkey _ (by simp : "dedupe_key" ∈ _), hkey _ (by simp : "submitted_at" ∈ _),
    hkey _ (by simp : "cooldown_until" ∈ _), hkey _ (by simp : "initial_state" ∈ _),
    hkey _ (by simp : "queued" ∈ _)]

/-- The stored request of a submission carries its control object in NFC. -/
theorem lookup_storedRequest (hascii : env.platform.NfcAscii) {args : RefreshArgs}
    (hvalid : args.Valid) {definition : DatasourceDefinition} {request : Json}
    (h : env.json (.obj (env.platform.redactMembers (refreshRequestMembers definition args))) =
      .ok request) :
    ∃ members, request = .obj members ∧
      Json.lookup "_refresh_control" members = some (storedControl env.platform args) := by
  have hraw : Json.lookup "_refresh_control" (refreshRequestMembers definition args) =
      some (controlJson args) := by
    simp only [refreshRequestMembers, Json.merge, List.foldl_cons, List.foldl_nil]
    exact Json.lookup_insert_self _ _ _
  have hredacted : Json.lookup "_refresh_control"
      (env.platform.redactMembers (refreshRequestMembers definition args)) =
        some (controlJson args) := by
    rw [Platform.lookup_redactMembers, hraw, Option.map_some, redactMember_control]
  simp only [Env.json, Platform.normalizeJson, bind_ok, Except.ok.injEq] at h
  obtain ⟨members, hmembers, rfl⟩ := h
  obtain ⟨v, hv, hlookup⟩ := Platform.lookup_normalizeMembers hmembers
    (hascii "_refresh_control" (by decide +kernel)) hredacted
  rw [normalizeJson_control hascii hvalid hv] at hlookup
  exact ⟨members, rfl, hlookup⟩

/-- A control object in NFC reads back as the submission it was written for. -/
theorem refreshControl_storedControl {args : RefreshArgs} (hvalid : args.Valid) {P : Platform}
    (hnfc : P.nfc args.principal = args.principal) {members : List (String × Json)}
    (h : Json.lookup "_refresh_control" members = some (storedControl P args)) :
    refreshControl (.obj members) = .ok args.control := by
  have hread : ∀ {key text : String}, Json.get? key (storedControl P args) = some (.str text) →
      text ≠ "" → controlText (storedControl P args) key = .ok text := by
    intro key text hget hne
    simp [controlText, hget, Json.asStr?, hne]
  have htime : ∀ t, parseTimestamp (isoformat t) = .ok t := fun t => by
    simp [parseTimestamp, fromIsoformat_isoformat]
  have hobj : ∃ ms, storedControl P args = .obj ms := ⟨_, rfl⟩
  obtain ⟨ms, hms⟩ := hobj
  simp only [refreshControl, h, hms, bind_ok, Except.ok.injEq, exists_eq_left']
  rw [← hms]
  refine ⟨args.principal, hread ?_ hvalid.principal.1, args.requestFingerprint,
    hread rfl (ne_empty_of_isDigest hvalid.requestFingerprint), args.dedupeKey,
    hread rfl (ne_empty_of_isDigest hvalid.dedupeKey), isoformat args.submittedAt,
    hread rfl (isoformat_ne_empty _), isoformat args.cooldownUntil,
    hread rfl (isoformat_ne_empty _), "queued", hread rfl (by decide +kernel), ?_⟩
  · rw [storedControl, hnfc]
    rfl
  · simp [requireRefreshIdentifier, requireRefreshDigest, hvalid.principal, hvalid.requestFingerprint,
      hvalid.dedupeKey, htime, hvalid.cooldown, RefreshArgs.control]

end NanFung
