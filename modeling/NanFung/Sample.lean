import NanFung.World

/-!
# A small deployment

Two datasources on a toy platform, small enough to evaluate: identifiers are decimal counters, a
digest is a number below a prime, and NFC composes the one accented letter the samples use. The
histories built from it instantiate the theorems about every deployment.
-/

namespace NanFung.Sample

/-! ## Platform -/

/-- NFC on texts whose only decomposed letter is `é`. -/
def composeAcute : List Char → List Char
  | 'e' :: '\u0301' :: cs => 'é' :: composeAcute cs
  | c :: cs => c :: composeAcute cs
  | [] => []

/-- NFC; an ASCII text is its own normal form. -/
def nfc (s : String) : String :=
  if s.toByteArray.data.toList.all (· < 128) then s else String.ofList (composeAcute s.toList)

/-- A digest without collisions among the texts of the samples. -/
def digest (text : List Char) : String :=
  Nat.repr (text.foldl (fun h c => (h * 257 + c.toNat) % 1000000000039) 7)

def platform : Platform where
  sha256 := digest
  nfc := nfc
  redactUrl s := s
  pyStr v := String.ofList v.render
  pyRepr s := "'" ++ s ++ "'"
  uuid n := Nat.repr n

theorem uuid_injective : Function.Injective platform.uuid := by
  intro m n h
  have hdigits : Nat.toDigits 10 m = Nat.toDigits 10 n := by
    have hlists := congrArg String.toList h
    simpa [platform, Nat.repr] using hlists
  rw [← @Nat.ofDigitChars_ten_toDigits m, hdigits, Nat.ofDigitChars_ten_toDigits]

def utc : Zone where
  toLocal t := some t.val
  toUtc wall := if h : wall ≤ maxMicros then some ⟨wall, h⟩ else none

/-! ## Registry -/

theorem oneJob_pos : 1 ≤ 1 := le_rfl

theorem oneJob_le : 1 ≤ 1000 := by decide

/-- A production datasource of full snapshots whose runs an operator promotes. -/
def offices : DatasourceDefinition where
  datasourceId := "uk.offices"
  definitionVersion := 1
  definitionHash := "offices-1"
  definitionJson := .obj []
  category := "offices"
  collectorName := "collect"
  collectorVersion := "1"
  parserName := "parse"
  parserVersion := "1"
  schemaVersion := "offices.v1"
  recordKeyBuilderName := "key"
  recordKeyVersion := "1"
  validatorBindings := []
  sourceBindings := [⟨"uk.register", 1⟩]
  retentionPolicy := "open_official"
  defaultRequest := [("page", .int 1)]
  schedules := []
  snapshotMode := .fullSnapshot
  defaultLane := .productionIngestion
  retryPolicy := .obj []
  artifactPolicy := .obj []
  promotionPolicy := .manualReview
  dataKind := .direct
  defaultConfidence := .high
  accessClass := .open_
  status := .production
  id_ne := by decide
  version_pos := le_rfl
  keyVersion_ne := by decide
  bindings_ne := by decide

/-- A production datasource whose successful runs are promoted at once. -/
def rents : DatasourceDefinition where
  datasourceId := "uk.rents"
  definitionVersion := 1
  definitionHash := "rents-1"
  definitionJson := .obj []
  category := "rents"
  collectorName := "collect"
  collectorVersion := "1"
  parserName := "parse"
  parserVersion := "1"
  schemaVersion := "rents.v1"
  recordKeyBuilderName := "key"
  recordKeyVersion := "1"
  validatorBindings := []
  sourceBindings := [⟨"uk.register", 1⟩]
  retentionPolicy := "open_official"
  defaultRequest := [("page", .int 1)]
  schedules := []
  snapshotMode := .appendOnly
  defaultLane := .productionIngestion
  retryPolicy := .obj []
  artifactPolicy := .obj []
  promotionPolicy := .automatic
  dataKind := .direct
  defaultConfidence := .high
  accessClass := .open_
  status := .production
  id_ne := by decide
  version_pos := le_rfl
  keyVersion_ne := by decide
  bindings_ne := by decide

theorem register_keyed : Table.Keyed (fun s : SourceDefinition => (s.sourceId, s.sourceVersion))
    [⟨"uk.register", 1, ["example.org"]⟩] := by decide

def registry : DatasourceRegistry where
  definitions := [offices, rents]
  sources := [⟨"uk.register", 1, ["example.org"]⟩]
  definitions_keyed := by decide
  hashes_keyed := by decide
  sources_keyed := register_keyed
  bound := by decide

def env : Env where
  platform := platform
  registry := registry
  runtimeBindings := []
  sourceUrlAllowed _ _ _ := true
  publishArtifact _ _ mediaType := .ok ⟨"artifact", mediaType⟩
  submarketAttestation _ attestation := .ok (attestation.getD "")
  submarketMapping _ := .error "not a mapping"
  zoneInfo name := if name = "UTC" then some utc else none
  london := utc
  resolvePath path := path

/-- The `n`-th second of the sample clock. -/
def tick (n : Nat) : Time := Time.ofMicros (n * Time.second)

/-! ## Handles of a history -/

def claimReply : Reply → Option ClaimedJob
  | .claim c => c
  | _ => none

def runReply : Reply → Option RunHandle
  | .run h => some h
  | _ => none

def evidenceReply : Reply → Option PersistedEvidence
  | .evidence e => some e
  | _ => none

theorem returned_claim {w : World} {c : ClaimedJob}
    (h : ∃ r, claimReply r = some c ∧ w.Returned r) : w.Returned (.claim (some c)) := by
  obtain ⟨r, hr, hw⟩ := h
  cases r with
  | claim c' =>
    rw [show c' = some c from hr] at hw
    exact hw
  | _ => exact nomatch hr

theorem returned_run {w : World} {run : RunHandle}
    (h : ∃ r, runReply r = some run ∧ w.Returned r) : w.Returned (.run run) := by
  obtain ⟨r, hr, hw⟩ := h
  cases r with
  | run h' =>
    obtain rfl : h' = run := Option.some.inj hr
    exact hw
  | _ => exact nomatch hr

/-! ## A run from its submission to its promotion -/

/-- A submission claimed by a worker. -/
def claimed : World := World.exec env [
  .enqueue { datasourceId := "uk.rents" } fun _ => tick 1,
  .claimNext "worker" (tick 2) 60]

/-- The worker starts the run it has claimed. -/
def started : World := claimed.callWith env claimReply fun c => .startRun c "worker" (tick 3)

/-- It stores a page. -/
def captured : World :=
  started.callWith env runReply fun run => .persistEvidence run {
    body := .stored ⟨"artifact", none⟩
    request := [("method", .str "GET"), ("url", .str "https://example.org/rents")]
    response := [("final_url", .str "https://example.org/rents"), ("status", .int 200)] } (tick 4)

/-- It records an observation found there. -/
def observed : World :=
  match captured.last runReply with
  | some run => captured.callWith env evidenceReply fun e => .persistObservation run {
      recordKey := ["rent", "E1"]
      payload := [("value", .int 7)]
      recordType := "metric"
      category := "rents"
      evidence := [e] } (tick 5)
  | none => captured

/-- It finishes the run, which promotes it. -/
def promoted : World :=
  observed.callWith env runReply fun run =>
    .finishRun run { status := .succeeded, promote := true } (tick 6)

theorem claimed_reachable : Reachable env anyCall claimed :=
  Continues.refl.calls (by simp [Op.Held, anyCall])

theorem started_reachable : Reachable env anyCall started :=
  claimed_reachable.callWith fun _ h => ⟨returned_claim h, trivial⟩

theorem captured_reachable : Reachable env anyCall captured :=
  started_reachable.callWith fun _ h => ⟨returned_run h, trivial⟩

theorem observed_reachable : Reachable env anyCall observed := by
  unfold observed
  split
  · next run hrun =>
    exact captured_reachable.callWith fun _ _ => ⟨returned_run (World.returned_last hrun), trivial⟩
  · exact captured_reachable

theorem promoted_reachable : Reachable env anyCall promoted :=
  observed_reachable.callWith fun _ h => ⟨returned_run h, trivial⟩

example : promoted.db.promotions.map (·.decision) = [.approved] ∧
    promoted.db.heads.map (·.revisionNo) = [1] := by decide +kernel

/-! ## Refresh requests -/

/-- The datasource with a daily budget. -/
def onspd : DatasourceDefinition where
  datasourceId := "ons.onspd.postcode"
  definitionVersion := 1
  definitionHash := "onspd-1"
  definitionJson := .obj []
  category := "geography"
  collectorName := "collect"
  collectorVersion := "1"
  parserName := "parse"
  parserVersion := "1"
  schemaVersion := "onspd.v1"
  recordKeyBuilderName := "key"
  recordKeyVersion := "1"
  validatorBindings := []
  sourceBindings := [⟨"ons.register", 1⟩]
  retentionPolicy := "open_official"
  defaultRequest := []
  schedules := []
  snapshotMode := .appendOnly
  defaultLane := .productionIngestion
  retryPolicy := .obj []
  artifactPolicy := .obj []
  promotionPolicy := .automatic
  dataKind := .direct
  defaultConfidence := .high
  accessClass := .open_
  status := .production
  id_ne := by decide
  version_pos := le_rfl
  keyVersion_ne := by decide
  bindings_ne := by decide

/-- A deployment that answers refresh requests only. -/
def refreshEnv : Env := { env with
  registry := {
    definitions := [onspd]
    sources := [⟨"ons.register", 1, ["example.org"]⟩]
    definitions_keyed := by decide
    hashes_keyed := by decide
    sources_keyed := by decide
    bound := by decide } }

/-- A text of the form of a digest. -/
def zeros : String := "0000000000000000000000000000000000000000000000000000000000000000"

/-- A request for the postcodes, made at the first second and cooling down until the tenth. -/
def refreshArgs (requestId principal : String) : RefreshArgs where
  requestId
  principal
  requestFingerprint := zeros
  dedupeKey := zeros
  datasourceId := "ons.onspd.postcode"
  definitionVersion := 1
  requestProfile := "postcode"
  lane := "production_ingestion"
  boundedScope := []
  intent := "lookup"
  submittedAt := tick 1
  cooldownUntil := tick 10

end NanFung.Sample
