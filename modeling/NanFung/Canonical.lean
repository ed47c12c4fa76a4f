import NanFung.Time
import NanFung.Lib.Json
import NanFung.Lib.Proc

/-!
# Canonical JSON, hashes, redaction and identifiers

`ingestion/canonical.py` and the redaction half of `ingestion/policies.py`. What the code takes from
its platform is gathered in `Platform`: SHA-256, Unicode NFC, URL redaction, `str` and `repr` are
arbitrary functions, and `uuid` is the sequence of UUID4 draws. A result that needs more of them
(distinct draws, NFC leaving ASCII alone) says so as a hypothesis.
-/

namespace NanFung

/-- Exceptions of the store and of the helpers it calls. -/
inductive StoreError where
  | operational (message : String)
  | registry (message : String)
  | canonicalization (message : String)
  | refreshAccess (message : String)
  | refreshReplay (message : String)
  | refreshConfirmation (message : String)
  | job (message : String)
  | integrity (message : String)
  | value (message : String)
  | overflow
  deriving DecidableEq, Repr

/-- The functions of the host platform. -/
structure Platform where
  /-- Hex digest of the UTF-8 bytes of a text, given by its characters. -/
  sha256 : List Char → String
  /-- `unicodedata.normalize("NFC", ·)`. -/
  nfc : String → String
  /-- `redact_url`. -/
  redactUrl : String → String
  /-- `str(·)` of a header value. -/
  pyStr : Json → String
  /-- `repr(·)` of a string, as error texts quote it. -/
  pyRepr : String → String
  /-- The hex digits of the `n`-th `uuid4()`. -/
  uuid : Nat → String

namespace Platform

variable (P : Platform)

/-- `new_id(prefix)` for the `n`-th draw. -/
def newId (kind : String) (n : Nat) : String := kind ++ "_" ++ P.uuid n

theorem newId_injective (h : Function.Injective P.uuid) (kind : String) :
    Function.Injective (P.newId kind) := by
  intro m n hmn
  refine h ?_
  have := congrArg String.toList hmn
  simp only [newId, String.toList_append, List.append_cancel_left_eq, String.toList_inj] at this
  exact this

/-! ## Canonical JSON -/

mutual

/-- `normalize_json`: NFC strings, no floats, no keys that collide after normalisation. -/
def normalizeJson : Json → Except StoreError Json
  | .null => .ok .null
  | .bool b => .ok (.bool b)
  | .int i => .ok (.int i)
  | .float _ => .error (.canonicalization
      "floats are not accepted in hash-sensitive canonical JSON; use a decimal string")
  | .str s => .ok (.str (P.nfc s))
  | .arr items => do
    let items ← normalizeItems items
    .ok (.arr items)
  | .obj members => do
    let members ← normalizeMembers [] members
    .ok (.obj members)

def normalizeItems : List Json → Except StoreError (List Json)
  | [] => .ok []
  | x :: xs => do
    let y ← normalizeJson x
    let ys ← normalizeItems xs
    .ok (y :: ys)

/-- The members left to normalise, after the keys `seen`. -/
def normalizeMembers (seen : List String) :
    List (String × Json) → Except StoreError (List (String × Json))
  | [] => .ok []
  | (k, x) :: xs => do
    require (P.nfc k ∉ seen) (.canonicalization
      ("duplicate object key after Unicode normalization: " ++ P.pyRepr (P.nfc k)))
    let y ← normalizeJson x
    let ys ← normalizeMembers (P.nfc k :: seen) xs
    .ok ((P.nfc k, y) :: ys)

end

/-- `canonical_json`. -/
def canonicalJson (v : Json) : Except StoreError (List Char) := do
  let v ← P.normalizeJson v
  .ok v.render

/-- `hash_canonical(domain, value)`. -/
def hashCanonical (domain : String) (v : Json) : Except StoreError String := do
  let text ← P.canonicalJson v
  .ok (P.sha256 (("nan-fung/" ++ domain ++ "/v1\x00").toList ++ text))

def requestHash (v : Json) : Except StoreError String := P.hashCanonical "request" v

def locatorHash (v : Json) : Except StoreError String := P.hashCanonical "locator" v

/-- `record_key_hash`: the key is hashed with its datasource and key version. -/
def recordKeyHash (datasourceId recordKeyVersion : String) (recordKey : List String) :
    Except StoreError String := do
  require (datasourceId ≠ "") (.canonicalization "datasource_id is required")
  require (recordKeyVersion ≠ "") (.canonicalization "record_key_version is required")
  let key ← P.canonicalJson (.arr (recordKey.map .str))
  .ok (P.sha256 (("nan-fung/record-key/v1\x00" ++ datasourceId ++ "\x00" ++ recordKeyVersion ++
    "\x00").toList ++ key))

/-- The envelope `observation_hash` covers; columns the store never passes are `null`. -/
structure Envelope where
  datasourceId : String
  definitionVersion : Nat
  recordType : String
  schemaVersion : String
  revisionAction : String
  recordKey : Json
  payload : Json
  sourceDate : Option String
  periodLabel : Option String
  unit : Option String
  dataKind : String
  confidence : String
  snapshotScopeHash : Option String
  definition : Option String
  limitations : Json

/-- `None` or a string. -/
def optStr : Option String → Json
  | some s => .str s
  | none => .null

/-- `observation_hash`. -/
def observationHash (e : Envelope) : Except StoreError String :=
  P.hashCanonical "observation" (.obj [
    ("datasource_id", .str e.datasourceId),
    ("definition_version", .int e.definitionVersion),
    ("record_type", .str e.recordType),
    ("schema_version", .str e.schemaVersion),
    ("revision_action", .str e.revisionAction),
    ("record_key", e.recordKey),
    ("payload", e.payload),
    ("source_date", optStr e.sourceDate),
    ("period_start", .null),
    ("period_end", .null),
    ("period_label", optStr e.periodLabel),
    ("geography_code", .null),
    ("geography_name", .null),
    ("unit", optStr e.unit),
    ("data_kind", .str e.dataKind),
    ("confidence", .str e.confidence),
    ("snapshot_scope_hash", optStr e.snapshotScopeHash),
    ("definition", optStr e.definition),
    ("limitations", e.limitations)])

/-! ## Members of a normalised object -/

variable {P}

/-- No key of a normalised object was seen before. -/
theorem normalizeMembers_unseen {seen : List String} {ms ms' : List (String × Json)}
    (h : P.normalizeMembers seen ms = .ok ms') {m : String × Json} (hm : m ∈ ms) :
    P.nfc m.1 ∉ seen := by
  induction ms generalizing seen ms' with
  | nil => exact nomatch hm
  | cons n ms ih =>
    simp only [normalizeMembers, bind_ok, require_ok] at h
    obtain ⟨-, hunseen, -, -, ms₁, hms, -⟩ := h
    rcases List.mem_cons.mp hm with rfl | hm
    · exact hunseen
    · exact fun hseen => ih hms hm (List.mem_cons_of_mem _ hseen)

/-- A key that is its own normal form keeps its value, normalised. -/
theorem lookup_normalizeMembers {seen : List String} {ms ms' : List (String × Json)} {key : String}
    {v : Json} (h : P.normalizeMembers seen ms = .ok ms') (hkey : P.nfc key = key)
    (hv : Json.lookup key ms = some v) :
    ∃ v', P.normalizeJson v = .ok v' ∧ Json.lookup key ms' = some v' := by
  induction ms generalizing seen ms' with
  | nil => exact nomatch hv
  | cons n ms ih =>
    simp only [normalizeMembers, bind_ok, require_ok, Except.ok.injEq] at h
    obtain ⟨-, -, y, hy, ms₁, hms, rfl⟩ := h
    rw [Json.lookup_cons] at hv ⊢
    split at hv
    · next hn =>
      cases hv
      exact ⟨y, hy, if_pos ((congrArg P.nfc hn).trans hkey)⟩
    · -- a key that normalises to this one would make two of them
      have hne : P.nfc n.1 ≠ key := fun heq => by
        obtain ⟨m, hm, -⟩ := Option.map_eq_some_iff.mp hv
        refine normalizeMembers_unseen hms (List.mem_of_find?_eq_some hm) ?_
        have hmkey : m.1 = key := by simpa using List.find?_some hm
        rw [hmkey, hkey, heq]
        exact List.mem_cons_self
      rw [if_neg hne]
      exact ih hms hv

end Platform

/-! ## Redaction -/

/-- Simple case folding as `re.IGNORECASE` applies it to the letters of the pattern. -/
def foldChar (c : Char) : Char :=
  if c.toNat = 0x17f then 's'
  else if c.toNat = 0x212a then 'k'
  else if c.toNat = 0x130 ∨ c.toNat = 0x131 then 'i'
  else c.toLower

/-- The alternatives of `_SENSITIVE_KEY`; the longer ones of the source contain one of these. -/
def sensitiveWords : List String :=
  ["authorization", "cookie", "apikey", "api_key", "api-key", "token", "secret", "signature",
    "password", "passwd", "credential"]

/-- `_SENSITIVE_KEY.search(key)`. -/
def sensitiveKey (key : String) : Bool :=
  let folded := key.toList.map foldChar
  sensitiveWords.any fun w => folded.tails.any fun t => w.toList.isPrefixOf t

/-- `_SAFE_PERSISTED_HEADERS`. -/
def safePersistedHeaders : List String :=
  ["accept", "content-length", "content-type", "etag", "if-modified-since", "if-none-match",
    "last-modified", "location", "range", "retry-after", "user-agent"]

def redactedValue : Json := .str "<redacted>"

/-- ASCII part of `str.lower`; the lists it is compared with are ASCII. -/
def lower (s : String) : String := String.ofList (s.toList.map Char.toLower)

namespace Platform

variable (P : Platform)

/-- `redact_headers` on the members of a header mapping. -/
def redactHeaders : List (String × Json) → List (String × Json)
  | [] => []
  | (k, v) :: hs =>
    if lower k ∈ safePersistedHeaders then
      (k, if sensitiveKey k then redactedValue else .str (P.pyStr v)) :: redactHeaders hs
    else redactHeaders hs

mutual

/-- `redact_secrets`. -/
def redactSecrets : Json → Json
  | .arr items => .arr (redactItems items)
  | .obj members => .obj (redactMembers members)
  | v => v

def redactItems : List Json → List Json
  | [] => []
  | x :: xs => redactSecrets x :: redactItems xs

def redactMembers : List (String × Json) → List (String × Json)
  | [] => []
  | (k, x) :: xs => (k, redactMember k x) :: redactMembers xs

/-- The value kept under one key. -/
def redactMember (k : String) : Json → Json
  | .str s =>
    if sensitiveKey k then redactedValue
    else if lower k ∈ ["url", "source_url", "final_url", "base_url"] then .str (P.redactUrl s)
    else .str s
  | .obj members =>
    if sensitiveKey k then redactedValue
    else if lower k = "headers" then .obj (P.redactHeaders members)
    else .obj (redactMembers members)
  | .arr items => if sensitiveKey k then redactedValue else .arr (redactItems items)
  | v => if sensitiveKey k then redactedValue else v

end

theorem lookup_redactMembers {P : Platform} {ms : List (String × Json)} {key : String} :
    Json.lookup key (P.redactMembers ms) = (Json.lookup key ms).map (P.redactMember key) := by
  induction ms with
  | nil => rfl
  | cons m ms ih =>
    rw [redactMembers, Json.lookup_cons, Json.lookup_cons, ih]
    split
    · next h => rw [← h]; rfl
    · rfl

end Platform

end NanFung
