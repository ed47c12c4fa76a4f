import NanFung.Store.Refresh

/-!
# Host approvals

A refresh that needs a confirmation is bound to an approval: the immutable row holds the request as it
was asked for but not its token, and the decisions of the host about it are appended as events. The
tables are those of `0008_agent_tool_approval.sql`, with their constraints and triggers; a JSON column
holds the value that its text stands for.
-/

namespace NanFung

/-- What the approval methods raise. -/
inductive ApprovalError where
  /-- An exception of the store that is no `RefreshApprovalError`. -/
  | store (error : StoreError)
  /-- `RefreshApprovalError` -/
  | approval (message : String)
  /-- `RefreshApprovalAccessError` -/
  | access (message : String)
  /-- `RefreshApprovalExpiredError` -/
  | expired (message : String)
  /-- `RefreshApprovalReplayError` -/
  | replay (message : String)
  /-- `ApprovalDecisionConflictError` -/
  | conflict (message : String)
  deriving DecidableEq

/-- An exception of the store leaves an approval method as it is. -/
def liftStore {α : Type} : Except StoreError α → Except ApprovalError α
  | .ok a => .ok a
  | .error e => .error (.store e)

@[simp] theorem liftStore_ok {α : Type} {x : Except StoreError α} {a : α} :
    liftStore x = .ok a ↔ x = .ok a := by
  cases x <;> simp [liftStore]

/-- `_require_agent_approval_identifier` -/
def requireAgentApprovalIdentifier (name value : String) : Except ApprovalError Unit :=
  require (value ≠ "" ∧ value.length ≤ 256)
    (.approval (name ++ " must be a non-empty string of at most 256 characters"))

/-! ## Snapshots -/

/-- The snapshot of a request, as `_agent_refresh_snapshot` returns it. -/
structure RefreshSnapshot where
  datasourceId : String
  requestProfile : String
  boundedScope : List (String × List String)
  intent : String
  deriving DecidableEq

/-- An argument of `_require_agent_approval_identifier` that may be no string. -/
def approvalText (name : String) (value : Json) : Except ApprovalError String := do
  let text ← orThrow value.asStr?
    (.approval (name ++ " must be a non-empty string of at most 256 characters"))
  requireAgentApprovalIdentifier name text
  .ok text

/-- The values of one key of a scope: a string, or a list of strings. -/
def scopeValues : Json → Except ApprovalError (List String)
  | .str s => .ok [s]
  | .arr items => orThrow (items.mapM Json.asStr?)
      (.approval "approval scope values must contain strings")
  | _ => .error (.approval "approval scope values must contain strings")

/-- The scope from a member on, after so many values. -/
def normalizedScope (total : Nat) :
    List (String × Json) → Except ApprovalError (List (String × List String))
  | [] => .ok []
  | (key, raw) :: rest => do
    requireAgentApprovalIdentifier "approval scope key" key
    let values ← scopeValues raw
    require (values ≠ [] ∧ values.length ≤ 100) (.approval "approval scope values are invalid")
    require (∀ v ∈ values, v ≠ "" ∧ v.length ≤ 256) (.approval "approval scope values are invalid")
    require (total + values.length ≤ 100) (.approval "approval scope has too many values")
    let rest ← normalizedScope (total + values.length) rest
    .ok ((key, values) :: rest)

/-- The members of a scope, which is a mapping of at most a hundred. -/
def scopeMapping : Json → Except ApprovalError (List (String × Json))
  | .obj members => do
    require (members.length ≤ 100) (.approval "approval scope must be a bounded mapping")
    .ok members
  | _ => .error (.approval "approval scope must be a bounded mapping")

/-- `_agent_refresh_snapshot` -/
def agentRefreshSnapshot (datasourceId requestProfile boundedScope intent : Json) :
    Except ApprovalError RefreshSnapshot := do
  let datasourceId ← approvalText "datasource_id" datasourceId
  let requestProfile ← approvalText "request_profile" requestProfile
  let intent ← orThrow (intent.asStr?.filter fun s => s ≠ "" ∧ s.length ≤ 240)
    (.approval "approval intent must be between 1 and 240 characters")
  let members ← scopeMapping boundedScope
  let scope ← normalizedScope 0 members
  .ok { datasourceId, requestProfile, intent
        boundedScope := scope.insertionSort fun a b => a.1 ≤ b.1 }

/-- The snapshot as JSON. -/
def RefreshSnapshot.json (s : RefreshSnapshot) : Json := .obj [
  ("datasource_id", .str s.datasourceId),
  ("request_profile", .str s.requestProfile),
  ("bounded_scope", .obj (s.boundedScope.map fun m => (m.1, .arr (m.2.map .str)))),
  ("intent", .str s.intent)]

/-- The keys that a stored snapshot must have. -/
def snapshotKeys : List String := ["datasource_id", "request_profile", "bounded_scope", "intent"]

section

variable (P : Platform)

/-- `_agent_refresh_snapshot_fingerprint` -/
def snapshotFingerprint (s : RefreshSnapshot) : Except ApprovalError String := do
  let text ← liftStore (P.canonicalJson s.json)
  .ok (P.sha256 text)

/-! ## Tables -/

/-- A row of `agent_refresh_approval`. -/
structure ApprovalRow where
  approvalId : String
  refreshRequestId : String
  principal : String
  capabilityScopeId : String
  capabilityId : String
  manifestVersion : String
  profileVersion : String
  requestFingerprint : String
  requestSnapshot : Json
  issuedAt : Time
  expiresAt : Time
  deriving DecidableEq

inductive ApprovalEventType where
  | decision
  | replay
  deriving DecidableEq, Repr

inductive ApprovalDecision where
  | approve
  | deny
  deriving DecidableEq, Repr

/-- The decision that a host names. -/
def ApprovalDecision.read (text : String) : Except ApprovalError ApprovalDecision :=
  if text = "approve" then .ok .approve
  else if text = "deny" then .ok .deny
  else .error (.approval "approval decision must be approve or deny")

/-- A row of `agent_refresh_approval_event`; its actor is the host. -/
structure ApprovalEventRow where
  eventId : String
  approvalId : String
  eventSeq : Nat
  eventType : ApprovalEventType
  decision : ApprovalDecision
  actorId : String
  details : Json
  createdAt : Time
  deriving DecidableEq

/-- The part of the database that approvals read and write. -/
structure ApprovalStore where
  /-- `_is_initialized()` -/
  initialized : Bool := false
  confirmations : List RefreshConfirmationRow := []
  approvals : List ApprovalRow := []
  events : List ApprovalEventRow := []
  /-- How many identifiers have been drawn. -/
  drawn : Nat := 0
  deriving DecidableEq

namespace ApprovalStore

variable (s : ApprovalStore)

/-- The events of an approval. -/
def eventsOf (approvalId : String) : List ApprovalEventRow :=
  s.events.filter fun e => e.approvalId = approvalId

/-- `COALESCE(MAX(event_seq), 0)` -/
def lastSeq (approvalId : String) : Nat :=
  ((s.eventsOf approvalId).map (·.eventSeq)).foldr max 0

/-- The decision of an approval. -/
def prior (approvalId : String) : Option ApprovalEventRow :=
  s.events.find? fun e => e.approvalId = approvalId ∧ e.eventType = .decision

/-- `INSERT INTO agent_refresh_approval` -/
def insertApproval (row : ApprovalRow) : Except ApprovalError ApprovalStore := do
  require (∀ a ∈ s.approvals, a.approvalId ≠ row.approvalId)
    (.store (.integrity "UNIQUE constraint failed: agent_refresh_approval.approval_id"))
  require (∀ a ∈ s.approvals, a.refreshRequestId ≠ row.refreshRequestId)
    (.store (.integrity "UNIQUE constraint failed: agent_refresh_approval.refresh_request_id"))
  require (row.requestFingerprint.length = 64)
    (.store (.integrity "CHECK constraint failed: length(request_fingerprint) = 64"))
  require (row.issuedAt < row.expiresAt)
    (.store (.integrity "CHECK constraint failed: expires_at > issued_at"))
  require (∃ c ∈ s.confirmations, c.requestId = row.refreshRequestId)
    (.store (.integrity "FOREIGN KEY constraint failed"))
  .ok { s with approvals := s.approvals ++ [row] }

/-- `INSERT INTO agent_refresh_approval_event`, behind its three triggers. -/
def insertEvent (row : ApprovalEventRow) : Except ApprovalError ApprovalStore := do
  require (row.eventSeq = s.lastSeq row.approvalId + 1)
    (.store (.integrity "AGENT_REFRESH_APPROVAL_EVENT_SEQUENCE_INVALID"))
  require (row.eventType = .decision → s.prior row.approvalId = none)
    (.store (.integrity "AGENT_REFRESH_APPROVAL_ALREADY_DECIDED"))
  require (row.eventType = .replay → ∃ e ∈ s.events, e.approvalId = row.approvalId ∧
      e.eventType = .decision ∧ e.decision = row.decision)
    (.store (.integrity "AGENT_REFRESH_APPROVAL_REPLAY_MISMATCH"))
  require (∀ e ∈ s.events, e.eventId ≠ row.eventId)
    (.store (.integrity "UNIQUE constraint failed: agent_refresh_approval_event.event_id"))
  require (0 < row.eventSeq) (.store (.integrity "CHECK constraint failed: event_seq > 0"))
  require (∀ e ∈ s.events, e.approvalId = row.approvalId → e.eventSeq ≠ row.eventSeq)
    (.store (.integrity ("UNIQUE constraint failed: agent_refresh_approval_event.approval_id, " ++
      "agent_refresh_approval_event.event_seq")))
  require (∃ a ∈ s.approvals, a.approvalId = row.approvalId)
    (.store (.integrity "FOREIGN KEY constraint failed"))
  .ok { s with events := s.events ++ [row] }

end ApprovalStore

/-! ## Approvals -/

/-- `AgentRefreshApproval` -/
structure AgentRefreshApproval where
  approvalId : String
  refreshRequestId : String
  principal : String
  capabilityScopeId : String
  capabilityId : String
  manifestVersion : String
  profileVersion : String
  requestFingerprint : String
  snapshot : RefreshSnapshot
  issuedAt : Time
  expiresAt : Time
  deriving DecidableEq

/-- `AgentRefreshApprovalDecision`; `replayed` is its outcome. -/
structure AgentRefreshApprovalDecision where
  approvalId : String
  eventId : String
  decision : ApprovalDecision
  replayed : Bool
  decidedAt : Time
  deriving DecidableEq

/-- What the host passes with an approval, to be compared with it. -/
structure ApprovalIdentity where
  principal : String
  capabilityScopeId : String
  capabilityId : String
  manifestVersion : String
  profileVersion : String
  requestFingerprint : String
  deriving DecidableEq

/-- The checks of an identity before the store is read. -/
def ApprovalIdentity.validate (i : ApprovalIdentity) : Except ApprovalError Unit := do
  liftStore (requireRefreshIdentifier "principal" i.principal)
  requireAgentApprovalIdentifier "capability_scope_id" i.capabilityScopeId
  requireAgentApprovalIdentifier "capability_id" i.capabilityId
  requireAgentApprovalIdentifier "manifest_version" i.manifestVersion
  requireAgentApprovalIdentifier "profile_version" i.profileVersion
  liftStore (requireRefreshDigest "request_fingerprint" i.requestFingerprint)

/-- The identity of a row. -/
def ApprovalRow.identity (row : ApprovalRow) : ApprovalIdentity :=
  ⟨row.principal, row.capabilityScopeId, row.capabilityId, row.manifestVersion, row.profileVersion,
    row.requestFingerprint⟩

/-- The snapshot of a stored value. -/
def storedSnapshot : Json → Except ApprovalError RefreshSnapshot
  | .obj members => do
    require (members.map Prod.fst ⊆ snapshotKeys ∧ snapshotKeys ⊆ members.map Prod.fst)
      (.approval "durable approval snapshot is invalid")
    let member (key : String) := (Json.lookup key members).getD .null
    agentRefreshSnapshot (member "datasource_id") (member "request_profile") (member "bounded_scope")
      (member "intent")
  | _ => .error (.approval "durable approval snapshot is invalid")

/-- `_agent_refresh_approval_from_row` -/
def agentRefreshApprovalFromRow (row : ApprovalRow) : Except ApprovalError AgentRefreshApproval := do
  let snapshot ← storedSnapshot row.requestSnapshot
  requireAgentApprovalIdentifier "approval_id" row.approvalId
  liftStore (requireRefreshIdentifier "refresh_request_id" row.refreshRequestId)
  row.identity.validate
  let fingerprint ← snapshotFingerprint P snapshot
  require (fingerprint = row.requestFingerprint)
    (.replay "durable approval snapshot fingerprint is invalid")
  .ok { approvalId := row.approvalId, refreshRequestId := row.refreshRequestId,
        principal := row.principal, capabilityScopeId := row.capabilityScopeId,
        capabilityId := row.capabilityId, manifestVersion := row.manifestVersion,
        profileVersion := row.profileVersion, requestFingerprint := row.requestFingerprint,
        snapshot, issuedAt := row.issuedAt, expiresAt := row.expiresAt }

/-- `_validate_agent_refresh_approval` -/
def validateAgentRefreshApproval (approval : AgentRefreshApproval) (i : ApprovalIdentity) (now : Time) :
    Except ApprovalError Unit := do
  require (approval.principal = i.principal ∧ approval.capabilityScopeId = i.capabilityScopeId)
    (.access "approval is not available to this host context")
  require (approval.capabilityId = i.capabilityId ∧ approval.manifestVersion = i.manifestVersion ∧
      approval.profileVersion = i.profileVersion ∧
      approval.requestFingerprint = i.requestFingerprint)
    (.replay "approval policy or request identity changed")
  require (now < approval.expiresAt) (.expired "approval expired; create a new refresh request")

/-- `_validate_approval_confirmation` -/
def validateApprovalConfirmation (c : RefreshConfirmationRow)
    (principal requestFingerprint datasourceId : String) (now : Time) : Except ApprovalError Unit := do
  require (c.principal = principal ∧ c.requestFingerprint = requestFingerprint ∧
      c.datasourceId = datasourceId) (.replay "refresh confirmation identity changed")
  require (now < c.expiresAt) (.expired "approval expired; create a new refresh request")

/-! ## The methods -/

/-- The arguments of `create_agent_refresh_approval`; the scope is a mapping. -/
structure ApprovalArgs where
  refreshRequestId : String
  identity : ApprovalIdentity
  datasourceId : String
  requestProfile : String
  boundedScope : List (String × Json)
  intent : String
  scope_nodup : (boundedScope.map Prod.fst).Nodup

/-- The row that an approval is stored in. -/
def AgentRefreshApproval.row (a : AgentRefreshApproval) (snapshot : Json) : ApprovalRow :=
  ⟨a.approvalId, a.refreshRequestId, a.principal, a.capabilityScopeId, a.capabilityId,
    a.manifestVersion, a.profileVersion, a.requestFingerprint, snapshot, a.issuedAt, a.expiresAt⟩

/-- The snapshot of the arguments, if its fingerprint is the one that is passed. -/
def requestedSnapshot (args : ApprovalArgs) : Except ApprovalError RefreshSnapshot := do
  liftStore (requireRefreshIdentifier "refresh_request_id" args.refreshRequestId)
  args.identity.validate
  let snapshot ← agentRefreshSnapshot (.str args.datasourceId) (.str args.requestProfile)
    (.obj args.boundedScope) (.str args.intent)
  let fingerprint ← snapshotFingerprint P snapshot
  require (fingerprint = args.identity.requestFingerprint)
    (.replay "approval snapshot does not match the durable refresh request")
  .ok snapshot

/-- `create_agent_refresh_approval` -/
def createAgentRefreshApproval (args : ApprovalArgs) (now : Time) (s : ApprovalStore) :
    Except ApprovalError (AgentRefreshApproval × ApprovalStore) := do
  let snapshot ← requestedSnapshot P args
  require (s.initialized = true) (.approval "refresh confirmation is not available")
  let confirmation ← orThrow (s.confirmations.find? fun c => c.requestId = args.refreshRequestId)
    (.approval "refresh confirmation is not available")
  validateApprovalConfirmation confirmation args.identity.principal args.identity.requestFingerprint
    args.datasourceId now
  match s.approvals.find? fun a => a.refreshRequestId = args.refreshRequestId with
  | some row => do
    let approval ← agentRefreshApprovalFromRow P row
    validateAgentRefreshApproval approval args.identity now
    .ok (approval, s)
  | none => do
    let approval : AgentRefreshApproval :=
      { approvalId := P.newId "approval" s.drawn
        refreshRequestId := args.refreshRequestId
        principal := args.identity.principal
        capabilityScopeId := args.identity.capabilityScopeId
        capabilityId := args.identity.capabilityId
        manifestVersion := args.identity.manifestVersion
        profileVersion := args.identity.profileVersion
        requestFingerprint := args.identity.requestFingerprint
        snapshot
        issuedAt := confirmation.issuedAt
        expiresAt := confirmation.expiresAt }
    let value ← liftStore (P.normalizeJson snapshot.json)
    let s ← s.insertApproval (approval.row value)
    .ok (approval, { s with drawn := s.drawn + 1 })

/-- The row of an approval, for a host. -/
def approvalRow (approvalId : String) (s : ApprovalStore) : Except ApprovalError ApprovalRow := do
  require (s.initialized = true) (.access "approval is not available to this host context")
  orThrow (s.approvals.find? fun a => a.approvalId = approvalId)
    (.access "approval is not available to this host context")

/-- `lookup_agent_refresh_approval` -/
def lookupAgentRefreshApproval (approvalId : String) (now : Time) (s : ApprovalStore) :
    Except ApprovalError AgentRefreshApproval := do
  requireAgentApprovalIdentifier "approval_id" approvalId
  let row ← approvalRow approvalId s
  let approval ← agentRefreshApprovalFromRow P row
  require (now < approval.expiresAt) (.expired "approval has expired")
  .ok approval

/-- `decide_agent_refresh_approval` -/
def decideAgentRefreshApproval (approvalId decision : String)
    (i : ApprovalIdentity) (actorId : String) (now : Time) (s : ApprovalStore) :
    Except ApprovalError (AgentRefreshApprovalDecision × ApprovalStore) := do
  requireAgentApprovalIdentifier "approval_id" approvalId
  let decision ← ApprovalDecision.read decision
  i.validate
  requireAgentApprovalIdentifier "actor_id" actorId
  let row ← approvalRow approvalId s
  let approval ← agentRefreshApprovalFromRow P row
  validateAgentRefreshApproval approval i now
  let prior := s.prior approvalId
  require (∀ e ∈ prior, e.decision = decision)
    (.conflict "approval already has a conflicting immutable decision")
  let eventId := P.newId "approval_event" s.drawn
  let s ← s.insertEvent {
    eventId, approvalId
    eventSeq := s.lastSeq approvalId + 1
    eventType := if prior.isSome then .replay else .decision
    decision, actorId
    details := .obj [("refresh_request_id", .str approval.refreshRequestId)]
    createdAt := now }
  .ok (⟨approvalId, eventId, decision, prior.isSome, now⟩, { s with drawn := s.drawn + 1 })

/-- `recover_agent_refresh_approval`: the approval and its token. -/
def recoverAgentRefreshApproval (approvalId : String) (i : ApprovalIdentity) (now : Time)
    (s : ApprovalStore) : Except ApprovalError (AgentRefreshApproval × String) := do
  requireAgentApprovalIdentifier "approval_id" approvalId
  i.validate
  let row ← approvalRow approvalId s
  let confirmation ← orThrow (s.confirmations.find? fun c => c.requestId = row.refreshRequestId)
    (.access "approval is not available to this host context")
  let approval ← agentRefreshApprovalFromRow P row
  validateAgentRefreshApproval approval i now
  validateApprovalConfirmation confirmation approval.principal approval.requestFingerprint
    approval.snapshot.datasourceId now
  require (confirmation.issuedAt = approval.issuedAt ∧ confirmation.expiresAt = approval.expiresAt)
    (.replay "approval confirmation metadata changed")
  liftStore (requireOptionalRefreshConfirmationToken (some confirmation.confirmationToken))
  .ok (approval, confirmation.confirmationToken)

end

end NanFung
