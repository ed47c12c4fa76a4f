import NanFung.ApprovalSnapshots
import NanFung.Lib.Raises
import NanFung.Lib.Register
import NanFung.Sample

/-!
# Decisions about approvals

Confirmations, approvals and decisions in any order, by any hosts. The events of an approval are one
decision and then replays of it, so an approval is a write-once register; no constraint or trigger of
the tables ever fires, and an approval stays what it was until it expires.
-/

namespace NanFung

open Table

variable {P : Platform} {s t : ApprovalStore} {args : ApprovalArgs} {i : ApprovalIdentity} {now : Time}
  {approvalId decision actorId : String}

/-! ## Histories -/

/-- Events numbered from one, the first a decision and the others replays of it. -/
def DecisionLog (events : List ApprovalEventRow) : Prop :=
  ∀ n e, events[n]? = some e → e.eventSeq = n + 1 ∧ (e.eventType = .decision ↔ n = 0) ∧
    ∀ f ∈ events, f.decision = e.decision

theorem decisionLog_nil : DecisionLog [] := by
  intro n e h
  cases h

namespace DecisionLog

variable {events : List ApprovalEventRow} {e : ApprovalEventRow}

/-- The decision is the first event. -/
theorem find?_decision (h : DecisionLog events) :
    events.find? (fun e => e.eventType = .decision) = events.head? := by
  cases events with
  | nil => rfl
  | cons e rest =>
    have hfirst : e.eventType = .decision := (h 0 e rfl).2.1.mpr rfl
    simp [hfirst]

theorem agree (h : DecisionLog events) {f : ApprovalEventRow} (he : e ∈ events) (hf : f ∈ events) :
    f.decision = e.decision := by
  obtain ⟨n, hn, rfl⟩ := List.getElem_of_mem he
  exact (h n _ (List.getElem?_eq_getElem hn)).2.2 f hf

theorem seq_le (h : DecisionLog events) : ∀ e ∈ events, e.eventSeq ≤ events.length := by
  intro e he
  obtain ⟨n, hn, rfl⟩ := List.getElem_of_mem he
  rw [(h n _ (List.getElem?_eq_getElem hn)).1]
  exact hn

theorem foldr_max_le {l : List Nat} {n : Nat} (h : ∀ x ∈ l, x ≤ n) : l.foldr max 0 ≤ n := by
  induction l with
  | nil => exact Nat.zero_le n
  | cons x l ih =>
    obtain ⟨hx, hl⟩ := List.forall_mem_cons.mp h
    exact max_le hx (ih hl)

theorem le_foldr_max {l : List Nat} {x : Nat} (h : x ∈ l) : x ≤ l.foldr max 0 := by
  induction l with
  | nil => cases h
  | cons y l ih =>
    rcases List.mem_cons.mp h with rfl | h
    · exact le_max_left _ _
    · exact (ih h).trans (le_max_right _ _)

/-- The last number is the number of events. -/
theorem lastSeq (h : DecisionLog events) :
    (events.map (·.eventSeq)).foldr max 0 = events.length := by
  apply le_antisymm
  · apply foldr_max_le
    intro x hx
    obtain ⟨e, he, rfl⟩ := List.mem_map.mp hx
    exact h.seq_le e he
  · cases hlast : events.getLast? with
    | none => rw [List.getLast?_eq_none_iff.mp hlast]; exact Nat.zero_le _
    | some e =>
      have hget : events[events.length - 1]? = some e := by
        rw [← List.getLast?_eq_getElem?]
        exact hlast
      have hpos : 0 < events.length := List.length_pos_of_mem (List.mem_of_getLast? hlast)
      apply le_foldr_max
      refine List.mem_map.mpr ⟨e, List.mem_of_getLast? hlast, ?_⟩
      rw [(h _ e hget).1]
      omega

/-- An event more: the first is a decision, a later one a replay. -/
theorem append (h : DecisionLog events) (hseq : e.eventSeq = events.length + 1)
    (htype : e.eventType = .decision ↔ events = [])
    (hsame : ∀ f ∈ events, f.decision = e.decision) : DecisionLog (events ++ [e]) := by
  intro n f hf
  have hall : ∀ g ∈ events ++ [e], g.decision = e.decision := by
    intro g hg
    rcases List.mem_append.mp hg with hg | hg
    · exact hsame g hg
    · rw [List.mem_singleton.mp hg]
  by_cases hn : n < events.length
  · rw [List.getElem?_append_left hn] at hf
    obtain ⟨hfseq, hftype, -⟩ := h n f hf
    have hfe : f.decision = e.decision := hsame f (List.mem_of_getElem? hf)
    exact ⟨hfseq, hftype, fun g hg => (hall g hg).trans hfe.symm⟩
  · rw [List.getElem?_append_right (by omega)] at hf
    have hlast : n = events.length := by
      obtain ⟨hlt, -⟩ := List.getElem?_eq_some_iff.mp hf
      rw [List.length_singleton] at hlt
      omega
    subst hlast
    rw [Nat.sub_self] at hf
    obtain rfl := Option.some.inj hf
    exact ⟨hseq, htype.trans List.length_eq_zero_iff.symm, hall⟩

end DecisionLog

/-! ## The system -/

/-- A call of one of the methods, or the insert of a confirmation. -/
inductive ApprovalCall where
  | confirm (row : RefreshConfirmationRow)
  | create (args : ApprovalArgs) (now : Time)
  | decide (approvalId decision : String) (identity : ApprovalIdentity) (actorId : String) (now : Time)

namespace ApprovalStore

/-- `INSERT INTO refresh_confirmation`, whose rows are immutable. -/
def confirm (row : RefreshConfirmationRow) (s : ApprovalStore) : ApprovalStore :=
  if (∀ c ∈ s.confirmations, c.requestId ≠ row.requestId ∧
      c.confirmationToken ≠ row.confirmationToken) ∧ row.issuedAt < row.expiresAt then
    { s with confirmations := s.confirmations ++ [row] }
  else s

/-- The store after a transaction: an exception leaves it as it was. -/
def commit {α : Type} (s : ApprovalStore) : Except ApprovalError (α × ApprovalStore) → ApprovalStore
  | .ok (_, t) => t
  | .error _ => s

/-- The store after a call. -/
def after (P : Platform) (s : ApprovalStore) : ApprovalCall → ApprovalStore
  | .confirm row => s.confirm row
  | .create args now => s.commit (createAgentRefreshApproval P args now s)
  | .decide approvalId decision i actorId now =>
    s.commit (decideAgentRefreshApproval P approvalId decision i actorId now s)

def step (P : Platform) (s : ApprovalStore) (call : ApprovalCall) : Option ApprovalStore :=
  some (s.after P call)

/-- The migrated database. -/
def start : ApprovalStore := { initialized := true }

end ApprovalStore

/-- What has become of the store after calls in any order. -/
abbrev Hosted (P : Platform) (s : ApprovalStore) : Prop :=
  Reached (ApprovalStore.step P) Anything ApprovalStore.start s

/-! ## What a call does -/

theorem approvalRow_ok {row : ApprovalRow} (h : approvalRow approvalId s = .ok row) :
    row ∈ s.approvals ∧ row.approvalId = approvalId := by
  simp only [approvalRow, bind_ok, require_ok, orThrow_ok] at h
  obtain ⟨-, -, h⟩ := h
  exact ⟨List.mem_of_find?_eq_some h, by simpa using List.find?_some h⟩

/-- The approval that is created for a confirmation. -/
def newApproval (P : Platform) (args : ApprovalArgs) (snapshot : RefreshSnapshot)
    (confirmation : RefreshConfirmationRow) (s : ApprovalStore) : AgentRefreshApproval where
  approvalId := P.newId "approval" s.drawn
  refreshRequestId := args.refreshRequestId
  principal := args.identity.principal
  capabilityScopeId := args.identity.capabilityScopeId
  capabilityId := args.identity.capabilityId
  manifestVersion := args.identity.manifestVersion
  profileVersion := args.identity.profileVersion
  requestFingerprint := args.identity.requestFingerprint
  snapshot
  issuedAt := confirmation.issuedAt
  expiresAt := confirmation.expiresAt

/-- A confirmation that an approval may be created for. -/
structure Confirms (s : ApprovalStore) (args : ApprovalArgs) (now : Time)
    (confirmation : RefreshConfirmationRow) : Prop where
  mem : confirmation ∈ s.confirmations
  request : confirmation.requestId = args.refreshRequestId
  principal : confirmation.principal = args.identity.principal
  fingerprint : confirmation.requestFingerprint = args.identity.requestFingerprint
  datasource : confirmation.datasourceId = args.datasourceId
  lives : now < confirmation.expiresAt

/-- A creation finds the approval of its request, or adds it. -/
theorem create_cases {approval : AgentRefreshApproval}
    (h : createAgentRefreshApproval P args now s = .ok (approval, t)) :
    (t = s ∧ ∃ row ∈ s.approvals, row.refreshRequestId = args.refreshRequestId ∧
      agentRefreshApprovalFromRow P row = .ok approval ∧
      validateAgentRefreshApproval approval args.identity now = .ok ()) ∨
    ∃ snapshot confirmation value, requestedSnapshot P args = .ok snapshot ∧
      Confirms s args now confirmation ∧
      (∀ a ∈ s.approvals, a.refreshRequestId ≠ args.refreshRequestId) ∧
      P.normalizeJson snapshot.json = .ok value ∧
      approval = newApproval P args snapshot confirmation s ∧
      t = { s with approvals := s.approvals ++ [approval.row value], drawn := s.drawn + 1 } := by
  simp only [createAgentRefreshApproval, bind_ok, require_ok, orThrow_ok] at h
  obtain ⟨snapshot, hsnapshot, _, -, confirmation, hfind, _, hvalid, h⟩ := h
  simp only [validateApprovalConfirmation, bind_ok, require_ok] at hvalid
  obtain ⟨-, ⟨hprincipal, hfingerprint, hdatasource⟩, hlives⟩ := hvalid
  cases hexisting : s.approvals.find? fun a => a.refreshRequestId = args.refreshRequestId with
  | some row =>
    rw [hexisting] at h
    simp only [bind_ok, Except.ok.injEq, Prod.mk.injEq] at h
    obtain ⟨approval', hrow, _, hvalid, rfl, rfl⟩ := h
    refine Or.inl ⟨rfl, row, List.mem_of_find?_eq_some hexisting, ?_, hrow, hvalid⟩
    simpa using List.find?_some hexisting
  | none =>
    rw [hexisting] at h
    simp only [bind_ok, liftStore_ok, Except.ok.injEq, Prod.mk.injEq] at h
    obtain ⟨value, hvalue, u, hinsert, rfl, rfl⟩ := h
    simp only [ApprovalStore.insertApproval, bind_ok, require_ok, Except.ok.injEq] at hinsert
    obtain ⟨-, -, -, -, -, -, -, -, -, -, rfl⟩ := hinsert
    refine Or.inr ⟨snapshot, confirmation, value, hsnapshot, ⟨List.mem_of_find?_eq_some hfind, ?_,
      hprincipal, hfingerprint, hdatasource, hlives⟩, find?_key_eq_none.mp hexisting, hvalue, rfl, rfl⟩
    simpa using List.find?_some hfind

/-- The event that a decision appends. -/
def decisionEvent (P : Platform) (s : ApprovalStore) (row : ApprovalRow) (d : ApprovalDecision)
    (actorId : String) (now : Time) : ApprovalEventRow where
  eventId := P.newId "approval_event" s.drawn
  approvalId := row.approvalId
  eventSeq := s.lastSeq row.approvalId + 1
  eventType := if (s.prior row.approvalId).isSome then .replay else .decision
  decision := d
  actorId
  details := .obj [("refresh_request_id", .str row.refreshRequestId)]
  createdAt := now

/-- A decision that is taken appends one event about a living approval. -/
theorem decide_cases {r : AgentRefreshApprovalDecision}
    (h : decideAgentRefreshApproval P approvalId decision i actorId now s = .ok (r, t)) :
    ∃ d row, ApprovalDecision.read decision = .ok d ∧ row ∈ s.approvals ∧
      row.approvalId = approvalId ∧ now < row.expiresAt ∧
      (∀ e ∈ s.prior approvalId, e.decision = d) ∧
      r = ⟨approvalId, P.newId "approval_event" s.drawn, d, (s.prior approvalId).isSome, now⟩ ∧
      t = { s with events := s.events ++ [decisionEvent P s row d actorId now]
                   drawn := s.drawn + 1 } := by
  simp only [decideAgentRefreshApproval, bind_ok, require_ok] at h
  obtain ⟨_, -, d, hd, _, -, _, -, row, hrow, approval, happroval, _, hvalid, _, hprior, u, hinsert,
    h⟩ := h
  obtain ⟨hmem, rfl⟩ := approvalRow_ok hrow
  simp only [agentRefreshApprovalFromRow, bind_ok, Except.ok.injEq] at happroval
  obtain ⟨_, -, _, -, _, -, _, -, _, -, _, -, rfl⟩ := happroval
  simp only [validateAgentRefreshApproval, bind_ok, require_ok] at hvalid
  obtain ⟨-, -, -, -, hlives⟩ := hvalid
  simp only [ApprovalStore.insertEvent, bind_ok, require_ok, Except.ok.injEq] at hinsert
  obtain ⟨-, -, -, -, -, -, -, -, -, -, -, -, -, -, rfl⟩ := hinsert
  obtain ⟨rfl, rfl⟩ := Prod.mk.inj (Except.ok.inj h)
  exact ⟨d, row, hd, hmem, rfl, hlives, hprior, rfl, rfl⟩

/-! ## The invariant -/

/-- An approval is stored as it was created for a confirmation. -/
structure ApprovalRow.Bound (P : Platform) (s : ApprovalStore) (a : ApprovalRow) : Prop where
  requestId : requireRefreshIdentifier "refresh_request_id" a.refreshRequestId = .ok ()
  identity : a.identity.validate = .ok ()
  snapshot : ∃ snapshot : RefreshSnapshot, snapshot.Bounded ∧
    P.normalizeJson snapshot.json = .ok a.requestSnapshot ∧
    snapshotFingerprint P snapshot = .ok a.requestFingerprint
  confirmation : ∃ c ∈ s.confirmations, c.requestId = a.refreshRequestId ∧
    c.principal = a.principal ∧ c.requestFingerprint = a.requestFingerprint ∧
    c.issuedAt = a.issuedAt ∧ c.expiresAt = a.expiresAt

/-- What calls keep. -/
structure ApprovalStore.Valid (P : Platform) (s : ApprovalStore) : Prop where
  initialized : s.initialized = true
  byId : Keyed ApprovalRow.approvalId s.approvals
  byRequest : Keyed ApprovalRow.refreshRequestId s.approvals
  approvalsDrawn : ∀ a ∈ s.approvals, ∃ n < s.drawn, a.approvalId = P.newId "approval" n
  eventsDrawn : ∀ e ∈ s.events, ∃ n < s.drawn, e.eventId = P.newId "approval_event" n
  confirmed : Keyed RefreshConfirmationRow.requestId s.confirmations
  lifetimes : ∀ c ∈ s.confirmations, c.issuedAt < c.expiresAt
  bound : ∀ a ∈ s.approvals, a.Bound P s
  owned : ∀ e ∈ s.events, ∃ a ∈ s.approvals, a.approvalId = e.approvalId ∧ e.createdAt < a.expiresAt
  logs : ∀ approvalId, DecisionLog (s.eventsOf approvalId)

theorem valid_start : ApprovalStore.Valid P ApprovalStore.start where
  initialized := rfl
  byId := keyed_nil _
  byRequest := keyed_nil _
  approvalsDrawn := List.forall_mem_nil _
  eventsDrawn := List.forall_mem_nil _
  confirmed := keyed_nil _
  lifetimes := List.forall_mem_nil _
  bound := List.forall_mem_nil _
  owned := List.forall_mem_nil _
  logs _ := decisionLog_nil

/-- More confirmations and approvals bind no less. -/
theorem ApprovalRow.Bound.mono {a : ApprovalRow} (h : a.Bound P s)
    (hsub : s.confirmations ⊆ t.confirmations) : a.Bound P t := by
  obtain ⟨c, hc, hsame⟩ := h.confirmation
  exact ⟨h.requestId, h.identity, h.snapshot, c, hsub hc, hsame⟩

theorem valid_confirm (h : s.Valid P) (row : RefreshConfirmationRow) : (s.confirm row).Valid P := by
  unfold ApprovalStore.confirm
  split
  · next hrow =>
    obtain ⟨hfresh, hlife⟩ := hrow
    refine { h with
      confirmed := h.confirmed.append fun c hc => (hfresh c hc).1
      lifetimes := fun c hc => ?_
      bound := fun a ha => (h.bound a ha).mono fun c hc => List.mem_append_left _ hc }
    rcases List.mem_append.mp hc with hc | hc
    · exact h.lifetimes c hc
    · rw [List.mem_singleton.mp hc]
      exact hlife
  · exact h

theorem requestedSnapshot_ok {snapshot : RefreshSnapshot} (h : requestedSnapshot P args = .ok snapshot) :
    requireRefreshIdentifier "refresh_request_id" args.refreshRequestId = .ok () ∧
      args.identity.validate = .ok () ∧ snapshot.Bounded ∧
      snapshotFingerprint P snapshot = .ok args.identity.requestFingerprint := by
  simp only [requestedSnapshot, bind_ok, liftStore_ok, require_ok, Except.ok.injEq] at h
  obtain ⟨_, hid, _, hidentity, snapshot', hsnapshot, fp, hfp, _, rfl, rfl⟩ := h
  exact ⟨hid, hidentity, (agentRefreshSnapshot_bounded hsnapshot).1, hfp⟩

theorem valid_create (hids : Function.Injective P.uuid) (h : s.Valid P) {approval : AgentRefreshApproval}
    (hcreate : createAgentRefreshApproval P args now s = .ok (approval, t)) : t.Valid P := by
  rcases create_cases hcreate with ⟨rfl, -⟩ | ⟨snapshot, confirmation, value, hsnapshot, hconfirms,
    hnew, hvalue, rfl, rfl⟩
  · exact h
  · obtain ⟨hid, hidentity, hbounded, hfp⟩ := requestedSnapshot_ok hsnapshot
    have hfresh : ∀ a ∈ s.approvals, a.approvalId ≠ P.newId "approval" s.drawn := by
      intro a ha heq
      obtain ⟨n, hn, hdrawn⟩ := h.approvalsDrawn a ha
      have := P.newId_injective hids "approval" (hdrawn.symm.trans heq)
      omega
    refine { h with
      byId := h.byId.append hfresh
      byRequest := h.byRequest.append hnew
      approvalsDrawn := fun a ha => ?_
      eventsDrawn := fun e he => ?_
      bound := fun a ha => ?_
      owned := fun e he => ?_
      logs := h.logs }
    · rcases List.mem_append.mp ha with ha | ha
      · obtain ⟨n, hn, hdrawn⟩ := h.approvalsDrawn a ha
        exact ⟨n, Nat.lt_succ_of_lt hn, hdrawn⟩
      · rw [List.mem_singleton.mp ha]
        exact ⟨s.drawn, Nat.lt_succ_self _, rfl⟩
    · obtain ⟨n, hn, hdrawn⟩ := h.eventsDrawn e he
      exact ⟨n, Nat.lt_succ_of_lt hn, hdrawn⟩
    · rcases List.mem_append.mp ha with ha | ha
      · exact (h.bound a ha).mono (List.Subset.refl _)
      · rw [List.mem_singleton.mp ha]
        exact ⟨hid, hidentity, ⟨snapshot, hbounded, hvalue, hfp⟩, confirmation, hconfirms.mem,
          hconfirms.request,
          hconfirms.principal, hconfirms.fingerprint, rfl, rfl⟩
    · obtain ⟨a, ha, howned⟩ := h.owned e he
      exact ⟨a, List.mem_append_left _ ha, howned⟩

/-- The decision of an approval is its first event. -/
theorem prior_eq_head? (h : s.Valid P) (approvalId : String) :
    s.prior approvalId = (s.eventsOf approvalId).head? := by
  rw [← (h.logs approvalId).find?_decision, ApprovalStore.eventsOf, List.find?_filter,
    ApprovalStore.prior]
  congr 1
  funext e
  simp

theorem lastSeq_eq_length (h : s.Valid P) (approvalId : String) :
    s.lastSeq approvalId = (s.eventsOf approvalId).length := (h.logs approvalId).lastSeq

/-- The next event continues the log of its approval. -/
theorem log_decisionEvent (h : s.Valid P) (row : ApprovalRow) {d : ApprovalDecision}
    (hprior : ∀ e ∈ s.prior row.approvalId, e.decision = d) :
    DecisionLog (s.eventsOf row.approvalId ++ [decisionEvent P s row d actorId now]) := by
  have hlog := h.logs row.approvalId
  rw [prior_eq_head? h] at hprior
  apply hlog.append
  · show s.lastSeq row.approvalId + 1 = _
    rw [lastSeq_eq_length h]
  · show (if (s.prior row.approvalId).isSome then ApprovalEventType.replay else .decision) =
      .decision ↔ _
    rw [prior_eq_head? h]
    cases s.eventsOf row.approvalId <;> simp
  · intro f hf
    cases hevents : s.eventsOf row.approvalId with
    | nil => rw [hevents] at hf; cases hf
    | cons e rest =>
      rw [hevents] at hprior hf hlog
      exact (hlog.agree List.mem_cons_self hf).trans (hprior e rfl)

theorem eventsOf_append (e : ApprovalEventRow) (n : Nat) (approvalId : String) :
    ApprovalStore.eventsOf { s with events := s.events ++ [e], drawn := n } approvalId =
      if e.approvalId = approvalId then s.eventsOf approvalId ++ [e] else s.eventsOf approvalId := by
  rw [ApprovalStore.eventsOf, List.filter_append]
  split
  · next he => simp [ApprovalStore.eventsOf, he]
  · next he => simp [ApprovalStore.eventsOf, he]

theorem valid_decide (h : s.Valid P) {r : AgentRefreshApprovalDecision}
    (hdecide : decideAgentRefreshApproval P approvalId decision i actorId now s = .ok (r, t)) :
    t.Valid P := by
  obtain ⟨d, row, -, hrow, rfl, hlives, hprior, -, rfl⟩ := decide_cases hdecide
  refine { h with
    approvalsDrawn := fun a ha => ?_
    eventsDrawn := fun e he => ?_
    bound := fun a ha => (h.bound a ha).mono (List.Subset.refl _)
    owned := fun e he => ?_
    logs := fun approvalId => ?_ }
  · obtain ⟨n, hn, hdrawn⟩ := h.approvalsDrawn a ha
    exact ⟨n, Nat.lt_succ_of_lt hn, hdrawn⟩
  · rcases List.mem_append.mp he with he | he
    · obtain ⟨n, hn, hdrawn⟩ := h.eventsDrawn e he
      exact ⟨n, Nat.lt_succ_of_lt hn, hdrawn⟩
    · rw [List.mem_singleton.mp he]
      exact ⟨s.drawn, Nat.lt_succ_self _, rfl⟩
  · rcases List.mem_append.mp he with he | he
    · exact h.owned e he
    · rw [List.mem_singleton.mp he]
      exact ⟨row, hrow, rfl, hlives⟩
  · rw [eventsOf_append]
    split
    · next heq =>
      obtain rfl := heq
      exact log_decisionEvent h row hprior
    · exact h.logs approvalId

theorem valid_after (hids : Function.Injective P.uuid) (h : s.Valid P) (call : ApprovalCall) :
    (s.after P call).Valid P := by
  cases call with
  | confirm row => exact valid_confirm h row
  | create args now =>
    show (s.commit (createAgentRefreshApproval P args now s)).Valid P
    cases hcreate : createAgentRefreshApproval P args now s with
    | error e => exact h
    | ok out => exact valid_create hids h hcreate
  | decide approvalId decision i actorId now =>
    show (s.commit (decideAgentRefreshApproval P approvalId decision i actorId now s)).Valid P
    cases hdecide : decideAgentRefreshApproval P approvalId decision i actorId now s with
    | error e => exact h
    | ok out => exact valid_decide h hdecide

/-- Every store that calls lead to is valid. -/
theorem valid_of_hosted (hids : Function.Injective P.uuid) (h : Hosted P s) : s.Valid P := by
  apply h.invariant valid_start
  intro s call t hs _ hstep
  rw [← Option.some.inj hstep]
  exact valid_after hids hs call

namespace Sample

/-- The SHA-256 digest of the canonical text of the snapshot below. -/
def confirmationDigest : String := "90cb620690f6e7908aebdae1054a2eb8a480e430ee0a9f0f9a4a86bad25fb2bb"

/-- A platform on which the one snapshot of the sample has its digest; its texts are ASCII. -/
def approvalPlatform : Platform :=
  { platform with sha256 := fun _ => confirmationDigest, nfc := fun s => s }

theorem keepsSnapshots_approvalPlatform : KeepsSnapshots approvalPlatform :=
  ⟨fun _ => rfl, fun _ _ => rfl⟩

/-- The identity a host approves under. -/
def hostIdentity : ApprovalIdentity :=
  ⟨"analyst", "scope_1", "postcode_lookup", "manifest_1", "profile_1", confirmationDigest⟩

def postcodeArgs : ApprovalArgs where
  refreshRequestId := "request_1"
  identity := hostIdentity
  datasourceId := "ons.onspd.postcode"
  requestProfile := "onspd_postcode"
  boundedScope := [("postcode", .arr [.str "SW1A 1AA"])]
  intent := "Check a postcode"
  scope_nodup := by decide

theorem issued_le : 1 ≤ maxMicros := by decide

theorem early_le : 2 ≤ maxMicros := by decide

theorem expiry_le : 60 ≤ maxMicros := by decide

def postcodeConfirmation : RefreshConfirmationRow where
  confirmationToken := "confirmation_1"
  requestId := "request_1"
  principal := "analyst"
  requestFingerprint := confirmationDigest
  datasourceId := "ons.onspd.postcode"
  definitionVersion := 1
  dayStartAt := ⟨0, Nat.zero_le _⟩
  issuedAt := ⟨1, issued_le⟩
  expiresAt := ⟨60, expiry_le⟩

def earlyTime : Time := ⟨2, early_le⟩

def confirmedStore : ApprovalStore :=
  ApprovalStore.start.after approvalPlatform (.confirm postcodeConfirmation)

def approvedStore : ApprovalStore :=
  confirmedStore.after approvalPlatform (.create postcodeArgs earlyTime)

def decideCall : ApprovalCall := .decide "approval_0" "approve" hostIdentity "analyst" earlyTime

def decidedStore : ApprovalStore := approvedStore.after approvalPlatform decideCall

def replayedStore : ApprovalStore := decidedStore.after approvalPlatform decideCall

theorem hosted_approvedStore : Hosted approvalPlatform approvedStore :=
  .next (.next .start trivial rfl) trivial rfl

def postcodeApproval : AgentRefreshApproval :=
  newApproval approvalPlatform postcodeArgs ⟨"ons.onspd.postcode", "onspd_postcode",
    [("postcode", ["SW1A 1AA"])], "Check a postcode"⟩ postcodeConfirmation confirmedStore

theorem create_sample : createAgentRefreshApproval approvalPlatform postcodeArgs earlyTime
    confirmedStore = .ok (postcodeApproval, approvedStore) := by
  decide +kernel

theorem decide_sample : decideAgentRefreshApproval approvalPlatform "approval_0" "approve" hostIdentity
    "analyst" earlyTime approvedStore =
      .ok (⟨"approval_0", "approval_event_1", .approve, false, earlyTime⟩, decidedStore) := by
  decide +kernel

theorem replay_sample : decideAgentRefreshApproval approvalPlatform "approval_0" "approve" hostIdentity
    "analyst" earlyTime decidedStore =
      .ok (⟨"approval_0", "approval_event_2", .approve, true, earlyTime⟩, replayedStore) := by
  decide +kernel

end Sample

/-- However calls follow each other: an event belongs to an approval that is as it was created, was
written before the approval expired, and agrees with every other event about the approval, of which it
alone can be the decision. -/
theorem events_of_hosted (hids : Function.Injective P.uuid) (h : Hosted P s) {e : ApprovalEventRow}
    (he : e ∈ s.events) :
    (∃ a ∈ s.approvals, a.approvalId = e.approvalId ∧ a.Bound P s ∧ e.createdAt < a.expiresAt) ∧
      ∀ f ∈ s.events, f.approvalId = e.approvalId →
        f.decision = e.decision ∧ (e.eventType = .decision → f.eventType = .decision → f = e) := by
  have hvalid := valid_of_hosted hids h
  obtain ⟨a, ha, hid, hlives⟩ := hvalid.owned e he
  refine ⟨⟨a, ha, hid, hvalid.bound a ha, hlives⟩, ?_⟩
  intro f hf hsame
  have hlog := hvalid.logs e.approvalId
  have he' : e ∈ s.eventsOf e.approvalId := List.mem_filter.mpr ⟨he, decide_eq_true rfl⟩
  have hf' : f ∈ s.eventsOf e.approvalId := List.mem_filter.mpr ⟨hf, decide_eq_true hsame⟩
  refine ⟨hlog.agree he' hf', ?_⟩
  intro hdecided hdecided'
  -- the decision is the first event
  obtain ⟨n, hn, hne⟩ := List.getElem_of_mem he'
  obtain ⟨m, hm, hmf⟩ := List.getElem_of_mem hf'
  have hzero := ((hlog n e (List.getElem?_eq_some_iff.mpr ⟨hn, hne⟩)).2.1).mp hdecided
  have hzero' := ((hlog m f (List.getElem?_eq_some_iff.mpr ⟨hm, hmf⟩)).2.1).mp hdecided'
  subst hzero hzero'
  rw [← hne, ← hmf]

theorem Sample.decision_of_decidedStore : ∃ e ∈ Sample.decidedStore.events,
    (∃ a ∈ Sample.decidedStore.approvals, a.approvalId = e.approvalId ∧
      a.Bound Sample.approvalPlatform Sample.decidedStore ∧ e.createdAt < a.expiresAt) ∧
    ∀ f ∈ Sample.decidedStore.events, f.approvalId = e.approvalId →
      f.decision = e.decision ∧ (e.eventType = .decision → f.eventType = .decision → f = e) := by
  obtain ⟨e, he⟩ : ∃ e, e ∈ Sample.decidedStore.events :=
    List.exists_mem_of_length_pos (by decide +kernel)
  have hids : Function.Injective Sample.approvalPlatform.uuid := Sample.uuid_injective
  exact ⟨e, he, events_of_hosted hids (Sample.hosted_approvedStore.next trivial rfl) he⟩

/-! ## Constraints and triggers -/

/-- No constraint has failed and no trigger has fired. -/
def ApprovalError.Lawful : ApprovalError → Prop
  | .store (.integrity _) => False
  | _ => True

mutual

theorem normalizeJson_raises : ∀ v : Json, Raises (fun e => ∃ m, e = .canonicalization m)
    (P.normalizeJson v)
  | .null | .bool _ | .int _ | .str _ => .ok _
  | .float _ => .error ⟨_, rfl⟩
  | .arr items => by
    rw [Platform.normalizeJson]
    exact .andThen (normalizeItems_raises items) fun _ => .ok _
  | .obj members => by
    rw [Platform.normalizeJson]
    exact .andThen (normalizeMembers_raises members []) fun _ => .ok _

theorem normalizeItems_raises : ∀ items : List Json, Raises (fun e => ∃ m, e = .canonicalization m)
    (P.normalizeItems items)
  | [] => .ok _
  | x :: xs => by
    rw [Platform.normalizeItems]
    exact .andThen (normalizeJson_raises x) fun _ => .andThen (normalizeItems_raises xs) fun _ => .ok _

theorem normalizeMembers_raises : ∀ (members : List (String × Json)) (seen : List String),
    Raises (fun e => ∃ m, e = .canonicalization m) (P.normalizeMembers seen members)
  | [], _ => .ok _
  | (k, x) :: xs, seen => by
    rw [Platform.normalizeMembers]
    exact .andThen (.require ⟨_, rfl⟩) fun _ => .andThen (normalizeJson_raises x) fun _ =>
      .andThen (normalizeMembers_raises xs _) fun _ => .ok _

end

theorem liftStore_lawful {α : Type} {x : Except StoreError α}
    (h : Raises (fun e => ApprovalError.Lawful (.store e)) x) :
    Raises ApprovalError.Lawful (liftStore x) := by
  intro e he
  cases x with
  | ok a => cases he
  | error e' =>
    obtain rfl := Except.error.inj he
    exact h e' rfl

theorem normalize_lawful (v : Json) : Raises ApprovalError.Lawful (liftStore (P.normalizeJson v)) := by
  apply liftStore_lawful
  rintro e he
  obtain ⟨m, rfl⟩ := normalizeJson_raises v e he
  trivial

theorem fingerprint_lawful (snapshot : RefreshSnapshot) :
    Raises ApprovalError.Lawful (snapshotFingerprint P snapshot) := by
  refine .andThen (liftStore_lawful ?_) fun _ => .ok _
  refine .andThen ?_ fun _ => .ok _
  rintro e he
  obtain ⟨m, rfl⟩ := normalizeJson_raises _ e he
  trivial

theorem identity_lawful (i : ApprovalIdentity) : Raises ApprovalError.Lawful i.validate :=
  .andThen (liftStore_lawful (.require trivial)) fun _ => .andThen (.require trivial) fun _ =>
    .andThen (.require trivial) fun _ => .andThen (.require trivial) fun _ =>
      .andThen (.require trivial) fun _ => liftStore_lawful (.require trivial)

theorem approvalText_lawful (name : String) (value : Json) :
    Raises ApprovalError.Lawful (approvalText name value) :=
  .andThen (.orThrow trivial) fun _ => .andThen (.require trivial) fun _ => .ok _

theorem scopeValues_lawful (value : Json) : Raises ApprovalError.Lawful (scopeValues value) := by
  cases value with
  | str s => exact .ok _
  | arr items => exact .orThrow trivial
  | _ => exact .error trivial

theorem normalizedScope_lawful : ∀ (members : List (String × Json)) (total : Nat),
    Raises ApprovalError.Lawful (normalizedScope total members)
  | [], _ => .ok _
  | (_, raw) :: rest, _ =>
    .andThen (.require trivial) fun _ => .andThen (scopeValues_lawful raw) fun _ =>
      .andThen (.require trivial) fun _ => .andThen (.require trivial) fun _ =>
        .andThen (.require trivial) fun _ => .andThen (normalizedScope_lawful rest _) fun _ => .ok _

theorem scopeMapping_lawful (scope : Json) : Raises ApprovalError.Lawful (scopeMapping scope) := by
  cases scope with
  | obj members => exact .andThen (.require trivial) fun _ => .ok _
  | _ => exact .error trivial

theorem agentRefreshSnapshot_lawful (d p b i : Json) :
    Raises ApprovalError.Lawful (agentRefreshSnapshot d p b i) :=
  .andThen (approvalText_lawful _ _) fun _ => .andThen (approvalText_lawful _ _) fun _ =>
    .andThen (.orThrow trivial) fun _ => .andThen (scopeMapping_lawful _) fun _ =>
      .andThen (normalizedScope_lawful _ _) fun _ => .ok _

theorem storedSnapshot_lawful (value : Json) : Raises ApprovalError.Lawful (storedSnapshot value) := by
  cases value with
  | obj members => exact .andThen (.require trivial) fun _ => agentRefreshSnapshot_lawful _ _ _ _
  | _ => exact .error trivial

theorem fromRow_lawful (row : ApprovalRow) :
    Raises ApprovalError.Lawful (agentRefreshApprovalFromRow P row) :=
  .andThen (storedSnapshot_lawful _) fun _ => .andThen (.require trivial) fun _ =>
    .andThen (liftStore_lawful (.require trivial)) fun _ => .andThen (identity_lawful _) fun _ =>
      .andThen (fingerprint_lawful _) fun _ => .andThen (.require trivial) fun _ => .ok _

theorem validateApproval_lawful (approval : AgentRefreshApproval) :
    Raises ApprovalError.Lawful (validateAgentRefreshApproval approval i now) :=
  .andThen (.require trivial) fun _ => .andThen (.require trivial) fun _ => .require trivial

theorem requestedSnapshot_lawful : Raises ApprovalError.Lawful (requestedSnapshot P args) :=
  .andThen (liftStore_lawful (.require trivial)) fun _ => .andThen (identity_lawful _) fun _ =>
    .andThen (agentRefreshSnapshot_lawful _ _ _ _) fun _ => .andThen (fingerprint_lawful _) fun _ =>
      .andThen (.require trivial) fun _ => .ok _

theorem approvalRow_lawful : Raises ApprovalError.Lawful (approvalRow approvalId s) :=
  .andThen (.require trivial) fun _ => .orThrow trivial

/-- A digest is as long as its column demands. -/
theorem length_of_validate (h : i.validate = .ok ()) : i.requestFingerprint.length = 64 := by
  simp only [ApprovalIdentity.validate, bind_ok, liftStore_ok] at h
  obtain ⟨_, -, _, -, _, -, _, -, _, -, hdigest⟩ := h
  have hisDigest := require_ok.mp hdigest
  simp only [isDigest, decide_eq_true_eq] at hisDigest
  exact hisDigest.1

theorem insertApproval_ok (hids : Function.Injective P.uuid) (h : s.Valid P) {snapshot : RefreshSnapshot}
    {confirmation : RefreshConfirmationRow} (hconfirms : Confirms s args now confirmation)
    (hvalid : args.identity.validate = .ok ())
    (hnew : ∀ a ∈ s.approvals, a.refreshRequestId ≠ args.refreshRequestId) (value : Json) :
    ∃ t, s.insertApproval ((newApproval P args snapshot confirmation s).row value) = .ok t := by
  simp only [ApprovalStore.insertApproval, bind_ok, require_ok]
  refine ⟨_, (), fun a ha heq => ?_, (), hnew, (), length_of_validate hvalid, (),
    h.lifetimes _ hconfirms.mem, (), ⟨confirmation, hconfirms.mem, hconfirms.request⟩, rfl⟩
  obtain ⟨n, hn, hdrawn⟩ := h.approvalsDrawn a ha
  have := P.newId_injective hids "approval" (hdrawn.symm.trans heq)
  omega

theorem insertEvent_ok (hids : Function.Injective P.uuid) (h : s.Valid P) {row : ApprovalRow}
    {d : ApprovalDecision} (hrow : row ∈ s.approvals)
    (hprior : ∀ e ∈ s.prior row.approvalId, e.decision = d) :
    ∃ t, s.insertEvent (decisionEvent P s row d actorId now) = .ok t := by
  simp only [ApprovalStore.insertEvent, bind_ok, require_ok]
  refine ⟨_, (), rfl, (), fun htype => ?_, (), fun htype => ?_, (), fun e he heq => ?_, (),
    Nat.succ_pos _, (), fun e he hid heq => ?_, (), ⟨row, hrow, rfl⟩, rfl⟩
  · cases hsome : s.prior row.approvalId with
    | none => exact hsome
    | some e => simp [decisionEvent, hsome] at htype
  · cases hsome : s.prior row.approvalId with
    | none => simp [decisionEvent, hsome] at htype
    | some e =>
      have hfound := List.find?_some hsome
      simp only [decide_eq_true_eq] at hfound
      exact ⟨e, List.mem_of_find?_eq_some hsome, hfound.1, hfound.2, hprior e hsome⟩
  · obtain ⟨n, hn, hdrawn⟩ := h.eventsDrawn e he
    have := P.newId_injective hids "approval_event" (hdrawn.symm.trans heq)
    omega
  · -- its number is past all numbers of the log
    have hmem : e ∈ s.eventsOf row.approvalId := List.mem_filter.mpr ⟨he, decide_eq_true hid⟩
    have hle := (h.logs row.approvalId).seq_le e hmem
    rw [heq] at hle
    have hseq : (decisionEvent P s row d actorId now).eventSeq = s.lastSeq row.approvalId + 1 := rfl
    rw [hseq, lastSeq_eq_length h] at hle
    omega

theorem create_lawful (hids : Function.Injective P.uuid) (h : s.Valid P) :
    Raises ApprovalError.Lawful (createAgentRefreshApproval P args now s) := by
  refine .bind requestedSnapshot_lawful fun snapshot hsnapshot => .andThen (.require trivial) fun _ =>
    .bind (.orThrow trivial) fun confirmation hfind => .bind ?_ fun _ hvalid => ?_
  · exact .andThen (.require trivial) fun _ => .require trivial
  · cases hexisting : s.approvals.find? fun a => a.refreshRequestId = args.refreshRequestId with
    | some row =>
      exact .andThen (fromRow_lawful row) fun _ => .andThen (validateApproval_lawful _) fun _ => .ok _
    | none =>
      simp only [validateApprovalConfirmation, bind_ok, require_ok] at hvalid
      obtain ⟨-, ⟨hprincipal, hfingerprint, hdatasource⟩, hlives⟩ := hvalid
      have hconfirms : Confirms s args now confirmation := by
        refine ⟨List.mem_of_find?_eq_some (orThrow_ok.mp hfind), ?_, hprincipal, hfingerprint,
          hdatasource, hlives⟩
        simpa using List.find?_some (orThrow_ok.mp hfind)
      refine .andThen (normalize_lawful _) fun value => ?_
      obtain ⟨t, hinsert⟩ : ∃ t, s.insertApproval
          ((newApproval P args snapshot confirmation s).row value) = .ok t :=
        insertApproval_ok hids h hconfirms (requestedSnapshot_ok hsnapshot).2.1
          (find?_key_eq_none.mp hexisting) value
      exact .andThen (fun e he => by cases hinsert.symm.trans he) fun _ => .ok _

theorem decide_lawful (hids : Function.Injective P.uuid) (h : s.Valid P) :
    Raises ApprovalError.Lawful (decideAgentRefreshApproval P approvalId decision i actorId now s) := by
  have hread : Raises ApprovalError.Lawful (ApprovalDecision.read decision) := by
    unfold ApprovalDecision.read
    split
    · exact .ok _
    · split
      · exact .ok _
      · exact .error trivial
  refine .andThen (.require trivial) fun _ => .andThen hread fun d => .andThen (identity_lawful i)
    fun _ =>
    .andThen (.require trivial) fun _ => .bind approvalRow_lawful fun row hrow =>
      .bind (fromRow_lawful row) fun approval happroval => .andThen (validateApproval_lawful _) fun _ =>
        .bind (.require trivial) fun _ hprior => ?_
  obtain ⟨hmem, rfl⟩ := approvalRow_ok hrow
  simp only [agentRefreshApprovalFromRow, bind_ok, Except.ok.injEq] at happroval
  obtain ⟨_, -, _, -, _, -, _, -, _, -, _, -, rfl⟩ := happroval
  obtain ⟨t, hinsert⟩ : ∃ t, s.insertEvent (decisionEvent P s row d actorId now) = .ok t :=
    insertEvent_ok hids h hmem (require_ok.mp hprior)
  exact .andThen (fun e he => by cases hinsert.symm.trans he) fun _ => .ok _

/-- In no order of calls does a constraint of the approval tables fail or a trigger fire. -/
theorem hosted_lawful (hids : Function.Injective P.uuid) (h : Hosted P s) :
    Raises ApprovalError.Lawful (createAgentRefreshApproval P args now s) ∧
      Raises ApprovalError.Lawful
        (decideAgentRefreshApproval P approvalId decision i actorId now s) :=
  ⟨create_lawful hids (valid_of_hosted hids h), decide_lawful hids (valid_of_hosted hids h)⟩

theorem Sample.lawful_approvedStore :
    Raises ApprovalError.Lawful (createAgentRefreshApproval Sample.approvalPlatform Sample.postcodeArgs
        Sample.earlyTime Sample.approvedStore) ∧
      Raises ApprovalError.Lawful (decideAgentRefreshApproval Sample.approvalPlatform "approval_0" "deny"
        Sample.hostIdentity "analyst" Sample.earlyTime Sample.approvedStore) :=
  hosted_lawful Sample.uuid_injective Sample.hosted_approvedStore

/-! ## Write-once registers -/

/-- The decision about an approval, if there is one. -/
def ApprovalStore.decided (s : ApprovalStore) (approvalId : String) : Option ApprovalDecision :=
  (s.prior approvalId).map (·.decision)

theorem decided_create {approval : AgentRefreshApproval}
    (h : createAgentRefreshApproval P args now s = .ok (approval, t)) : t.decided = s.decided := by
  rcases create_cases h with ⟨rfl, -⟩ | ⟨_, _, _, -, -, -, -, -, rfl⟩
  · rfl
  · rfl

theorem decided_confirm (row : RefreshConfirmationRow) : (s.confirm row).decided = s.decided := by
  unfold ApprovalStore.confirm
  split <;> rfl

theorem prior_append (e : ApprovalEventRow) (n : Nat) (id : String) :
    ApprovalStore.prior { s with events := s.events ++ [e], drawn := n } id =
      (s.prior id).or (if e.approvalId = id ∧ e.eventType = .decision then some e else none) := by
  rw [ApprovalStore.prior, List.find?_append, ApprovalStore.prior, List.find?_singleton]
  simp only [decide_eq_true_eq]

/-- A decision that is taken is a write to the register of its approval. -/
theorem write_of_decide {r : AgentRefreshApprovalDecision}
    (h : decideAgentRefreshApproval P approvalId decision i actorId now s = .ok (r, t)) :
    ApprovalDecision.read decision = .ok r.decision ∧
      Register.write s.decided (approvalId, r.decision) = some t.decided ∧
      r.replayed = (s.decided approvalId).isSome := by
  obtain ⟨d, row, hread, -, rfl, -, hprior, rfl, rfl⟩ := decide_cases h
  refine ⟨hread, Register.write_eq_some.mpr ⟨?_, ?_⟩, Option.isSome_map.symm⟩
  · cases hsome : s.prior row.approvalId with
    | none => exact Or.inl (by rw [ApprovalStore.decided, hsome]; rfl)
    | some e =>
      refine Or.inr ?_
      rw [ApprovalStore.decided, hsome, ← hprior e hsome]
      rfl
  · funext id
    rw [ApprovalStore.decided, prior_append]
    by_cases hid : id = row.approvalId
    · subst hid
      rw [Function.update_self]
      cases hsome : s.prior row.approvalId with
      | none => simp [decisionEvent, hsome]
      | some e => simp [hprior e hsome]
    · have hother : ¬ (decisionEvent P s row d actorId now).approvalId = id := fun heq => hid heq.symm
      rw [Function.update_of_ne hid, if_neg (fun h => hother h.1), Option.or_none,
        ApprovalStore.decided]

theorem register_step {call : ApprovalCall} (h : ApprovalStore.step P s call = some t) :
    Reached Register.write Anything s.decided t.decided := by
  obtain rfl := Option.some.inj h
  cases call with
  | confirm row =>
    show Reached _ _ _ (s.confirm row).decided
    rw [decided_confirm]
    exact .start
  | create args now =>
    show Reached _ _ _ (s.commit (createAgentRefreshApproval P args now s)).decided
    cases hcreate : createAgentRefreshApproval P args now s with
    | error e => exact .start
    | ok out =>
      show Reached _ _ _ out.2.decided
      rw [decided_create hcreate]
      exact .start
  | decide approvalId decision i actorId now =>
    show Reached _ _ _
      (s.commit (decideAgentRefreshApproval P approvalId decision i actorId now s)).decided
    cases hdecide : decideAgentRefreshApproval P approvalId decision i actorId now s with
    | error e => exact .start
    | ok out => exact .next .start trivial (write_of_decide hdecide).2.1

/-- The decisions of a run are writes to registers. -/
theorem registers_of_run (h : Reached (ApprovalStore.step P) Anything s t) :
    Reached Register.write Anything s.decided t.decided :=
  h.simulate (I := fun _ => True) (fun _ _ _ _ _ _ => trivial)
    (fun _ _ _ _ _ hstep => register_step hstep) trivial

/-- Once a decision about an approval is taken, every later one that is taken is the same and only
replays it, whatever is called in between. -/
theorem decisions_agree {u v : ApprovalStore} {r r' : AgentRefreshApprovalDecision}
    {decision' actorId' : String} {i' : ApprovalIdentity} {now' : Time}
    (h : decideAgentRefreshApproval P approvalId decision i actorId now s = .ok (r, t))
    (hrun : Reached (ApprovalStore.step P) Anything t u)
    (h' : decideAgentRefreshApproval P approvalId decision' i' actorId' now' u = .ok (r', v)) :
    r'.decision = r.decision ∧ r'.replayed = true := by
  obtain ⟨-, hwrite, -⟩ := write_of_decide h
  obtain ⟨-, hwrite', hreplayed⟩ := write_of_decide h'
  have hregisters := registers_of_run hrun
  refine ⟨Register.agree hwrite hregisters hwrite', ?_⟩
  rw [hreplayed, Register.reached_keeps hregisters (Register.write_fixes hwrite)]
  rfl

theorem Sample.replayed_approve : ∃ r v, decideAgentRefreshApproval Sample.approvalPlatform
    "approval_0" "approve" Sample.hostIdentity "analyst" Sample.earlyTime Sample.decidedStore =
      .ok (r, v) ∧ r.decision = .approve ∧ r.replayed = true :=
  ⟨_, _, Sample.replay_sample, decisions_agree Sample.decide_sample .start Sample.replay_sample⟩

/-! ## Reading an approval back -/

/-- The approval of a row, with a snapshot. -/
def ApprovalRow.approval (row : ApprovalRow) (snapshot : RefreshSnapshot) : AgentRefreshApproval :=
  ⟨row.approvalId, row.refreshRequestId, row.principal, row.capabilityScopeId, row.capabilityId,
    row.manifestVersion, row.profileVersion, row.requestFingerprint, snapshot, row.issuedAt,
    row.expiresAt⟩

/-- A stored approval is read back exactly if the normal form of its snapshot is within the bounds. -/
theorem fromRow_iff (hP : KeepsSnapshots P) {row : ApprovalRow} (hbound : row.Bound P s)
    (hshort : ApprovalIdentifier row.approvalId) {snapshot : RefreshSnapshot}
    (hsnapshot : P.normalizeJson snapshot.json = .ok row.requestSnapshot)
    {approval : AgentRefreshApproval} : agentRefreshApprovalFromRow P row = .ok approval ↔
      (snapshot.nfc P).Bounded ∧ approval = row.approval (snapshot.nfc P) := by
  obtain ⟨snapshot', -, hvalue, hfp⟩ := hbound.snapshot
  have hfingerprint : snapshotFingerprint P (snapshot.nfc P) = .ok row.requestFingerprint := by
    apply snapshotFingerprint_nfc hP
    rw [snapshotFingerprint, Platform.canonicalJson, hvalue] at hfp
    rw [snapshotFingerprint, Platform.canonicalJson, hsnapshot]
    exact hfp
  simp only [agentRefreshApprovalFromRow, bind_ok, storedSnapshot_normalized hP hsnapshot,
    requireAgentApprovalIdentifier_ok, liftStore_ok, require_ok, Except.ok.injEq]
  constructor
  · rintro ⟨_, ⟨hbounded, rfl⟩, _, -, _, -, _, -, _, -, _, -, rfl⟩
    exact ⟨hbounded, rfl⟩
  · rintro ⟨hbounded, rfl⟩
    exact ⟨_, ⟨hbounded, rfl⟩, (), hshort, (), hbound.requestId, (), hbound.identity, _,
      hfingerprint, (), rfl, rfl⟩

theorem nfc_nfc (hP : KeepsSnapshots P) (snapshot : RefreshSnapshot) :
    (snapshot.nfc P).nfc P = snapshot.nfc P := by
  rw [RefreshSnapshot.nfc, RefreshSnapshot.nfc]
  dsimp only
  rw [nfcScope_sortScope hP, hP.idem, hP.idem, hP.idem]
  congr 1
  have hsorted : (sortScope (nfcScope P snapshot.boundedScope)).Pairwise fun a b => a.1 ≤ b.1 := by
    have : Std.Total fun a b : String × List String => a.1 ≤ b.1 := ⟨fun a b => le_total a.1 b.1⟩
    have : IsTrans (String × List String) fun a b => a.1 ≤ b.1 := ⟨fun a b c => le_trans⟩
    exact List.pairwise_insertionSort _ _
  exact hsorted.insertionSort_eq

/-- The row of an approval that was returned by a creation. -/
structure StoredAs (P : Platform) (s : ApprovalStore) (approval : AgentRefreshApproval)
    (row : ApprovalRow) (snapshot : RefreshSnapshot) : Prop where
  mem : row ∈ s.approvals
  bound : row.Bound P s
  normal : P.normalizeJson snapshot.json = .ok row.requestSnapshot
  same : row.approval (snapshot.nfc P) = { approval with snapshot := snapshot.nfc P }
  form : snapshot.nfc P = approval.snapshot.nfc P

theorem storedAs_create (hP : KeepsSnapshots P) (hids : Function.Injective P.uuid) (h : s.Valid P)
    {approval : AgentRefreshApproval}
    (hcreate : createAgentRefreshApproval P args now s = .ok (approval, t)) :
    ∃ row snapshot, StoredAs P t approval row snapshot := by
  have hvalid := valid_create hids h hcreate
  rcases create_cases hcreate with ⟨rfl, row, hrow, -, hread, -⟩ | ⟨snapshot, confirmation, value, -, -,
    -, hvalue, rfl, rfl⟩
  · -- the approval of an earlier creation was read back
    obtain ⟨snapshot, -, hvalue, -⟩ := (h.bound row hrow).snapshot
    have hshort : ApprovalIdentifier row.approvalId := by
      simp only [agentRefreshApprovalFromRow, bind_ok, requireAgentApprovalIdentifier_ok] at hread
      obtain ⟨_, -, _, hshort, -⟩ := hread
      exact hshort
    obtain ⟨-, rfl⟩ := (fromRow_iff hP (h.bound row hrow) hshort hvalue).mp hread
    exact ⟨row, snapshot, hrow, h.bound row hrow, hvalue, rfl, (nfc_nfc hP snapshot).symm⟩
  · have hrow : (newApproval P args snapshot confirmation s).row value ∈
        s.approvals ++ [(newApproval P args snapshot confirmation s).row value] :=
      List.mem_append_right _ (List.mem_singleton.mpr rfl)
    exact ⟨_, snapshot, hrow, hvalid.bound _ hrow, hvalue, rfl, rfl⟩

/-- Approvals and confirmations are only added. -/
theorem grows_after (s : ApprovalStore) (call : ApprovalCall) :
    s.approvals ⊆ (s.after P call).approvals ∧
    s.confirmations ⊆ (s.after P call).confirmations := by
  cases call with
  | confirm row =>
    show _ ⊆ (s.confirm row).approvals ∧ _ ⊆ (s.confirm row).confirmations
    unfold ApprovalStore.confirm
    split
    · exact ⟨List.Subset.refl _, List.subset_append_left _ _⟩
    · exact ⟨List.Subset.refl _, List.Subset.refl _⟩
  | create args now =>
    show _ ⊆ (s.commit (createAgentRefreshApproval P args now s)).approvals ∧
      _ ⊆ (s.commit (createAgentRefreshApproval P args now s)).confirmations
    cases hcreate : createAgentRefreshApproval P args now s with
    | error e => exact ⟨List.Subset.refl _, List.Subset.refl _⟩
    | ok out =>
      obtain ⟨approval, t⟩ := out
      rcases create_cases hcreate with ⟨rfl, -⟩ | ⟨_, _, _, -, -, -, -, -, rfl⟩
      · exact ⟨List.Subset.refl _, List.Subset.refl _⟩
      · exact ⟨List.subset_append_left _ _, List.Subset.refl _⟩
  | decide approvalId decision i actorId now =>
    show _ ⊆ (s.commit (decideAgentRefreshApproval P approvalId decision i actorId now s)).approvals ∧
      _ ⊆ (s.commit (decideAgentRefreshApproval P approvalId decision i actorId now s)).confirmations
    cases hdecide : decideAgentRefreshApproval P approvalId decision i actorId now s with
    | error e => exact ⟨List.Subset.refl _, List.Subset.refl _⟩
    | ok out =>
      obtain ⟨r, t⟩ := out
      obtain ⟨_, _, -, -, -, -, -, -, rfl⟩ := decide_cases hdecide
      exact ⟨List.Subset.refl _, List.Subset.refl _⟩

theorem StoredAs.later {approval : AgentRefreshApproval} {row : ApprovalRow} {snapshot : RefreshSnapshot}
    (h : StoredAs P s approval row snapshot) (hrun : Reached (ApprovalStore.step P) Anything s t) :
    StoredAs P t approval row snapshot := by
  induction hrun with
  | start => exact h
  | next before permitted taken ih =>
    rw [← Option.some.inj taken]
    obtain ⟨happrovals, hconfirmations⟩ := grows_after _ _
    exact ⟨happrovals ih.mem, ih.bound.mono hconfirmations, ih.normal, ih.same, ih.form⟩

/-- Where an approval that was created is found later. -/
theorem stored_later (hP : KeepsSnapshots P) (hids : Function.Injective P.uuid) (hs : Hosted P s)
    {approval : AgentRefreshApproval}
    (hcreate : createAgentRefreshApproval P args now s = .ok (approval, t)) {u : ApprovalStore}
    (hrun : Reached (ApprovalStore.step P) Anything t u) :
    u.Valid P ∧ ∃ row snapshot, StoredAs P u approval row snapshot ∧
      row.approvalId = approval.approvalId ∧ approvalRow approval.approvalId u = .ok row := by
  have hvalid := valid_of_hosted hids hs
  obtain ⟨row, snapshot, hstored⟩ := storedAs_create hP hids hvalid hcreate
  have hu : u.Valid P := by
    apply hrun.invariant (valid_create hids hvalid hcreate)
    intro a call b ha _ hstep
    rw [← Option.some.inj hstep]
    exact valid_after hids ha call
  replace hstored := hstored.later hrun
  have hid : row.approvalId = approval.approvalId := congrArg (·.approvalId) hstored.same
  refine ⟨hu, row, snapshot, hstored, hid, ?_⟩
  rw [approvalRow, require, if_pos hu.initialized, ok_bind, orThrow_ok]
  exact hu.byId.find?_eq_some.mpr ⟨hstored.mem, hid⟩

/-- An approval is what it was when it was created, in every store that later calls lead to: it is looked
up exactly if it has not expired and the normal form of its snapshot is within the bounds. -/
theorem lookup_created (hP : KeepsSnapshots P) (hids : Function.Injective P.uuid) (hs : Hosted P s)
    {approval found : AgentRefreshApproval}
    (hcreate : createAgentRefreshApproval P args now s = .ok (approval, t)) {u : ApprovalStore}
    (hrun : Reached (ApprovalStore.step P) Anything t u)
    (hshort : ApprovalIdentifier approval.approvalId) {now' : Time} :
    lookupAgentRefreshApproval P approval.approvalId now' u = .ok found ↔
      (approval.snapshot.nfc P).Bounded ∧ now' < approval.expiresAt ∧
        found = { approval with snapshot := approval.snapshot.nfc P } := by
  obtain ⟨-, row, snapshot, hstored, hid, hrow⟩ := stored_later hP hids hs hcreate hrun
  have hexpires : row.expiresAt = approval.expiresAt := congrArg (·.expiresAt) hstored.same
  have hname : requireAgentApprovalIdentifier "approval_id" approval.approvalId = .ok () :=
    requireAgentApprovalIdentifier_ok.mpr hshort
  rw [lookupAgentRefreshApproval, hname, ok_bind, hrow, ok_bind, ← hstored.form, ← hstored.same]
  simp only [bind_ok, fromRow_iff hP hstored.bound (hid ▸ hshort) hstored.normal, require_ok,
    Except.ok.injEq]
  constructor
  · rintro ⟨_, ⟨hbounded, rfl⟩, _, hlives, rfl⟩
    exact ⟨hbounded, hexpires ▸ hlives, rfl⟩
  · rintro ⟨hbounded, hlives, rfl⟩
    refine ⟨_, ⟨hbounded, rfl⟩, (), ?_, rfl⟩
    show now' < row.expiresAt
    rw [hexpires]
    exact hlives

namespace Sample

theorem bounded_postcode : (postcodeApproval.snapshot.nfc approvalPlatform).Bounded := by
  constructor <;> decide

theorem reached_decidedStore :
    Reached (ApprovalStore.step approvalPlatform) Anything approvedStore decidedStore :=
  .next .start trivial rfl

theorem lookup_postcode : lookupAgentRefreshApproval approvalPlatform "approval_0" earlyTime
    decidedStore = .ok postcodeApproval := by
  have hshort : ApprovalIdentifier postcodeApproval.approvalId := by decide
  exact (lookup_created keepsSnapshots_approvalPlatform uuid_injective (.next .start trivial rfl)
    create_sample reached_decidedStore hshort).mpr ⟨bounded_postcode, by decide, rfl⟩

end Sample

/-- The identity that an approval is compared by. -/
def AgentRefreshApproval.identity (a : AgentRefreshApproval) : ApprovalIdentity :=
  ⟨a.principal, a.capabilityScopeId, a.capabilityId, a.manifestVersion, a.profileVersion,
    a.requestFingerprint⟩

theorem validateApproval_ok {approval : AgentRefreshApproval} {u : Unit} :
    validateAgentRefreshApproval approval i now = .ok u ↔
      i = approval.identity ∧ now < approval.expiresAt := by
  simp only [validateAgentRefreshApproval, bind_ok, require_ok, AgentRefreshApproval.identity]
  constructor
  · rintro ⟨_, ⟨hprincipal, hscope⟩, _, ⟨hcapability, hmanifest, hprofile, hfp⟩, hlives⟩
    refine ⟨?_, hlives⟩
    rw [hprincipal, hscope, hcapability, hmanifest, hprofile, hfp]
  · rintro ⟨rfl, hlives⟩
    exact ⟨(), ⟨rfl, rfl⟩, (), ⟨rfl, rfl, rfl, rfl⟩, hlives⟩

end NanFung
