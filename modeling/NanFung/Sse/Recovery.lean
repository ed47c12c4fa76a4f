import NanFung.Sse.Streams

/-!
# Recovery of a turn that has ended

At its terminal event a turn is recorded with the events of it that the session's ring still has.
`recovered_iff` says when these are all: exactly if the events of the session from the turn's first one
to its last fit into a ring (`Retained`). A record never changes. `not_recovered` is a turn with more
events than a ring holds.
-/

namespace NanFung.Sse

open NanFung.Runtime Table

namespace Transport

variable {s s' : Transport} {sessionId session : SessionId} {turnId turn : TurnId}

def Live (s : Transport) (sessionId : SessionId) : Prop := (s.registry.live? s.now sessionId).isSome

theorem Live.active (h : s.Live sessionId) : (s.registry.status s.now sessionId).1 = .active :=
  SessionRegistry.status_active.mpr h

/-- Every event of the turn that was ever accepted. -/
def turnEvents (s : Transport) (sessionId : SessionId) (turnId : TurnId) : List AgentEventV1 :=
  (s.history sessionId).filter (·.turnId = turnId)

/-- The turns of the session that have a terminal event, in the order they ended. -/
def ended (s : Transport) (sessionId : SessionId) : List TurnId :=
  ((s.history sessionId).filter (·.type.isTerminal)).map (·.turnId)

/-- `recover` returns all events of the turn, the last one terminal, with the state of that event and
the artifact if there is one. -/
def Recovered (s : Transport) (sessionId : SessionId) (turnId : TurnId) : Prop :=
  ∃ e, (s.turnEvents sessionId turnId).getLast? = some e ∧ e.type.isTerminal = true ∧
    s.recover sessionId turnId = .ok {
      turnId
      state := e.terminalState
      events := s.turnEvents sessionId turnId
      artifact := ((s.turnEvents sessionId turnId).findRev? (·.type = .artifactFinal)).map (·.payload) }

/-- The events of the session from the first one of the turn to its terminal one. -/
def span (turnId : TurnId) (history : List AgentEventV1) : List AgentEventV1 :=
  let since := history.dropWhile fun e => !decide (e.turnId = turnId)
  since.take (since.findIdx (fun e => e.turnId = turnId && e.type.isTerminal) + 1)

/-- The span of the turn is within the limits of a ring. -/
def Retained (s : Transport) (sessionId : SessionId) (turnId : TurnId) : Prop :=
  Ring.Fits AgentEventV1.byteLength maxEvents maxBytes (span turnId (s.history sessionId))

/-! ## What is recorded -/

/-- The record of a turn whose terminal event is `e`, with the session's history so far. -/
def recordAt (history : List AgentEventV1) (e : AgentEventV1) : RecoveredTurn :=
  let events := (Ring.evict AgentEventV1.byteLength maxEvents maxBytes history).filter
    (·.turnId = e.turnId)
  { turnId := e.turnId
    state := e.terminalState
    events
    artifact := (events.findRev? (·.type = .artifactFinal)).map (·.payload) }

theorem bytes_comp_stored : StoredEvent.bytes ∘ stored = AgentEventV1.byteLength :=
  funext bytes_stored

/-- The ring has what its limits leave of the history. -/
theorem Ordered.events (h : s.Ordered) (sessionId : SessionId) :
    s.events sessionId = Ring.evict AgentEventV1.byteLength maxEvents maxBytes (s.history sessionId) := by
  have hmap := @Ring.evict_map _ StoredEvent.bytes maxEvents maxBytes _ stored (s.history sessionId)
  rw [bytes_comp_stored] at hmap
  show (s.rings sessionId).events.map (·.event) = _
  rw [h.rings, hmap, List.map_map, show StoredEvent.event ∘ stored = id from rfl, List.map_id]

/-- What `RecoveryStore.record` does: a record of the turn is replaced, one of the limits refuses a new
one, or a new one is added. -/
inductive Records (s : Transport) (sessionId : SessionId) (r : RecoveredTurn) : Transport → Prop
  | replaced (h : ∃ q ∈ s.recovery.records sessionId, q.turnId = r.turnId) :
    Records s sessionId r (s.setRecord sessionId r)
  | refused (registry : SessionRegistry)
      (hlive : ∀ other, registry.live? s.now other = s.registry.live? s.now other)
      (h : s.recovery.maxRecoveryRecords ≤ (s.recovery.records sessionId).length ∨ ¬s.Live sessionId ∨
        registryRecoveryRecords ≤ s.recoveryCount sessionId) :
    Records s sessionId r { s with registry }
  | added (registry : SessionRegistry)
      (hlive : ∀ other, registry.live? s.now other = s.registry.live? s.now other)
      (hnew : ∀ q ∈ s.recovery.records sessionId, q.turnId ≠ r.turnId) :
    Records s sessionId r (setRecord { s with
      registry
      recoveryCount := Function.update s.recoveryCount sessionId (s.recoveryCount sessionId + 1) }
        sessionId r)

theorem record_cases (s : Transport) (sessionId : SessionId) (r : RecoveredTurn) :
    Records s sessionId r (s.record sessionId r) := by
  unfold record
  dsimp only
  split
  · next hany =>
    obtain ⟨q, hq, hid⟩ := List.any_eq_true.mp hany
    exact .replaced ⟨q, hq, of_decide_eq_true hid⟩
  next hnone =>
  have hnew : ∀ q ∈ s.recovery.records sessionId, q.turnId ≠ r.turnId := by
    simpa using hnone
  split
  · next hfull => exact .refused s.registry (fun _ => rfl) (Or.inl hfull)
  unfold recordRecovery
  dsimp only
  split
  · next hrefused =>
    refine .refused _ (fun _ => SessionRegistry.live?_status) (Or.inr ?_)
    rcases hrefused with hstatus | hcount
    · refine Or.inl fun hlive => hstatus ?_
      exact SessionRegistry.status_active.mpr hlive
    · exact Or.inr hcount
  · exact .added _ (fun _ => SessionRegistry.live?_status) hnew

theorem recoveredTurn_eq {history : List AgentEventV1} {e : AgentEventV1}
    (h : s.events e.sessionId = Ring.evict AgentEventV1.byteLength maxEvents maxBytes history) :
    s.recoveredTurn e = recordAt history e := by
  unfold recoveredTurn recordAt
  rw [h]

/-- A turn ends: its record is added, unless the session is gone or has too many. -/
structure Ends (s s' : Transport) (event : AgentEventV1) : Prop where
  publishes : Publishes s s' event
  limit : s'.recovery.maxRecoveryRecords = s.recovery.maxRecoveryRecords
  live : ∀ id, s'.Live id ↔ s.Live id
  other : ∀ id, id ≠ event.sessionId → s'.recovery.records id = s.recovery.records id ∧
    s'.recoveryCount id = s.recoveryCount id
  turns : ∀ turn, turn ≠ event.turnId →
    (s'.recovery.records event.sessionId).find? (·.turnId = turn) =
      (s.recovery.records event.sessionId).find? (·.turnId = turn)
  added : s.Live event.sessionId →
    (s.recovery.records event.sessionId).length < s.recovery.maxRecoveryRecords →
    s.recoveryCount event.sessionId < registryRecoveryRecords →
    (∀ q ∈ s.recovery.records event.sessionId, q.turnId ≠ event.turnId) →
      s'.recovery.records event.sessionId = s.recovery.records event.sessionId ++
          [recordAt (s'.history event.sessionId) event] ∧
        s'.recoveryCount event.sessionId = s.recoveryCount event.sessionId + 1

/-- What recording a turn leaves alone. -/
theorem Records.frame {r : RecoveredTurn} (h : Records s sessionId r s') :
    s'.recovery.maxRecoveryRecords = s.recovery.maxRecoveryRecords ∧
      (∀ id, s'.Live id ↔ s.Live id) ∧
      (∀ id, id ≠ sessionId → s'.recovery.records id = s.recovery.records id ∧
        s'.recoveryCount id = s.recoveryCount id) ∧
      ∀ turn, turn ≠ r.turnId → (s'.recovery.records sessionId).find? (·.turnId = turn) =
        (s.recovery.records sessionId).find? (·.turnId = turn) := by
  have hset : ∀ turn, turn ≠ r.turnId →
      (Function.update s.recovery.records sessionId (upsert RecoveredTurn.turnId r
        (s.recovery.records sessionId)) sessionId).find? (·.turnId = turn) =
          (s.recovery.records sessionId).find? (·.turnId = turn) := fun turn hne => by
    rw [Function.update_self, find?_upsert, if_neg fun heq => hne heq.symm]
  cases h with
  | replaced =>
    exact ⟨rfl, fun _ => Iff.rfl, fun _ hne => ⟨Function.update_of_ne hne _ _, rfl⟩, hset⟩
  | refused registry hlive =>
    refine ⟨rfl, fun id => ?_, fun _ _ => ⟨rfl, rfl⟩, fun _ _ => rfl⟩
    unfold Live
    rw [← hlive]
  | added registry hlive =>
    refine ⟨rfl, fun id => ?_, fun _ hne => ⟨Function.update_of_ne hne _ _,
      Function.update_of_ne hne _ _⟩, hset⟩
    unfold Live
    rw [← hlive]
    rfl

/-- A new record is added unless a limit refuses it. -/
theorem Records.records {r : RecoveredTurn} (h : Records s sessionId r s') (hlive : s.Live sessionId)
    (hlength : (s.recovery.records sessionId).length < s.recovery.maxRecoveryRecords)
    (hcount : s.recoveryCount sessionId < registryRecoveryRecords)
    (hnew : ∀ q ∈ s.recovery.records sessionId, q.turnId ≠ r.turnId) :
    s'.recovery.records sessionId = s.recovery.records sessionId ++ [r] ∧
      s'.recoveryCount sessionId = s.recoveryCount sessionId + 1 := by
  have hupsert : upsert RecoveredTurn.turnId r (s.recovery.records sessionId) =
      s.recovery.records sessionId ++ [r] := by
    unfold upsert
    rw [if_neg]
    rintro ⟨q, hq, hid⟩
    exact hnew q hq hid
  cases h with
  | replaced hold =>
    obtain ⟨q, hq, hid⟩ := hold
    exact absurd hid (hnew q hq)
  | refused _ _ hrefused =>
    rcases hrefused with hfull | hgone | hfull
    · omega
    · exact absurd hlive hgone
    · omega
  | added =>
    refine ⟨?_, Function.update_self _ _ _⟩
    rw [← hupsert]
    exact Function.update_self _ _ _

/-- What a step does to the records. -/
inductive Keeps (s s' : Transport) : Prop
  | same (hhistory : s'.published = s.published) (hrecovery : s'.recovery = s.recovery)
      (hcount : s'.recoveryCount = s.recoveryCount) (hlive : ∀ id, s'.Live id → s.Live id)
  | created (sessionId : SessionId) (hnew : s.history sessionId = [])
      (hhistory : s'.published = s.published) (hrecovery : s'.recovery = s.recovery)
      (hcount : s'.recoveryCount = Function.update s.recoveryCount sessionId 0)
      (hlive : ∀ id, id ≠ sessionId → s'.Live id → s.Live id)
  | continues (event : AgentEventV1) (hpublishes : Publishes s s' event)
      (hplain : event.type.isTerminal = false) (hrecovery : s'.recovery = s.recovery)
      (hcount : s'.recoveryCount = s.recoveryCount) (hlive : ∀ id, s'.Live id → s.Live id)
  | ends (event : AgentEventV1) (hterminal : event.type.isTerminal = true) (h : Ends s s' event)

/-- A store, a count and a registry decide what recording a turn does. -/
theorem Records.ends {s₀ s₁ : Transport} {event : AgentEventV1} {r : RecoveredTurn}
    (hp : Publishes s s' event) (hr : Records s₀ event.sessionId r s₁)
    (hrecord : r = recordAt (s'.history event.sessionId) event)
    (hrecovery : s₀.recovery = s.recovery) (hcount : s₀.recoveryCount = s.recoveryCount)
    (hlive : ∀ id, s₀.Live id ↔ s.Live id) (hrecovery' : s'.recovery = s₁.recovery)
    (hcount' : s'.recoveryCount = s₁.recoveryCount) (hlive' : ∀ id, s'.Live id ↔ s₁.Live id) :
    Ends s s' event := by
  obtain ⟨hlimit, hgone, hother, hturns⟩ := hr.frame
  have hid : r.turnId = event.turnId := by
    rw [hrecord]
    rfl
  rw [hrecovery] at hlimit
  rw [hrecovery, hcount] at hother
  rw [hrecovery, hid] at hturns
  refine ⟨hp, hrecovery' ▸ hlimit, fun id => (hlive' id).trans ((hgone id).trans (hlive id)), ?_, ?_, ?_⟩
  · rw [hrecovery', hcount']
    exact hother
  · rw [hrecovery']
    exact hturns
  · intro hself hlength hbelow hnew
    have hadded := hr.records ((hlive _).mpr hself)
    rw [hrecovery, hcount, hid, ← hrecovery', ← hcount', hrecord] at hadded
    exact hadded hlength hbelow hnew

theorem emit_keeps {timestamp : String} {type : SseEventType} {payload : SafePayload}
    (h : s.Ordered) (hemit : s.emit timestamp sessionId turnId type payload = some s') :
    Keeps s s' := by
  have hp := emit_publishes hemit
  have hs' : s'.Ordered := h.publishes hp
  unfold emit at hemit
  split at hemit
  · exact nomatch hemit
  have heq := Option.some.inj hemit
  generalize s.nextEvent timestamp sessionId turnId type payload = event at hp heq
  obtain ⟨hrecovery', hcount', hlive', hrings'⟩ : s'.recovery = (s.accept event).recovery ∧
      s'.recoveryCount = (s.accept event).recoveryCount ∧
      (∀ id, s'.Live id ↔ (s.accept event).Live id) ∧ s'.rings = (s.accept event).rings := by
    subst heq
    exact ⟨rfl, rfl, fun _ => Iff.rfl, rfl⟩
  cases hterminal : event.type.isTerminal with
  | false =>
    have haccept : (s.accept event).recovery = s.recovery ∧
        (s.accept event).recoveryCount = s.recoveryCount ∧
        ∀ id, (s.accept event).Live id ↔ s.Live id := by
      unfold accept
      rw [hterminal, if_neg (by simp)]
      exact ⟨rfl, rfl, fun _ => Iff.rfl⟩
    exact .continues event hp hterminal (hrecovery'.trans haccept.1) (hcount'.trans haccept.2.1)
      fun id h => (haccept.2.2 id).mp ((hlive' id).mp h)
  | true =>
    refine .ends event hterminal ?_
    have haccept : ∃ s₀ : Transport, s.accept event = s₀.record event.sessionId (s₀.recoveredTurn event) ∧
        s₀.rings = s'.rings ∧ s₀.recovery = s.recovery ∧ s₀.recoveryCount = s.recoveryCount ∧
        ∀ id, s₀.Live id ↔ s.Live id := by
      refine ⟨{ s with
        sequences := Function.update s.sequences event.sessionId event.sequence
        rings := Function.update s.rings event.sessionId ((s.rings event.sessionId).append event)
        published := s.published ++ [event]
        terminals := s.terminals ++ [terminalKey event.sessionId event.turnId] }, ?_, hp.rings.symm,
          rfl, rfl, fun _ => Iff.rfl⟩
      unfold accept
      rw [hterminal, if_pos rfl]
    obtain ⟨s₀, haccept, hrings, hrecovery, hcount, hlive⟩ := haccept
    have hrecord : s₀.recoveredTurn event = recordAt (s'.history event.sessionId) event := by
      apply recoveredTurn_eq
      show (s₀.rings event.sessionId).replay none = _
      rw [hrings]
      exact hs'.events event.sessionId
    have hr : Records s₀ event.sessionId (s₀.recoveredTurn event) (s.accept event) :=
      haccept ▸ record_cases s₀ event.sessionId _
    exact hr.ends hp hrecord hrecovery hcount hlive hrecovery' hcount' hlive'

/-- A session that is live after a call of the registry was live before it. -/
theorem live_of_touch (h : ({ s with registry := s.registry.touch s.now sessionId } : Transport).Live
    session) : s.Live session := by
  unfold Live at h ⊢
  by_cases hsession : session = sessionId
  · subst hsession
    obtain ⟨state, hstate⟩ := Option.isSome_iff_exists.mp h
    obtain ⟨before, hbefore, _⟩ := SessionRegistry.live?_touch hstate
    exact hbefore ▸ rfl
  · rwa [SessionRegistry.live?_touch_of_ne hsession] at h

theorem live_of_reserveTurn
    (h : ({ s with registry := (s.registry.reserveTurn s.now sessionId).2 } : Transport).Live session) :
    s.Live session := by
  unfold Live at h ⊢
  rcases hreserve : s.registry.reserveTurn s.now sessionId with ⟨_ | _, registry⟩ <;> rw [hreserve] at h
  · rwa [SessionRegistry.live?_of_reserveTurn_error hreserve] at h
  · obtain ⟨_, _, _, _, hlive⟩ := SessionRegistry.reserveTurn_ok hreserve
    rw [hlive] at h
    split at h
    · next hsession =>
      rw [hsession]
      simpa using h
    · exact h

theorem step_keeps {a : Action} (hs : s.Ordered) (h : s.step a = some s') : Keeps s s' := by
  cases a with
  | tick ms =>
    cases h
    refine .same rfl rfl rfl fun id h => ?_
    obtain ⟨state, hstate⟩ := Option.isSome_iff_exists.mp h
    exact Option.isSome_iff_exists.mpr
      ⟨state, SessionRegistry.live?_of_later (Nat.le_add_right _ ms) hstate⟩
  | touch sessionId =>
    cases h
    exact .same rfl rfl rfl fun id => live_of_touch
  | status sessionId =>
    cases h
    refine .same rfl rfl rfl fun id h => ?_
    unfold Live at h ⊢
    rwa [SessionRegistry.live?_status] at h
  | reserveTurn sessionId =>
    cases h
    exact .same rfl rfl rfl fun id => live_of_reserveTurn
  | releaseTurn sessionId =>
    cases h
    refine .same rfl rfl rfl fun id h => ?_
    unfold Live at h ⊢
    rw [SessionRegistry.live?_releaseTurn] at h
    split at h
    · next hsession =>
      rw [hsession]
      simpa using h
    · exact h
  | closeSession sessionId =>
    cases h
    refine .same rfl rfl rfl fun id h => ?_
    unfold Live at h ⊢
    rw [SessionRegistry.live?_close] at h
    split at h
    · cases h
    · exact h
  | createSession sessionId principal scopeId =>
    simp only [step] at h
    split at h
    · next hnew =>
      obtain ⟨registry, hregistry, heq⟩ := Option.bind_eq_some_iff.mp h
      cases heq
      refine .created sessionId ?_ rfl rfl rfl fun id hne h => ?_
      · exact List.filter_eq_nil_iff.mpr fun e he => by simpa using hnew.2 e he
      · unfold Live at h ⊢
        rwa [SessionRegistry.live?_createSession hregistry, if_neg hne] at h
    · cases h
  | emit timestamp sessionId turnId type payload =>
    cases h
    cases hemit : s.emit timestamp sessionId turnId type payload with
    | none => exact .same rfl rfl rfl fun _ => id
    | some s₁ => exact emit_keeps hs hemit
  | attach sessionId lastEventId accepts =>
    cases h
    unfold attach
    dsimp only
    have hlive : ∀ id, (({ s with registry := (s.registry.status s.now sessionId).2 } : Transport).Live
        id) → s.Live id := fun id h => by
      unfold Live at h ⊢
      rwa [SessionRegistry.live?_status] at h
    split
    · exact .same rfl rfl rfl hlive
    · split
      · exact .same rfl rfl rfl hlive
      · exact .same rfl rfl rfl hlive
  | drain | detach | close =>
    cases h
    exact .same rfl rfl rfl fun _ => id

/-! ## What holds in every run -/

theorem ended_publishes {event : AgentEventV1} (hp : Publishes s s' event) :
    s'.ended sessionId = if event.sessionId = sessionId ∧ event.type.isTerminal = true then
      s.ended sessionId ++ [event.turnId] else s.ended sessionId := by
  unfold ended
  rw [hp.history]
  by_cases hsession : event.sessionId = sessionId
  · by_cases hterminal : event.type.isTerminal = true
    · simp [hsession, hterminal]
    · simp [hsession, hterminal]
  · simp [hsession]

/-- A turn that has ended accepts no more events. -/
theorem Publishes.not_mem_ended {event : AgentEventV1} (h : s.Ordered) (hp : Publishes s s' event) :
    event.turnId ∉ s.ended event.sessionId := by
  intro hmem
  obtain ⟨e, he, hturn⟩ := List.mem_map.mp hmem
  obtain ⟨he, hterminal⟩ := List.mem_filter.mp he
  obtain ⟨he, hsession⟩ := List.mem_filter.mp he
  have hkey := h.terminals e he hterminal
  rw [hturn, of_decide_eq_true hsession] at hkey
  exact hp.fresh hkey

/-- The record of a turn is the one that was made at its terminal event. -/
def Genuine (history : List AgentEventV1) (r : RecoveredTurn) : Prop :=
  ∃ before e after, history = before ++ e :: after ∧ e.type.isTerminal = true ∧
    r = recordAt (before ++ [e]) e

theorem Genuine.append {history : List AgentEventV1} {r : RecoveredTurn} (h : Genuine history r)
    (event : AgentEventV1) : Genuine (history ++ [event]) r := by
  obtain ⟨before, e, after, rfl, hterminal, rfl⟩ := h
  exact ⟨before, e, after ++ [event], by simp, hterminal, rfl⟩

/-- A live session within the limit has a record of each turn that has ended. -/
structure Filed (s : Transport) : Prop where
  limit : s.recovery.maxRecoveryRecords = registryRecoveryRecords
  empty : ∀ sessionId, s.history sessionId = [] → s.recovery.records sessionId = []
  turns : ∀ sessionId, s.Live sessionId → (s.ended sessionId).length ≤ registryRecoveryRecords →
    (s.recovery.records sessionId).map (·.turnId) = s.ended sessionId
  count : ∀ sessionId, s.Live sessionId → (s.ended sessionId).length ≤ registryRecoveryRecords →
    s.recoveryCount sessionId = (s.ended sessionId).length
  genuine : ∀ sessionId, s.Live sessionId → (s.ended sessionId).length ≤ registryRecoveryRecords →
    ∀ r ∈ s.recovery.records sessionId, Genuine (s.history sessionId) r

theorem Filed.init : Filed {} where
  limit := rfl
  empty _ _ := rfl
  turns _ h := nomatch h
  count _ h := nomatch h
  genuine _ h := nomatch h

/-- Sessions that are as they were, but for events that end no turn. -/
theorem Filed.unaffected (h : s.Filed) (hlive : s'.Live sessionId → s.Live sessionId)
    (hended : s'.ended sessionId = s.ended sessionId)
    (hrecords : s'.recovery.records sessionId = s.recovery.records sessionId)
    (hcount : s'.recoveryCount sessionId = s.recoveryCount sessionId)
    (hgenuine : ∀ r, Genuine (s.history sessionId) r → Genuine (s'.history sessionId) r)
    (h' : s'.Live sessionId) (hle : (s'.ended sessionId).length ≤ registryRecoveryRecords) :
    (s'.recovery.records sessionId).map (·.turnId) = s'.ended sessionId ∧
      s'.recoveryCount sessionId = (s'.ended sessionId).length ∧
      ∀ r ∈ s'.recovery.records sessionId, Genuine (s'.history sessionId) r := by
  rw [hended] at hle ⊢
  rw [hrecords, hcount]
  exact ⟨h.turns _ (hlive h') hle, h.count _ (hlive h') hle,
    fun r hr => hgenuine r (h.genuine _ (hlive h') hle r hr)⟩

theorem Filed.of_sessions (hlimit : s.recovery.maxRecoveryRecords = registryRecoveryRecords)
    (hempty : ∀ sessionId, s.history sessionId = [] → s.recovery.records sessionId = [])
    (h : ∀ sessionId, s.Live sessionId → (s.ended sessionId).length ≤ registryRecoveryRecords →
      (s.recovery.records sessionId).map (·.turnId) = s.ended sessionId ∧
        s.recoveryCount sessionId = (s.ended sessionId).length ∧
        ∀ r ∈ s.recovery.records sessionId, Genuine (s.history sessionId) r) : s.Filed :=
  ⟨hlimit, hempty, fun sid hl hle => (h sid hl hle).1, fun sid hl hle => (h sid hl hle).2.1,
    fun sid hl hle => (h sid hl hle).2.2⟩

theorem ended_congr (h : s'.published = s.published) : s'.ended sessionId = s.ended sessionId := by
  rw [ended, ended, history_congr h]

theorem Filed.keeps (h : s.Filed) (hs : s.Ordered) (hk : Keeps s s') : s'.Filed := by
  cases hk with
  | same hhistory hrecovery hcount hlive =>
    refine .of_sessions (hrecovery ▸ h.limit) (fun sid => ?_) fun sid => ?_
    · rw [history_congr hhistory, hrecovery]
      exact h.empty sid
    · exact h.unaffected (hlive sid) (ended_congr hhistory) (by rw [hrecovery]) (by rw [hcount])
        fun r => by
          rw [history_congr hhistory]
          exact id
  | created sid hnew hhistory hrecovery hcount hlive =>
    refine .of_sessions (hrecovery ▸ h.limit) (fun sid' => ?_) fun sid' hl hle => ?_
    · rw [history_congr hhistory, hrecovery]
      exact h.empty sid'
    · by_cases hsession : sid' = sid
      · subst hsession
        -- a new session has no events and no records
        have hended : s'.ended sid' = [] := by
          rw [ended_congr hhistory, ended, hnew]
          rfl
        rw [hended, hrecovery, h.empty sid' hnew, hcount, Function.update_self]
        exact ⟨rfl, rfl, fun r hr => nomatch hr⟩
      · refine h.unaffected (hlive sid' hsession) (ended_congr hhistory) (by rw [hrecovery]) ?_ ?_ hl hle
        · rw [hcount, Function.update_of_ne hsession]
        · rw [history_congr hhistory]
          exact fun r => id
  | continues event hp hplain hrecovery hcount hlive =>
    have hhistory : ∀ sid r, Genuine (s.history sid) r → Genuine (s'.history sid) r := by
      intro sid r hr
      rw [hp.history]
      split
      · exact hr.append event
      · exact hr
    refine .of_sessions (hrecovery ▸ h.limit) (fun sid hnil => ?_) fun sid => ?_
    · rw [hrecovery]
      apply h.empty
      rw [hp.history] at hnil
      split at hnil
      · simp at hnil
      · exact hnil
    · have hended : s'.ended sid = s.ended sid := by
        rw [ended_publishes hp, if_neg (by simp [hplain])]
      exact h.unaffected (hlive sid) hended (by rw [hrecovery]) (by rw [hcount]) (hhistory sid)
  | ends event hterminal he =>
    have hp := he.publishes
    have hhistory : ∀ sid r, Genuine (s.history sid) r → Genuine (s'.history sid) r := by
      intro sid r hr
      rw [hp.history]
      split
      · exact hr.append event
      · exact hr
    refine .of_sessions (he.limit.trans h.limit) (fun sid hnil => ?_) fun sid hl hle => ?_
    · rw [hp.history] at hnil
      split at hnil
      · simp at hnil
      · next hsession =>
        rw [(he.other sid fun heq => hsession heq.symm).1]
        exact h.empty sid hnil
    · by_cases hsession : sid = event.sessionId
      · subst hsession
        have hended := @ended_publishes s s' event.sessionId event hp
        rw [if_pos ⟨rfl, hterminal⟩] at hended
        rw [hended, List.length_append, List.length_singleton] at hle
        have hl := (he.live _).mp hl
        have hturns := h.turns _ hl (by omega)
        have hcount := h.count _ hl (by omega)
        have hlength : (s.recovery.records event.sessionId).length = (s.ended event.sessionId).length := by
          rw [← hturns, List.length_map]
        have hnew : ∀ q ∈ s.recovery.records event.sessionId, q.turnId ≠ event.turnId := by
          intro q hq hid
          apply hp.not_mem_ended hs
          rw [← hturns, ← hid]
          exact List.mem_map_of_mem hq
        obtain ⟨hrecords, hcount'⟩ := he.added hl (by rw [h.limit]; omega) (by omega) hnew
        rw [hrecords, hcount', hended, List.map_append, hturns, hcount]
        refine ⟨rfl, by simp, fun r hr => ?_⟩
        rcases List.mem_append.mp hr with hr | hr
        · exact hhistory _ r (h.genuine _ hl (by omega) r hr)
        · obtain rfl := List.mem_singleton.mp hr
          refine ⟨s.history event.sessionId, event, [], ?_, hterminal, ?_⟩
          · rw [hp.history, if_pos rfl]
          · rw [hp.history, if_pos rfl]
      · obtain ⟨hrecords, hcount⟩ := he.other sid hsession
        refine h.unaffected (he.live sid).mp ?_ hrecords hcount (hhistory sid) hl hle
        rw [ended_publishes hp, if_neg fun hand => hsession hand.1.symm]

/-! ## When a record is complete -/

/-- The span of a turn ends with its terminal event. -/
theorem span_eq {before after : List AgentEventV1} {e : AgentEventV1} (hturn : e.turnId = turnId)
    (hterminal : e.type.isTerminal = true)
    (hbefore : ∀ x ∈ before, x.turnId = turnId → x.type.isTerminal = false) :
    span turnId (before ++ e :: after) =
      (before ++ [e]).dropWhile fun x => !decide (x.turnId = turnId) := by
  have hsplit : (before ++ e :: after).dropWhile (fun x => !decide (x.turnId = turnId)) =
      (before.dropWhile fun x => !decide (x.turnId = turnId)) ++ e :: after := by
    rw [List.dropWhile_append]
    split
    · next hempty => simp [List.isEmpty_iff.mp hempty, hturn]
    · rfl
  have hone : (before ++ [e]).dropWhile (fun x => !decide (x.turnId = turnId)) =
      (before.dropWhile fun x => !decide (x.turnId = turnId)) ++ [e] := by
    rw [List.dropWhile_append]
    split
    · next hempty => simp [List.isEmpty_iff.mp hempty, hturn]
    · rfl
  have hfind : List.findIdx (fun x : AgentEventV1 => decide (x.turnId = turnId) && x.type.isTerminal)
      ((before.dropWhile fun x => !decide (x.turnId = turnId)) ++ e :: after) =
        (before.dropWhile fun x => !decide (x.turnId = turnId)).length := by
    have hnone : ∀ x ∈ before.dropWhile (fun x => !decide (x.turnId = turnId)),
        (decide (x.turnId = turnId) && x.type.isTerminal) = false := by
      intro x hx
      by_cases hid : x.turnId = turnId
      · simp [hid, hbefore x ((List.dropWhile_sublist _).subset hx) hid]
      · simp [hid]
    rw [List.findIdx_append, List.findIdx_eq_length_of_false hnone, if_neg (lt_irrefl _)]
    simp [List.findIdx_cons, hturn, hterminal]
  unfold span
  dsimp only
  rw [hsplit, hfind, hone, List.take_length_add_append]
  rfl

/-- The events before the terminal one are of the turn and not terminal, or of another turn; those
after it are of another. -/
theorem Ordered.split (h : s.Ordered) {before after : List AgentEventV1} {e : AgentEventV1}
    (hhistory : s.history sessionId = before ++ e :: after) (hterminal : e.type.isTerminal = true) :
    (∀ x ∈ before, x.turnId = e.turnId → x.type.isTerminal = false) ∧
      ∀ x ∈ after, x.turnId ≠ e.turnId := by
  have hsession : ∀ x ∈ before ++ e :: after, x.sessionId = sessionId := fun x hx => by
    rw [← hhistory] at hx
    exact of_decide_eq_true (List.mem_filter.mp hx).2
  have hsilent : (before ++ e :: after).Pairwise fun e f =>
      e.type.isTerminal = true → f.isOf e.sessionId e.turnId = false := by
    rw [← hhistory]
    exact h.silent.filter _
  obtain ⟨_, hcons, hacross⟩ := List.pairwise_append.mp hsilent
  have he := hsession e (by simp)
  constructor
  · intro x hx hturn
    by_contra hnot
    have hof := hacross x hx e List.mem_cons_self (by simpa using hnot)
    simp [AgentEventV1.isOf, hturn, he, hsession x (List.mem_append_left _ hx)] at hof
  · intro x hx hturn
    have hof := (List.pairwise_cons.mp hcons).1 x hx hterminal
    have hx' := hsession x (List.mem_append_right _ (List.mem_cons_of_mem _ hx))
    simp [AgentEventV1.isOf, hturn, he, hx'] at hof

/-- The record of a turn that has ended. -/
theorem Filed.find (h : s.Filed) (hlive : s.Live sessionId) (hended : turnId ∈ s.ended sessionId)
    (hlimit : (s.ended sessionId).length ≤ registryRecoveryRecords) :
    ∃ before e after, s.history sessionId = before ++ e :: after ∧ e.type.isTerminal = true ∧
      e.turnId = turnId ∧ s.recover sessionId turnId = .ok (recordAt (before ++ [e]) e) := by
  have hturns := h.turns _ hlive hlimit
  rw [← hturns] at hended
  obtain ⟨q, hq, hid⟩ := List.mem_map.mp hended
  have hsome : ((s.recovery.records sessionId).find? (·.turnId = turnId)).isSome :=
    List.find?_isSome.mpr ⟨q, hq, by simp [hid]⟩
  obtain ⟨r, hr⟩ := Option.isSome_iff_exists.mp hsome
  obtain ⟨before, e, after, hhistory, hterminal, rfl⟩ :=
    h.genuine _ hlive hlimit r (List.mem_of_find?_eq_some hr)
  refine ⟨before, e, after, hhistory, hterminal, by simpa [recordAt] using List.find?_some hr, ?_⟩
  unfold recover
  rw [if_neg (not_not.mpr hlive.active), hr]

theorem recovered_iff (h : s.Ordered) (hf : s.Filed) (hlive : s.Live sessionId)
    (hended : turnId ∈ s.ended sessionId)
    (hlimit : (s.ended sessionId).length ≤ registryRecoveryRecords) :
    s.Recovered sessionId turnId ↔ s.Retained sessionId turnId := by
  obtain ⟨before, e, after, hhistory, hterminal, hturn, hrecover⟩ := hf.find hlive hended hlimit
  obtain ⟨hbefore, hafter⟩ := h.split hhistory hterminal
  rw [hturn] at hbefore hafter
  have hevents : s.turnEvents sessionId turnId = (before ++ [e]).filter (·.turnId = turnId) := by
    have hnone : after.filter (·.turnId = turnId) = [] :=
      List.filter_eq_nil_iff.mpr fun x hx => by simpa using hafter x hx
    rw [turnEvents, hhistory, List.append_cons, List.filter_append, hnone, List.append_nil]
  have hlast : (s.turnEvents sessionId turnId).getLast? = some e := by
    rw [hevents, List.filter_append]
    simp [hturn]
  have hretained : s.Retained sessionId turnId ↔
      (recordAt (before ++ [e]) e).events = s.turnEvents sessionId turnId := by
    rw [Retained, hhistory, span_eq hturn hterminal hbefore, hevents, ← hturn]
    exact (Ring.filter_evict_iff _ _).symm
  rw [hretained]
  constructor
  · rintro ⟨e', hlast', _, hrecovered⟩
    have heq := Except.ok.inj (hrecover.symm.trans hrecovered)
    rw [heq]
  · intro hcomplete
    refine ⟨e, hlast, hterminal, hrecover.trans (congrArg Except.ok ?_)⟩
    rw [← hcomplete]
    simp [recordAt, hturn]

/-- The record of a turn that has ended stays as it is. -/
theorem Keeps.find? (h : Keeps s s') (hs : s.Ordered) (hended : turnId ∈ s.ended sessionId) :
    turnId ∈ s'.ended sessionId ∧
      (s'.recovery.records sessionId).find? (·.turnId = turnId) =
        (s.recovery.records sessionId).find? (·.turnId = turnId) := by
  cases h with
  | same hhistory hrecovery | created _ _ hhistory hrecovery =>
    rw [ended_congr hhistory, hrecovery]
    exact ⟨hended, rfl⟩
  | continues event hp hplain hrecovery =>
    rw [ended_publishes hp, if_neg (by simp [hplain]), hrecovery]
    exact ⟨hended, rfl⟩
  | ends event hterminal he =>
    constructor
    · rw [ended_publishes he.publishes]
      split
      · exact List.mem_append_left _ hended
      · exact hended
    · by_cases hsession : sessionId = event.sessionId
      · subst hsession
        refine he.turns turnId fun hturn => he.publishes.not_mem_ended hs ?_
        rw [← hturn]
        exact hended
      · rw [(he.other sessionId hsession).1]

end Transport

theorem Run.filed {s : Transport} (h : Run s) : s.Filed := by
  refine Reached.invariant_of (I := Transport.Ordered) (J := Transport.Filed) (fun _ => Run.ordered)
    .init ?_ h
  exact fun s a t hordered hfiled _ hstep => hfiled.keeps hordered (Transport.step_keeps hordered hstep)

/-- A turn that has ended is recovered in full exactly if its span fits into a ring, and what is
recovered never changes. -/
theorem turns_recovered {s : Transport} (h : Run s) {sessionId : SessionId} {turnId : TurnId}
    (hlive : s.Live sessionId) (hended : turnId ∈ s.ended sessionId)
    (hlimit : (s.ended sessionId).length ≤ registryRecoveryRecords) :
    (s.Recovered sessionId turnId ↔ s.Retained sessionId turnId) ∧
      ∀ later, Reached Transport.step Anything s later → later.Live sessionId →
        later.recover sessionId turnId = s.recover sessionId turnId := by
  refine ⟨Transport.recovered_iff (Run.ordered h) (Run.filed h) hlive hended hlimit,
    fun later hlater hlive' => ?_⟩
  have hkept : later.Ordered ∧ turnId ∈ later.ended sessionId ∧
      (later.recovery.records sessionId).find? (·.turnId = turnId) =
        (s.recovery.records sessionId).find? (·.turnId = turnId) := by
    refine Reached.invariant (I := fun t : Transport => t.Ordered ∧ turnId ∈ t.ended sessionId ∧
      (t.recovery.records sessionId).find? (·.turnId = turnId) =
        (s.recovery.records sessionId).find? (·.turnId = turnId)) ⟨Run.ordered h, hended, rfl⟩ ?_ hlater
    rintro t a t' ⟨hordered, hmem, hfind⟩ _ hstep
    obtain ⟨hmem', hfind'⟩ := (Transport.step_keeps hordered hstep).find? hordered hmem
    exact ⟨hordered.moves (Transport.step_moves hstep), hmem', hfind'.trans hfind⟩
  unfold Transport.recover
  rw [if_neg (not_not.mpr hlive'.active), if_neg (not_not.mpr hlive.active), hkept.2.2]

/-- A turn that ends, and another one after it. -/
def endedRun : List Action :=
  [.createSession "s" "anonymous" "scope", .emit "t1" "s" "a" .turnStarted [],
    .emit "t2" "s" "a" .artifactFinal [("artifact", .null)],
    .emit "t3" "s" "a" .turnCompleted [("terminal_state", .str "completed")],
    .emit "t4" "s" "b" .turnStarted []]

theorem turns_recovered_endedRun :
    ∃ s, replay Transport.step {} endedRun = some s ∧ (s.Recovered "s" "a" ↔ s.Retained "s" "a") ∧
      ∀ later, Reached Transport.step Anything s later → later.Live "s" →
        later.recover "s" "a" = s.recover "s" "a" := by
  have hrun : (replay Transport.step {} endedRun).any (fun s =>
      (s.registry.live? s.now "s").isSome && decide ("a" ∈ s.ended "s") &&
        decide ((s.ended "s").length ≤ registryRecoveryRecords)) = true := by decide
  obtain ⟨s, hs, hfacts⟩ := Option.any_eq_true _ _ |>.mp hrun
  simp only [Bool.and_eq_true, decide_eq_true_eq] at hfacts
  have hreached : Run s := Reached.start.replay (permitted_anything _ _) hs
  exact ⟨s, hs, turns_recovered hreached hfacts.1.1 hfacts.1.2 hfacts.2⟩

/-! ## A turn with too many events -/

namespace Transport

variable {s s' : Transport}

theorem live_of_emit {timestamp : String} {type : SseEventType} {payload : SafePayload}
    {sessionId : SessionId} {turnId : TurnId} {id : SessionId}
    (hemit : s.emit timestamp sessionId turnId type payload = some s') (hlive : s.Live id) :
    s'.Live id := by
  unfold emit at hemit
  split at hemit
  · exact nomatch hemit
  obtain rfl := Option.some.inj hemit
  show (s.accept _).Live id
  unfold accept
  dsimp only
  split
  · exact ((record_cases _ _ _).frame.2.1 id).mpr hlive
  · exact hlive

/-- A turn of a live session that goes on. -/
structure Streaming (s : Transport) (n : Nat) : Prop where
  live : s.Live "s"
  terminals : s.terminals = []
  length : (s.history "s").length = n
  only : ∀ e ∈ s.history "s", e.turnId = "a"

/-- One more delta, or the end of the turn. -/
theorem Streaming.emit {n : Nat} (h : s.Streaming n) (type : SseEventType) :
    ∃ s', s.step (.emit "t" "s" "a" type []) = some s' ∧
      Publishes s s' (s.nextEvent "t" "s" "a" type []) ∧ s'.Live "s" := by
  cases hemit : s.emit "t" "s" "a" type [] with
  | none =>
    unfold Transport.emit at hemit
    rw [h.terminals, if_neg (by simp)] at hemit
    exact nomatch hemit
  | some s' =>
    refine ⟨s', ?_, emit_publishes hemit, live_of_emit hemit h.live⟩
    show some ((s.emit "t" "s" "a" type []).getD s) = some s'
    rw [hemit]
    rfl

theorem Streaming.deltas {n : Nat} (h : s.Streaming n) (hrun : Run s) (m : Nat) :
    ∃ s', Run s' ∧ s'.Streaming (n + m) := by
  induction m with
  | zero => exact ⟨s, hrun, h⟩
  | succ m ih =>
    obtain ⟨t, ht, hstreaming⟩ := ih
    obtain ⟨t', hstep, hp, hlive⟩ := hstreaming.emit .messageDelta
    have hhistory : t'.history "s" = t.history "s" ++ [t.nextEvent "t" "s" "a" .messageDelta []] :=
      hp.history.trans (if_pos rfl)
    refine ⟨t', ht.next trivial hstep, hlive, hp.terminals.trans hstreaming.terminals, ?_, ?_⟩
    · rw [hhistory, List.length_append, hstreaming.length]
      rfl
    · intro e he
      rw [hhistory] at he
      rcases List.mem_append.mp he with he | he
      · exact hstreaming.only e he
      · obtain rfl := List.mem_singleton.mp he
        rfl

end Transport

/-- A turn with 256 deltas and a terminal event has one event more than a ring. -/
theorem not_recovered : ¬∀ s, Run s → ∀ sessionId turnId, s.Live sessionId →
    turnId ∈ s.ended sessionId → (s.ended sessionId).length ≤ maxTurns →
      s.Recovered sessionId turnId := by
  intro h
  have hcreated : (Transport.step {} (.createSession "s" "anonymous" "scope")).any (fun s =>
      (s.registry.live? s.now "s").isSome && decide (s.terminals = []) &&
        decide (s.published = [])) = true := by decide
  obtain ⟨s₀, hs₀, hfacts⟩ := Option.any_eq_true _ _ |>.mp hcreated
  simp only [Bool.and_eq_true, decide_eq_true_eq] at hfacts
  have hhistory₀ : s₀.history "s" = [] := by
    rw [Transport.history, hfacts.2]
    rfl
  have hstart : s₀.Streaming 0 := ⟨hfacts.1.1, hfacts.1.2, by rw [hhistory₀]; rfl, by simp [hhistory₀]⟩
  obtain ⟨s₁, hs₁, hstreaming⟩ := hstart.deltas (.next .start trivial hs₀) 256
  obtain ⟨s₂, hstep, hp, hlive⟩ := hstreaming.emit .turnFailed
  have hs₂ : Run s₂ := hs₁.next trivial hstep
  have hhistory : s₂.history "s" = s₁.history "s" ++ [s₁.nextEvent "t" "s" "a" .turnFailed []] :=
    hp.history.trans (if_pos rfl)
  have hended₁ : s₁.ended "s" = [] := by
    have hnone := (Run.ordered hs₁).terminals
    rw [Transport.ended, List.map_eq_nil_iff]
    refine List.filter_eq_nil_iff.mpr fun e he hterminal => ?_
    have := hnone e (List.mem_filter.mp he).1 hterminal
    rw [hstreaming.terminals] at this
    cases this
  have hended : s₂.ended "s" = ["a"] := by
    rw [Transport.ended_publishes hp, if_pos ⟨rfl, rfl⟩, hended₁]
    rfl
  have hrecovered := h s₂ hs₂ "s" "a" hlive (by simp [hended]) (by simp [hended, maxTurns])
  have hretained := (Transport.recovered_iff (Run.ordered hs₂) (Run.filed hs₂) hlive
    (by simp [hended]) (by simp [hended, registryRecoveryRecords])).mp hrecovered
  have hopen : ∀ x ∈ s₁.history "s", x.turnId = "a" → x.type.isTerminal = false := by
    intro x hx _
    by_contra hnot
    have := (Run.ordered hs₁).terminals x (List.mem_filter.mp hx).1 (by simpa using hnot)
    rw [hstreaming.terminals] at this
    cases this
  -- every event is one of the turn, so its span is the whole history
  have hlast : (s₁.nextEvent "t" "s" "a" .turnFailed []).turnId = "a" := rfl
  rw [Transport.Retained, hhistory, Transport.span_eq hlast rfl hopen] at hretained
  have hall : (s₁.history "s" ++ [s₁.nextEvent "t" "s" "a" .turnFailed []]).dropWhile
      (fun x => !decide (x.turnId = "a")) =
        s₁.history "s" ++ [s₁.nextEvent "t" "s" "a" .turnFailed []] := by
    rw [List.dropWhile_eq_self_iff]
    intro hpos
    have hmem := List.getElem_mem hpos
    rcases List.mem_append.mp hmem with he | he
    · simp [hstreaming.only _ he]
    · rw [List.mem_singleton.mp he]
      simp [Transport.nextEvent]
  rw [hall] at hretained
  have hcount := hretained.1
  rw [List.length_append, hstreaming.length, List.length_singleton, maxEvents] at hcount
  omega

end NanFung.Sse
