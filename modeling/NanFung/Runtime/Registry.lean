import NanFung.Lib.Dict
import NanFung.Lib.Runs
import NanFung.Runtime.Generations
import NanFung.Runtime.Sessions

/-!
# Safety of the session registry

`SessionRegistry` of `sessions.ts` with what its callers give it and get from it: bearers, explicit
scopes, the ids of a generation. An idle session is found when a call looks at it or when a session
is created; until then it stands in the map. The runs are the calls in any order, and what has
happened is read off their log.
-/

namespace NanFung.Runtime

open Base64

def maxRecoveryRecords : Nat := 32

structure Session where
  principal : String
  scopeId : String
  bearerHash : String
  expiresAtMs : Nat
  activeTurn : Bool := false
  turnCount : Nat := 0
  recoveryCount : Nat := 0
  deriving DecidableEq, Repr

structure Registry where
  generationKey : Bytes
  maxSessions : Nat := 8
  sessions : Dict SessionId Session := []
  keyed : sessions.keys.Nodup := by exact List.nodup_nil
  expiredSessionIds : List SessionId := []
  usedScopeIds : List String := []

/-- What `createSession` draws: bytes for a scope, for the bearer and for the nonce of the id. -/
structure RandomBytes where
  scope : Bytes
  bearer : Bytes
  nonce : Bytes
  nonce_length : nonce.length = 16

structure CreateSessionOptions where
  principal : String
  explicitScopeId : Option String := none
  deriving DecidableEq, Repr

/-- What `createSession` returns. -/
structure NewSession where
  id : SessionId
  scopeId : String
  bearerHash : String
  bearer : String
  expiresAtMs : Nat
  deriving DecidableEq, Repr

inductive Creation where
  | created (session : NewSession)
  | sessionLimit
  /-- `ScopeReusedError` -/
  | scopeReused (scopeId : String)
  deriving DecidableEq, Repr

inductive Authentication where
  | ok
  | unauthenticated | expired | gone
  deriving DecidableEq, Repr

inductive FoundSession where
  | active (session : Session)
  | expired
  | gone
  deriving DecidableEq, Repr

/-! ## The operations -/

namespace Registry

section

variable (crypto : Crypto) (r : Registry) (now later : Nat) (id : SessionId)

/-- `#sessions.delete` -/
def close : Registry :=
  { r with
    sessions := r.sessions.erase id
    keyed := r.keyed.sublist (List.filter_sublist.map _) }

/-- `#sessions.delete` and `#expiredSessionIds.add`. -/
def expire : Registry := { r.close id with expiredSessionIds := r.expiredSessionIds ++ [id] }

/-- `#sessions.set` -/
def setSession (session : Session) : Registry :=
  { r with
    sessions := r.sessions.set id session
    keyed := Dict.keys_set_nodup r.keyed }

/-- `#activeSession` -/
def activeSession : FoundSession × Registry :=
  if isCurrentGenerationId crypto r.generationKey id then
    match r.sessions.get? id with
    | none => (if id ∈ r.expiredSessionIds then .expired else .gone, r)
    | some session =>
      if session.expiresAtMs ≤ now then (.expired, r.expire id) else (.active session, r)
  else (.gone, r)

/-- `#expireIdleSessions` -/
def expireIdleSessions : Registry :=
  { r with
    sessions := r.sessions.filter fun e => now < e.2.expiresAtMs
    keyed := r.keyed.sublist (List.filter_sublist.map _)
    expiredSessionIds :=
      r.expiredSessionIds ++ (r.sessions.filter fun e => e.2.expiresAtMs ≤ now).map Prod.fst }

/-- `createSession`, which reads the clock for the sessions that are idle and for the deadline of the
new one. -/
def createSession (options : CreateSessionOptions) (random : RandomBytes) : Creation × Registry :=
  let r := r.expireIdleSessions now
  if r.maxSessions ≤ r.sessions.length then (.sessionLimit, r)
  else
    let scopeId := options.explicitScopeId.getD ("scope_" ++ String.ofList (encode random.scope))
    if scopeId ∈ r.usedScopeIds then (.scopeReused scopeId, r)
    else
      let bearer := String.ofList (encode random.bearer)
      let bearerHash := crypto.hashBearer bearer
      let id := mintId crypto r.generationKey random.nonce
      let expiresAtMs := later + idleTimeoutMs
      let session := { principal := options.principal, scopeId, bearerHash, expiresAtMs }
      (.created { id, scopeId, bearerHash, bearer, expiresAtMs },
        { r with usedScopeIds := r.usedScopeIds ++ [scopeId] }.setSession id session)

def authenticate (bearer : String) : Authentication × Registry :=
  let p := r.activeSession crypto now id
  match p.1 with
  | .gone => (.gone, p.2)
  | .expired => (.expired, p.2)
  | .active session =>
    (if session.bearerHash = crypto.hashBearer bearer then .ok else .unauthenticated, p.2)

def status : SessionStatus × Registry :=
  let p := r.activeSession crypto now id
  match p.1 with
  | .gone => (.gone, p.2)
  | .expired => (.expired, p.2)
  | .active _ => (.active, p.2)

def touch : Bool × Registry :=
  let p := r.activeSession crypto now id
  match p.1 with
  | .active session =>
    (true, p.2.setSession id { session with expiresAtMs := later + idleTimeoutMs })
  | _ => (false, p.2)

def reserveTurn : Except Refusal Unit × Registry :=
  let p := r.activeSession crypto now id
  match p.1 with
  | .active session =>
    if session.activeTurn then (.error .noActiveTurn, p.2)
    else if maxTurns ≤ session.turnCount then (.error .turnLimit, p.2)
    else (.ok (),
      p.2.setSession id { session with activeTurn := true, turnCount := session.turnCount + 1 })
  | _ => (.error .notActive, p.2)

def releaseTurn : Registry :=
  let p := r.activeSession crypto now id
  match p.1 with
  | .active session => p.2.setSession id { session with activeTurn := false }
  | _ => p.2

/-- `recordRecovery`; `false` is `RECOVERY_LIMIT`. -/
def recordRecovery : Bool × Registry :=
  let p := r.activeSession crypto now id
  match p.1 with
  | .active session =>
    if maxRecoveryRecords ≤ session.recoveryCount then (false, p.2)
    else (true, p.2.setSession id { session with recoveryCount := session.recoveryCount + 1 })
  | _ => (false, p.2)

/-- `getSession`: the principal and the scope. -/
def getSession : Option (String × String) × Registry :=
  let p := r.activeSession crypto now id
  match p.1 with
  | .active session => (some (session.principal, session.scopeId), p.2)
  | _ => (none, p.2)

/-- The session stands in the map and is not idle. -/
def Live : Prop := ∃ session, r.sessions.get? id = some session ∧ now < session.expiresAtMs

end

end Registry

/-! ## Runs -/

inductive RegistryCall where
  | createSession (options : CreateSessionOptions) (random : RandomBytes)
  | authenticate (id : SessionId) (bearer : String)
  | status (id : SessionId)
  | touch (id : SessionId)
  | close (id : SessionId)
  | reserveTurn (id : SessionId)
  | releaseTurn (id : SessionId)
  | recordRecovery (id : SessionId)
  | getSession (id : SessionId)

inductive RegistryAnswer where
  | creation (creation : Creation)
  | authentication (authentication : Authentication)
  | status (status : SessionStatus)
  | touched (done : Bool)
  | none
  | reserved (result : Except Refusal Unit)
  | recorded (done : Bool)
  | session (found : Option (String × String))

/-- A call with the two readings of the clock that it may take. -/
structure TimedCall where
  call : RegistryCall
  now : Nat
  later : Nat

namespace Registry

/-- What the registry answers to a call. -/
def respond (crypto : Crypto) (r : Registry) (c : TimedCall) : RegistryAnswer × Registry :=
  match c.call with
  | .createSession options random =>
    (r.createSession crypto c.now c.later options random).map .creation id
  | .authenticate sessionId bearer => (r.authenticate crypto c.now sessionId bearer).map .authentication id
  | .status sessionId => (r.status crypto c.now sessionId).map .status id
  | .touch sessionId => (r.touch crypto c.now c.later sessionId).map .touched id
  | .close sessionId => (.none, r.close sessionId)
  | .reserveTurn sessionId => (r.reserveTurn crypto c.now sessionId).map .reserved id
  | .releaseTurn sessionId => (.none, r.releaseTurn crypto c.now sessionId)
  | .recordRecovery sessionId => (r.recordRecovery crypto c.now sessionId).map .recorded id
  | .getSession sessionId => (r.getSession crypto c.now sessionId).map .session id

end Registry

/-- A registry with the last reading of its clock and the calls it answered, oldest first. -/
structure History where
  registry : Registry
  clock : Nat
  log : List (RegistryCall × RegistryAnswer) := []

namespace History

/-- The session that a call created. -/
def createdBy : RegistryCall × RegistryAnswer → Option NewSession
  | (_, .creation (.created session)) => some session
  | _ => none

/-- The id that a call closed or found expired. -/
def retiredBy : RegistryCall × RegistryAnswer → Option SessionId
  | (.close id, _) => some id
  | (.authenticate id _, .authentication .expired) => some id
  | (.status id, .status .expired) => some id
  | _ => none

variable (crypto : Crypto) (h : History)

/-- The sessions created so far. -/
def created : List NewSession := h.log.filterMap createdBy

/-- The ids that were closed or observed expired. -/
def retired : List SessionId := h.log.filterMap retiredBy

/-- The registry before its first call. -/
def start (generationKey : Bytes) (maxSessions clock : Nat) : History :=
  ⟨{ generationKey, maxSessions }, clock, []⟩

def step (c : TimedCall) : Option History :=
  let p := h.registry.respond crypto c
  some ⟨p.2, c.later, h.log ++ [(c.call, p.1)]⟩

/-- The clock does not go back, and random bytes give an id that is new. -/
structure Fair (bearers : Set String) (c : TimedCall) : Prop where
  clock : h.clock ≤ c.now ∧ c.now ≤ c.later
  fresh : ∀ options random, c.call = .createSession options random →
    mintId crypto h.registry.generationKey random.nonce ∉ h.created.map NewSession.id ∧
    mintId crypto h.registry.generationKey random.nonce ∉ h.retired ∧
    String.ofList (encode random.bearer) ∈ bearers

end History

/-! ## What a call does -/

/-- A session after calls of its registry. -/
structure Session.Kept (e e' : Session) : Prop where
  principal : e'.principal = e.principal
  scopeId : e'.scopeId = e.scopeId
  bearerHash : e'.bearerHash = e.bearerHash
  turnCount : e.turnCount ≤ maxTurns → e'.turnCount ≤ maxTurns

theorem Session.Kept.refl (e : Session) : Session.Kept e e := ⟨rfl, rfl, rfl, id⟩

theorem Session.Kept.trans {e f g : Session} (h : Session.Kept e f) (h' : Session.Kept f g) :
    Session.Kept e g :=
  ⟨h'.principal.trans h.principal, h'.scopeId.trans h.scopeId, h'.bearerHash.trans h.bearerHash,
    fun he => h'.turnCount (h.turnCount he)⟩

namespace Registry

/-- A registry after a call that creates no session: sessions may have gone. -/
structure Kept (r t : Registry) : Prop where
  generationKey : t.generationKey = r.generationKey
  maxSessions : t.maxSessions = r.maxSessions
  usedScopeIds : t.usedScopeIds = r.usedScopeIds
  length : t.sessions.length ≤ r.sessions.length
  sessions : ∀ {id e'}, t.sessions.get? id = some e' →
    ∃ e, r.sessions.get? id = some e ∧ Session.Kept e e'

variable {crypto : Crypto} {r s t : Registry} {now later : Nat} {id other : SessionId}

theorem Kept.refl (r : Registry) : Kept r r :=
  ⟨rfl, rfl, rfl, le_refl _, fun h => ⟨_, h, .refl _⟩⟩

theorem Kept.trans (h : Kept r s) (h' : Kept s t) : Kept r t := by
  refine ⟨h'.generationKey.trans h.generationKey, h'.maxSessions.trans h.maxSessions,
    h'.usedScopeIds.trans h.usedScopeIds, h'.length.trans h.length, fun he => ?_⟩
  obtain ⟨f, hf, hkept'⟩ := h'.sessions he
  obtain ⟨g, hg, hkept⟩ := h.sessions hf
  exact ⟨g, hg, hkept.trans hkept'⟩

theorem Kept.none (h : Kept r t) (hnone : r.sessions.get? id = none) :
    t.sessions.get? id = none := by
  cases ht : t.sessions.get? id with
  | none => rfl
  | some e' =>
    obtain ⟨e, he, -⟩ := h.sessions ht
    exact nomatch hnone.symm.trans he

theorem get?_close : (r.close id).sessions.get? id = none := Dict.get?_erase_self

theorem kept_close : Kept r (r.close id) :=
  ⟨rfl, rfl, rfl, List.length_filter_le _ _,
    fun h => ⟨_, ((Dict.get?_erase r.keyed).mp h).1, .refl _⟩⟩

theorem kept_expire : Kept r (r.expire id) :=
  ⟨rfl, rfl, rfl, kept_close.length, (kept_close : Kept r (r.close id)).sessions⟩

theorem kept_expireIdleSessions : Kept r (r.expireIdleSessions now) :=
  ⟨rfl, rfl, rfl, List.length_filter_le _ _,
    fun h => ⟨_, ((Dict.get?_filter r.keyed).mp h).1, .refl _⟩⟩

/-- An assignment to fields of a session that is there. -/
theorem kept_setSession {e e' : Session} (h : r.sessions.get? id = some e)
    (hkept : Session.Kept e e') : Kept r (r.setSession id e') := by
  have hmem : id ∈ r.sessions.keys := by
    rw [← Dict.get?_isSome_iff, h]
    rfl
  refine ⟨rfl, rfl, rfl, (Dict.length_set_of_mem hmem).le, fun {other f} hf => ?_⟩
  change (r.sessions.set id e').get? other = some f at hf
  rw [Dict.get?_set] at hf
  split at hf
  · next hid =>
    obtain rfl := Option.some.inj hf
    exact ⟨e, hid ▸ h, hkept⟩
  · exact ⟨f, hf, .refl f⟩

/-- What a look at a session finds. -/
inductive Looked (r : Registry) (now : Nat) (id : SessionId) : FoundSession × Registry → Prop
  | active {e : Session} (found : r.sessions.get? id = some e) (live : now < e.expiresAtMs) :
      Looked r now id (.active e, r)
  | expired {t : Registry} (kept : Kept r t) (gone : t.sessions.get? id = none) :
      Looked r now id (.expired, t)
  | gone : Looked r now id (.gone, r)

theorem looked_activeSession : Looked r now id (r.activeSession crypto now id) := by
  unfold activeSession
  split
  · cases hget : r.sessions.get? id with
    | none =>
      dsimp only
      split
      · exact .expired (.refl r) hget
      · exact .gone
    | some e =>
      dsimp only
      split
      · exact .expired kept_expire get?_close
      · next hlive => exact .active hget (Nat.lt_of_not_le hlive)
  · exact .gone

/-- The session that a look finds stands in the map and is not idle. -/
theorem live_of_active {session : Session}
    (h : (r.activeSession crypto now id).1 = .active session) :
    r.sessions.get? id = some session ∧ now < session.expiresAtMs ∧
      (r.activeSession crypto now id).2 = r := by
  generalize hp : r.activeSession crypto now id = p at h
  have hlooked : Looked r now id p := hp ▸ looked_activeSession
  cases hlooked with
  | active found live =>
    obtain rfl := FoundSession.active.inj h
    exact ⟨found, live, rfl⟩
  | expired kept gone => exact nomatch h
  | gone => exact nomatch h

theorem kept_authenticate {bearer : String} : Kept r (r.authenticate crypto now id bearer).2 := by
  have hlooked : Looked r now id (r.activeSession crypto now id) := looked_activeSession
  unfold authenticate
  generalize r.activeSession crypto now id = p at hlooked
  cases hlooked with
  | active found live => exact .refl r
  | expired kept gone => exact kept
  | gone => exact .refl r

theorem kept_status : Kept r (r.status crypto now id).2 := by
  have hlooked : Looked r now id (r.activeSession crypto now id) := looked_activeSession
  unfold status
  generalize r.activeSession crypto now id = p at hlooked
  cases hlooked with
  | active found live => exact .refl r
  | expired kept gone => exact kept
  | gone => exact .refl r

theorem kept_getSession : Kept r (r.getSession crypto now id).2 := by
  have hlooked : Looked r now id (r.activeSession crypto now id) := looked_activeSession
  unfold getSession
  generalize r.activeSession crypto now id = p at hlooked
  cases hlooked with
  | active found live => exact .refl r
  | expired kept gone => exact kept
  | gone => exact .refl r

theorem kept_touch : Kept r (r.touch crypto now later id).2 := by
  have hlooked : Looked r now id (r.activeSession crypto now id) := looked_activeSession
  unfold touch
  generalize r.activeSession crypto now id = p at hlooked
  cases hlooked with
  | active found live => exact kept_setSession found ⟨rfl, rfl, rfl, fun h => h⟩
  | expired kept gone => exact kept
  | gone => exact .refl r

/-- A turn is counted only below the limit. -/
theorem kept_reserveTurn : Kept r (r.reserveTurn crypto now id).2 := by
  have hlooked : Looked r now id (r.activeSession crypto now id) := looked_activeSession
  unfold reserveTurn
  generalize r.activeSession crypto now id = p at hlooked
  cases hlooked with
  | active found live =>
    dsimp only
    split
    · exact .refl r
    · split
      · exact .refl r
      · next hlimit => exact kept_setSession found ⟨rfl, rfl, rfl, fun _ => Nat.lt_of_not_le hlimit⟩
  | expired kept gone => exact kept
  | gone => exact .refl r

theorem kept_releaseTurn : Kept r (r.releaseTurn crypto now id) := by
  have hlooked : Looked r now id (r.activeSession crypto now id) := looked_activeSession
  unfold releaseTurn
  generalize r.activeSession crypto now id = p at hlooked
  cases hlooked with
  | active found live => exact kept_setSession found ⟨rfl, rfl, rfl, fun h => h⟩
  | expired kept gone => exact kept
  | gone => exact .refl r

theorem kept_recordRecovery : Kept r (r.recordRecovery crypto now id).2 := by
  have hlooked : Looked r now id (r.activeSession crypto now id) := looked_activeSession
  unfold recordRecovery
  generalize r.activeSession crypto now id = p at hlooked
  cases hlooked with
  | active found live =>
    dsimp only
    split
    · exact .refl r
    · exact kept_setSession found ⟨rfl, rfl, rfl, fun h => h⟩
  | expired kept gone => exact kept
  | gone => exact .refl r

theorem gone_of_authenticate {bearer : String}
    (h : (r.authenticate crypto now id bearer).1 = .expired) :
    (r.authenticate crypto now id bearer).2.sessions.get? id = none := by
  have hlooked : Looked r now id (r.activeSession crypto now id) := looked_activeSession
  unfold authenticate at h ⊢
  generalize r.activeSession crypto now id = p at hlooked h
  cases hlooked with
  | active found live =>
    dsimp only at h
    split at h <;> exact nomatch h
  | expired kept gone => exact gone
  | gone => exact nomatch h

theorem gone_of_status (h : (r.status crypto now id).1 = .expired) :
    (r.status crypto now id).2.sessions.get? id = none := by
  have hlooked : Looked r now id (r.activeSession crypto now id) := looked_activeSession
  unfold status at h ⊢
  generalize r.activeSession crypto now id = p at hlooked h
  cases hlooked with
  | active found live => exact nomatch h
  | expired kept gone => exact gone
  | gone => exact nomatch h

/-- The session that `createSession` adds to the registry. -/
structure Creates (crypto : Crypto) (random : RandomBytes) (r t : Registry) (c : NewSession) :
    Prop where
  newId : c.id = mintId crypto r.generationKey random.nonce
  newBearer : c.bearer = String.ofList (encode random.bearer)
  newScope : c.scopeId ∉ r.usedScopeIds
  generationKey : t.generationKey = r.generationKey
  maxSessions : t.maxSessions = r.maxSessions
  usedScopeIds : t.usedScopeIds = r.usedScopeIds ++ [c.scopeId]
  length : t.sessions.length ≤ t.maxSessions
  sessions : ∀ {id e'}, t.sessions.get? id = some e' →
    (id = c.id ∧ e'.scopeId = c.scopeId ∧ e'.bearerHash = crypto.hashBearer c.bearer ∧
      e'.turnCount = 0) ∨
    id ≠ c.id ∧ r.sessions.get? id = some e'

theorem createSession_spec {options : CreateSessionOptions} {random : RandomBytes} :
    (∃ c, (r.createSession crypto now later options random).1 = .created c ∧
        Creates crypto random r (r.createSession crypto now later options random).2 c) ∨
      (∀ c, (r.createSession crypto now later options random).1 ≠ .created c) ∧
        Kept r (r.createSession crypto now later options random).2 := by
  have hidle : Kept r (r.expireIdleSessions now) := kept_expireIdleSessions
  unfold createSession
  dsimp only
  split
  · exact Or.inr ⟨nofun, hidle⟩
  · next hlimit =>
    split
    · exact Or.inr ⟨nofun, hidle⟩
    · next hscope =>
      refine Or.inl ⟨_, rfl, rfl, rfl, hscope, rfl, rfl, rfl, ?_, ?_⟩
      · exact Dict.length_set_le.trans (Nat.lt_of_not_le hlimit)
      · intro id e' he'
        change ((r.expireIdleSessions now).sessions.set _ _).get? id = some e' at he'
        rw [Dict.get?_set] at he'
        split at he'
        · next hid =>
          obtain rfl := Option.some.inj he'
          exact Or.inl ⟨hid.symm, rfl, rfl, rfl⟩
        · next hid =>
          exact Or.inr ⟨Ne.symm hid, ((Dict.get?_filter r.keyed).mp he').1⟩

/-- A look at a session that is not in the map finds none. -/
theorem not_active_of_none (h : r.sessions.get? id = none) (session : Session) :
    (r.activeSession crypto now id).1 ≠ .active session := by
  intro hactive
  obtain ⟨hget, -⟩ := live_of_active hactive
  exact nomatch h.symm.trans hget

theorem authenticate_ok {bearer : String} (h : (r.authenticate crypto now id bearer).1 = .ok) :
    ∃ session, r.sessions.get? id = some session ∧ now < session.expiresAtMs ∧
      session.bearerHash = crypto.hashBearer bearer := by
  unfold authenticate at h
  dsimp only at h
  split at h
  · cases h
  · cases h
  · next session hactive =>
    obtain ⟨hget, hlive, -⟩ := live_of_active hactive
    refine ⟨session, hget, hlive, ?_⟩
    by_contra hne
    rw [if_neg hne] at h
    cases h

theorem reserveTurn_of_none (h : r.sessions.get? id = none) :
    (r.reserveTurn crypto now id).1 = .error .notActive := by
  have hnot : ∀ session, (r.activeSession crypto now id).1 ≠ .active session :=
    not_active_of_none h
  unfold reserveTurn
  dsimp only
  split
  · next session hactive => exact absurd hactive (hnot session)
  · rfl

theorem getSession_of_none (h : r.sessions.get? id = none) :
    (r.getSession crypto now id).1 = none := by
  have hnot : ∀ session, (r.activeSession crypto now id).1 ≠ .active session :=
    not_active_of_none h
  unfold getSession
  dsimp only
  split
  · next session hactive => exact absurd hactive (hnot session)
  · rfl

end Registry

namespace History

open Registry

variable {crypto : Crypto} {h t : History} {bearers : Set String} {key : Bytes} {limit : Nat}

/-- What an answered call adds to the log. -/
inductive Logged (crypto : Crypto) (r t : Registry) (e : RegistryCall × RegistryAnswer) : Prop
  | created {options : CreateSessionOptions} {random : RandomBytes} {c : NewSession}
      (call : e.1 = .createSession options random) (created : createdBy e = some c)
      (retired : retiredBy e = none) (creates : Creates crypto random r t c)
  | kept (created : createdBy e = none) (kept : Kept r t)
      (retired : ∀ id, retiredBy e = some id → t.sessions.get? id = none)

theorem retiredBy_authenticate {id id' : SessionId} {bearer : String} {a : Authentication}
    (h : retiredBy (.authenticate id bearer, .authentication a) = some id') :
    a = .expired ∧ id = id' := by
  cases a with
  | expired => exact ⟨rfl, Option.some.inj h⟩
  | ok => exact nomatch h
  | unauthenticated => exact nomatch h
  | gone => exact nomatch h

theorem retiredBy_status {id id' : SessionId} {a : SessionStatus}
    (h : retiredBy (.status id, .status a) = some id') : a = .expired ∧ id = id' := by
  cases a with
  | expired => exact ⟨rfl, Option.some.inj h⟩
  | active => exact nomatch h
  | gone => exact nomatch h

theorem logged_respond (r : Registry) (c : TimedCall) :
    Logged crypto r (r.respond crypto c).2 (c.call, (r.respond crypto c).1) := by
  obtain ⟨call, now, later⟩ := c
  cases call with
  | createSession options random =>
    rcases @createSession_spec crypto r now later options random with
      ⟨c, hc, hcreates⟩ | ⟨hnot, hkept⟩
    · refine .created rfl ?_ rfl hcreates
      show createdBy (_, .creation (r.createSession crypto now later options random).1) = _
      rw [hc]
      rfl
    · refine .kept ?_ hkept nofun
      show createdBy (_, .creation (r.createSession crypto now later options random).1) = _
      unfold createdBy
      split
      · next c heq => exact absurd (RegistryAnswer.creation.inj (Prod.mk.inj heq).2) (hnot c)
      · rfl
  | authenticate id bearer =>
    refine .kept rfl kept_authenticate fun id' h => ?_
    obtain ⟨hexpired, rfl⟩ := retiredBy_authenticate h
    exact gone_of_authenticate hexpired
  | status id =>
    refine .kept rfl kept_status fun id' h => ?_
    obtain ⟨hexpired, rfl⟩ := retiredBy_status h
    exact gone_of_status hexpired
  | touch id => exact .kept rfl kept_touch nofun
  | close id => exact .kept rfl kept_close fun id' h => Option.some.inj h ▸ get?_close
  | reserveTurn id => exact .kept rfl kept_reserveTurn nofun
  | releaseTurn id => exact .kept rfl kept_releaseTurn nofun
  | recordRecovery id => exact .kept rfl kept_recordRecovery nofun
  | getSession id => exact .kept rfl kept_getSession nofun

/-! ## The invariant -/

/-- What the registry and the log of its calls have in common at any time. -/
structure Consistent (crypto : Crypto) (bearers : Set String) (key : Bytes) (limit : Nat)
    (h : History) : Prop where
  generationKey : h.registry.generationKey = key
  maxSessions : h.registry.maxSessions = limit
  length : h.registry.sessions.length ≤ limit
  ids : (h.created.map NewSession.id).Nodup
  scopes : (h.created.map NewSession.scopeId).Nodup
  used : ∀ c ∈ h.created, c.scopeId ∈ h.registry.usedScopeIds
  minted : ∀ c ∈ h.created, isCurrentGenerationId crypto key c.id = true
  bearer : ∀ c ∈ h.created, c.bearer ∈ bearers
  /-- Every session in the map was created, and belongs to the bearer it was created with. -/
  owner : ∀ {id session}, h.registry.sessions.get? id = some session →
    ∃ c ∈ h.created, c.id = id ∧ c.scopeId = session.scopeId ∧
      session.bearerHash = crypto.hashBearer c.bearer
  turns : ∀ {id session}, h.registry.sessions.get? id = some session →
    session.turnCount ≤ maxTurns
  retired : ∀ id ∈ h.retired, h.registry.sessions.get? id = none

theorem consistent_start (clock : Nat) :
    Consistent crypto bearers key limit (start key limit clock) :=
  ⟨rfl, rfl, Nat.zero_le _, List.nodup_nil, List.nodup_nil, nofun, nofun, nofun, nofun, nofun, nofun⟩

/-- The history after a call. -/
def logging (h : History) (t : Registry) (time : Nat) (e : RegistryCall × RegistryAnswer) :
    History := ⟨t, time, h.log ++ [e]⟩

variable {r : Registry} {time : Nat} {e : RegistryCall × RegistryAnswer}

theorem created_logging : (h.logging r time e).created = h.created ++ (createdBy e).toList := by
  rw [created, logging, List.filterMap_append]
  show _ ++ List.filterMap createdBy [e] = _
  rw [List.filterMap_cons, List.filterMap_nil]
  cases createdBy e <;> rfl

theorem retired_logging : (h.logging r time e).retired = h.retired ++ (retiredBy e).toList := by
  rw [retired, logging, List.filterMap_append]
  show _ ++ List.filterMap retiredBy [e] = _
  rw [List.filterMap_cons, List.filterMap_nil]
  cases retiredBy e <;> rfl

theorem created_of_kept (hnone : createdBy e = none) : (h.logging r time e).created = h.created := by
  rw [created_logging, hnone, Option.toList_none, List.append_nil]

/-- Sessions may go, but none comes back. -/
theorem Consistent.kept (hc : Consistent crypto bearers key limit h)
    (hnone : createdBy e = none) (hkept : Kept h.registry r)
    (hretired : ∀ id, retiredBy e = some id → r.sessions.get? id = none) :
    Consistent crypto bearers key limit (h.logging r time e) := by
  have hcreated : (h.logging r time e).created = h.created := created_of_kept hnone
  constructor
  · exact hkept.generationKey.trans hc.generationKey
  · exact hkept.maxSessions.trans hc.maxSessions
  · exact hkept.length.trans hc.length
  · exact hcreated ▸ hc.ids
  · exact hcreated ▸ hc.scopes
  · rw [hcreated]
    intro c hmem
    show c.scopeId ∈ r.usedScopeIds
    exact hkept.usedScopeIds ▸ hc.used c hmem
  · exact hcreated ▸ hc.minted
  · exact hcreated ▸ hc.bearer
  · intro id session hget
    obtain ⟨before, hbefore, hsame⟩ := hkept.sessions hget
    obtain ⟨c, hmem, hid, hscope, hhash⟩ := hc.owner hbefore
    rw [hcreated]
    exact ⟨c, hmem, hid, hscope.trans hsame.scopeId.symm, hsame.bearerHash.trans hhash⟩
  · intro id session hget
    obtain ⟨before, hbefore, hsame⟩ := hkept.sessions hget
    exact hsame.turnCount (hc.turns hbefore)
  · intro id hid
    rw [retired_logging, List.mem_append, Option.mem_toList] at hid
    cases hid with
    | inl hid => exact hkept.none (hc.retired id hid)
    | inr hid => exact hretired id hid

/-- A session is created under an id and with a scope that are new. -/
theorem Consistent.creates {random : RandomBytes} {c : NewSession}
    (hc : Consistent crypto bearers key limit h) (hsome : createdBy e = some c)
    (hnone : retiredBy e = none) (hcreates : Creates crypto random h.registry r c)
    (hnew : c.id ∉ h.created.map NewSession.id) (hfresh : c.id ∉ h.retired)
    (hbearer : c.bearer ∈ bearers) :
    Consistent crypto bearers key limit (h.logging r time e) := by
  have hcreated : (h.logging r time e).created = h.created ++ [c] := by
    rw [created_logging, hsome, Option.toList_some]
  have hretired : (h.logging r time e).retired = h.retired := by
    rw [retired_logging, hnone, Option.toList_none, List.append_nil]
  have hmax : r.maxSessions = limit := hcreates.maxSessions.trans hc.maxSessions
  constructor
  · exact hcreates.generationKey.trans hc.generationKey
  · exact hmax
  · exact hmax ▸ hcreates.length
  · rw [hcreated, List.map_append]
    exact hc.ids.append (List.nodup_singleton _) (List.disjoint_singleton.mpr hnew)
  · rw [hcreated, List.map_append]
    refine hc.scopes.append (List.nodup_singleton _) (List.disjoint_singleton.mpr fun hmem => ?_)
    obtain ⟨c', hc', hscope⟩ := List.mem_map.mp hmem
    exact hcreates.newScope (hscope ▸ hc.used c' hc')
  · rw [hcreated, List.forall_mem_append]
    show (∀ c' ∈ h.created, c'.scopeId ∈ r.usedScopeIds) ∧ ∀ c' ∈ [c], c'.scopeId ∈ r.usedScopeIds
    rw [hcreates.usedScopeIds]
    refine ⟨fun c' hc' => List.mem_append_left _ (hc.used c' hc'), fun c' hc' => ?_⟩
    obtain rfl := List.mem_singleton.mp hc'
    exact List.mem_append_right _ (List.mem_singleton_self _)
  · rw [hcreated, List.forall_mem_append]
    refine ⟨hc.minted, fun c' hc' => ?_⟩
    obtain rfl := List.mem_singleton.mp hc'
    rw [hcreates.newId, hc.generationKey]
    exact isCurrentGenerationId_iff.mpr ⟨random.nonce, random.nonce_length, rfl⟩
  · rw [hcreated, List.forall_mem_append]
    exact ⟨hc.bearer, fun c' hc' => List.mem_singleton.mp hc' ▸ hbearer⟩
  · intro id session hget
    rw [hcreated]
    rcases hcreates.sessions hget with ⟨hid, hscope, hhash, -⟩ | ⟨-, hbefore⟩
    · exact ⟨c, List.mem_append_right _ (List.mem_singleton_self _), hid.symm, hscope.symm, hhash⟩
    · obtain ⟨c', hmem, howner⟩ := hc.owner hbefore
      exact ⟨c', List.mem_append_left _ hmem, howner⟩
  · intro id session hget
    rcases hcreates.sessions hget with ⟨-, -, -, hcount⟩ | ⟨-, hbefore⟩
    · exact hcount ▸ Nat.zero_le _
    · exact hc.turns hbefore
  · rw [hretired]
    intro id hid
    cases hget : r.sessions.get? id with
    | none => exact hget
    | some session =>
      rcases hcreates.sessions hget with ⟨rfl, -⟩ | ⟨-, hbefore⟩
      · exact absurd hid hfresh
      · exact nomatch (hc.retired id hid).symm.trans hbefore

theorem Consistent.step {a : TimedCall} (hc : Consistent crypto bearers key limit h)
    (hfair : Fair crypto h bearers a) (hstep : h.step crypto a = some t) :
    Consistent crypto bearers key limit t := by
  obtain rfl : h.logging (h.registry.respond crypto a).2 a.later
    (a.call, (h.registry.respond crypto a).1) = t := Option.some.inj hstep
  have hlogged : Logged crypto h.registry (h.registry.respond crypto a).2
      (a.call, (h.registry.respond crypto a).1) := logged_respond h.registry a
  cases hlogged with
  | created call created retired creates =>
    obtain ⟨hnew, hfresh, hbearer⟩ := hfair.fresh _ _ call
    rw [← creates.newId] at hnew hfresh
    rw [← creates.newBearer] at hbearer
    exact hc.creates created retired creates hnew hfresh hbearer
  | kept created kept retired => exact hc.kept created kept retired

/-! ## Safety -/

/-- What holds of the registry and of what it answered, whatever was called. -/
structure Safe (crypto : Crypto) (bearers : Set String) (limit : Nat) (h : History) : Prop where
  /-- No more sessions are live than are allowed. -/
  live : ∀ now (ids : List SessionId), ids.Nodup → (∀ id ∈ ids, h.registry.Live now id) →
    ids.length ≤ limit
  /-- No two sessions got one scope, and a session keeps the scope it got. -/
  scopes : (h.created.map NewSession.scopeId).Nodup
  bound : ∀ {id session}, h.registry.sessions.get? id = some session →
    ∃ c ∈ h.created, c.id = id ∧ c.scopeId = session.scopeId
  authenticated : ∀ now id, ∀ bearer ∈ bearers,
    (h.registry.authenticate crypto now id bearer).1 = .ok →
    h.registry.Live now id ∧ id ∉ h.retired ∧
      ∃ c ∈ h.created, c.id = id ∧ c.bearer = bearer ∧ ∀ c' ∈ h.created, c'.id = id → c' = c
  retired : ∀ now, ∀ id ∈ h.retired,
    (∀ bearer, (h.registry.authenticate crypto now id bearer).1 ≠ .ok) ∧
    (h.registry.reserveTurn crypto now id).1 = .error .notActive ∧
    (h.registry.getSession crypto now id).1 = none
  turns : ∀ {id session}, h.registry.sessions.get? id = some session → session.turnCount ≤ 16
  classes : ∀ id, InOneClass crypto h.registry.generationKey id
  minted : ∀ c ∈ h.created, isCurrentGenerationId crypto h.registry.generationKey c.id = true
  otherGeneration : ∀ key nonce : Bytes, nonce.length = 16 →
    crypto.generationTag key nonce ≠ crypto.generationTag h.registry.generationKey nonce →
    isPreRestartId crypto h.registry.generationKey (mintId crypto key nonce) = true

theorem Consistent.live (hc : Consistent crypto bearers key limit h) {now : Nat}
    {ids : List SessionId} (hids : ids.Nodup) (hlive : ∀ id ∈ ids, h.registry.Live now id) :
    ids.length ≤ limit := by
  have hsub : ids ⊆ h.registry.sessions.keys := by
    intro id hid
    obtain ⟨session, hget, -⟩ := hlive id hid
    rw [← Dict.get?_isSome_iff, hget]
    rfl
  calc ids.length ≤ h.registry.sessions.keys.length := (hids.subperm hsub).length_le
    _ = h.registry.sessions.length := List.length_map _
    _ ≤ limit := hc.length

theorem Consistent.authenticated (hc : Consistent crypto bearers key limit h)
    (hsha : Set.InjOn crypto.hashBearer bearers) {now : Nat} {id : SessionId} {bearer : String}
    (hbearer : bearer ∈ bearers) (hok : (h.registry.authenticate crypto now id bearer).1 = .ok) :
    h.registry.Live now id ∧ id ∉ h.retired ∧
      ∃ c ∈ h.created, c.id = id ∧ c.bearer = bearer ∧ ∀ c' ∈ h.created, c'.id = id → c' = c := by
  obtain ⟨session, hget, hlive, hhash⟩ := authenticate_ok hok
  obtain ⟨c, hmem, hid, -, howner⟩ := hc.owner hget
  refine ⟨⟨session, hget, hlive⟩, fun hretired => ?_, c, hmem, hid, ?_, fun c' hmem' hid' => ?_⟩
  · exact nomatch (hc.retired id hretired).symm.trans hget
  · exact hsha (hc.bearer c hmem) hbearer (howner.symm.trans hhash)
  · exact List.inj_on_of_nodup_map hc.ids hmem' hmem (hid'.trans hid.symm)

theorem Consistent.safe (hc : Consistent crypto bearers key limit h)
    (hsha : Set.InjOn crypto.hashBearer bearers) : Safe crypto bearers limit h where
  live := fun _ _ hids hlive => hc.live hids hlive
  scopes := hc.scopes
  bound := by
    intro id session hget
    obtain ⟨c, hmem, hid, hscope, -⟩ := hc.owner hget
    exact ⟨c, hmem, hid, hscope⟩
  authenticated := fun _ _ _ hbearer hok => hc.authenticated hsha hbearer hok
  retired := by
    intro now id hid
    have hnone : h.registry.sessions.get? id = none := hc.retired id hid
    refine ⟨fun bearer hok => ?_, reserveTurn_of_none hnone, getSession_of_none hnone⟩
    obtain ⟨session, hget, -⟩ := authenticate_ok hok
    exact nomatch hnone.symm.trans hget
  turns := hc.turns
  classes := inOneClass crypto h.registry.generationKey
  minted := hc.generationKey ▸ hc.minted
  otherGeneration := fun _ _ hnonce htag => isPreRestartId_mintId hnonce htag

/-- In every run, with a hash that tells the bearers apart, the registry is safe. -/
theorem registry_safe (crypto : Crypto) (bearers : Set String)
    (hsha : Set.InjOn crypto.hashBearer bearers) (key : Bytes) (limit clock : Nat) {h : History}
    (hreached : Reached (History.step crypto) (fun h c => Fair crypto h bearers c)
      (start key limit clock) h) :
    Safe crypto bearers limit h := by
  have hc : Consistent crypto bearers key limit h :=
    hreached.invariant (consistent_start clock) fun _ _ _ hc hfair hstep => hc.step hfair hstep
  exact hc.safe hsha

end History

namespace Trial

def key : Bytes := (List.range 32).map UInt8.ofNat

def random : RandomBytes := ⟨List.replicate 24 5, List.replicate 32 9, List.replicate 16 7, rfl⟩

def bearer : String := "CQkJCQkJCQkJCQkJCQkJCQkJCQkJCQkJCQkJCQkJCQk"

/-- The digests and the tag of the texts of the run. -/
def crypto : Crypto where
  hashBearer b :=
    if b = bearer then "83cd213e468a2fbadb529623d69bd3683afb8f13a1f0abc3167d346bde303719"
    else "f1abe1b083d12d181ae136cfc75b8d18a8ecb43ac4e9d1a36d6a9c75b6016b61"
  generationTag _ _ := [222, 248, 240, 251, 212, 51, 242, 89, 168, 123, 214, 127, 209, 99, 46, 83]
  generationTag_length _ _ := rfl

def id : SessionId := "3vjw-9Qz8lmoe9Z_0WMuUw.BwcHBwcHBwcHBwcHBwcHBw"

/-- A session is created and used, and is found idle half an hour later. -/
def calls : List TimedCall :=
  [⟨.createSession ⟨"analyst", none⟩ random, 0, 0⟩, ⟨.authenticate id bearer, 5, 5⟩,
    ⟨.status id, idleTimeoutMs, idleTimeoutMs⟩]

end Trial

open History in
/-- A run after which the only session was found idle. -/
theorem registry_safe_run : ∃ h : History,
    Reached (History.step Trial.crypto) (fun h c => Fair Trial.crypto h {Trial.bearer, "guess"} c)
      (start Trial.key 1 0) h ∧
    h.created.map NewSession.bearer = [Trial.bearer] ∧ h.retired = [Trial.id] ∧
    Safe Trial.crypto {Trial.bearer, "guess"} 1 h := by
  have hne : Trial.crypto.hashBearer Trial.bearer ≠ Trial.crypto.hashBearer "guess" := by
    decide +kernel
  have hsha : Set.InjOn Trial.crypto.hashBearer {Trial.bearer, "guess"} := by
    rw [Set.injOn_pair]
    exact fun heq => absurd heq hne
  have hrun : ∃ h, replay (History.step Trial.crypto) (start Trial.key 1 0) Trial.calls = some h :=
    ⟨_, rfl⟩
  obtain ⟨h, hrun⟩ := hrun
  have hfair : Permitted (History.step Trial.crypto)
      (fun h c => Fair Trial.crypto h {Trial.bearer, "guess"} c) (start Trial.key 1 0)
      Trial.calls := by
    refine ⟨⟨⟨le_refl _, le_refl _⟩, fun options random hcall => ?_⟩, fun s hs => ?_⟩
    · obtain ⟨-, rfl⟩ := RegistryCall.createSession.inj hcall
      exact ⟨nofun, nofun, Or.inl (by decide +kernel)⟩
    obtain rfl := Option.some.inj hs
    refine ⟨⟨⟨Nat.zero_le _, le_refl _⟩, nofun⟩, fun s hs => ?_⟩
    obtain rfl := Option.some.inj hs
    exact ⟨⟨⟨by decide, le_refl _⟩, nofun⟩, fun _ _ => trivial⟩
  have hreached := (Reached.start).replay hfair hrun
  obtain rfl := Option.some.inj hrun
  refine ⟨_, hreached, ?_, ?_, registry_safe _ _ hsha _ _ _ hreached⟩
  · decide +kernel
  · decide +kernel

end NanFung.Runtime
