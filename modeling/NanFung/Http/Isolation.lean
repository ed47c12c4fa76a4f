import NanFung.Http.Requests

/-!
# Requests and the sessions they do not belong to

A request that does not carry the bearer of a session leaves it as it is: what a later look at the
session finds, and what the components keep for it. And its reply does not depend on them: two states
that differ in the session only get the same reply.
-/

namespace NanFung.Http

open NanFung.Runtime NanFung.Sse Base64

variable {crypto : Crypto} {r r' t : Registry} {now : Nat} {id sid : SessionId} {e : Session}

/-! ## Looking at a session -/

/-- A look finds the session. -/
def Looks (crypto : Crypto) (r : Registry) (now : Nat) (id : SessionId) (e : Session) : Prop :=
  r.activeSession crypto now id = (.active e, r)

theorem looks_iff : Looks crypto r now id e ↔
    isCurrentGenerationId crypto r.generationKey id = true ∧ r.sessions.get? id = some e ∧
      now < e.expiresAtMs := by
  unfold Looks Registry.activeSession
  constructor
  · intro h
    split at h
    · next hcurrent =>
      cases hget : r.sessions.get? id with
      | none =>
        rw [hget] at h
        dsimp only at h
        split at h <;> cases (Prod.mk.inj h).1
      | some f =>
        rw [hget] at h
        dsimp only at h
        split at h
        · cases (Prod.mk.inj h).1
        · next hlive =>
          obtain rfl := FoundSession.active.inj (Prod.mk.inj h).1
          exact ⟨hcurrent, rfl, Nat.lt_of_not_le hlive⟩
    · cases (Prod.mk.inj h).1
  · rintro ⟨hcurrent, hget, hlive⟩
    rw [if_pos hcurrent, hget]
    dsimp only
    rw [if_neg (Nat.not_le_of_lt hlive)]

/-- The session with its fields assigned is found as well, while it is not idle. -/
theorem Looks.setSession {e' : Session} (h : Looks crypto r now id e) (hlive : now < e'.expiresAtMs) :
    Looks crypto (r.setSession id e') now id e' := by
  obtain ⟨hcurrent, -, -⟩ := looks_iff.mp h
  exact looks_iff.mpr ⟨hcurrent, Dict.get?_set_self, hlive⟩

theorem Looks.status (h : Looks crypto r now id e) : r.status crypto now id = (.active, r) := by
  unfold Registry.status
  rw [h]

theorem Looks.getSession (h : Looks crypto r now id e) :
    r.getSession crypto now id = (some (e.principal, e.scopeId), r) := by
  unfold Registry.getSession
  rw [h]

theorem Looks.releaseTurn (h : Looks crypto r now id e) :
    r.releaseTurn crypto now id = r.setSession id { e with activeTurn := false } := by
  unfold Registry.releaseTurn
  rw [h]

theorem Looks.touch (h : Looks crypto r now id e) :
    r.touch crypto now now id =
      (true, r.setSession id { e with expiresAtMs := now + idleTimeoutMs }) := by
  unfold Registry.touch
  rw [h]

/-- What a look finds, a second look finds again. -/
theorem activeSession_again :
    (r.activeSession crypto now id).2.activeSession crypto now id = r.activeSession crypto now id := by
  by_cases hcurrent : isCurrentGenerationId crypto r.generationKey id = true
  · cases hget : r.sessions.get? id with
    | none =>
      have hfirst : (r.activeSession crypto now id).2 = r := by
        unfold Registry.activeSession
        rw [if_pos hcurrent, hget]
      rw [hfirst]
    | some f =>
      by_cases hidle : f.expiresAtMs ≤ now
      · have hfirst : r.activeSession crypto now id = (.expired, r.expire id) := by
          unfold Registry.activeSession
          rw [if_pos hcurrent, hget]
          dsimp only
          rw [if_pos hidle]
        rw [hfirst]
        unfold Registry.activeSession
        have hgone : (r.expire id).sessions.get? id = none := Registry.get?_close
        have hexpired : id ∈ (r.expire id).expiredSessionIds :=
          List.mem_append_right _ (List.mem_singleton_self id)
        dsimp only
        rw [show (r.expire id).generationKey = r.generationKey from rfl, if_pos hcurrent, hgone]
        dsimp only
        rw [if_pos hexpired]
      · have hlooks : Looks crypto r now id f :=
          looks_iff.mpr ⟨hcurrent, hget, Nat.lt_of_not_le hidle⟩
        rw [hlooks]
        exact hlooks
  · have hfirst : r.activeSession crypto now id = (.gone, r) := by
      unfold Registry.activeSession
      rw [if_neg hcurrent]
    rw [hfirst, hfirst]

theorem activeSession_generationKey :
    (r.activeSession crypto now id).2.generationKey = r.generationKey := by
  unfold Registry.activeSession
  split
  · cases r.sessions.get? id with
    | none => rfl
    | some f =>
      dsimp only
      split <;> rfl
  · rfl

/-! ## What later looks find -/

/-- The session, unless it is idle at the time. -/
def session? (r : Registry) (later : Nat) (id : SessionId) : Option Session :=
  (r.sessions.get? id).filter fun e => later < e.expiresAtMs

/-- Later looks at the session find the same. -/
def SameSession (now : Nat) (sid : SessionId) (r t : Registry) : Prop :=
  ∀ later, now ≤ later → session? t later sid = session? r later sid

theorem SameSession.refl (r : Registry) : SameSession now sid r r := fun _ _ => rfl

theorem SameSession.trans (h : SameSession now sid r r') (h' : SameSession now sid r' t) :
    SameSession now sid r t := fun later hle => (h' later hle).trans (h later hle)

theorem SameSession.of_get? (h : t.sessions.get? sid = r.sessions.get? sid) :
    SameSession now sid r t := by
  intro later _
  rw [session?, session?, h]

theorem get?_close_of_ne (h : sid ≠ id) : (r.close id).sessions.get? sid = r.sessions.get? sid := by
  apply Option.ext
  intro e
  show (r.sessions.erase id).get? sid = some e ↔ _
  rw [Dict.get?_erase r.keyed]
  exact and_iff_left h

theorem sameSession_close (h : sid ≠ id) : SameSession now sid r (r.close id) :=
  .of_get? (get?_close_of_ne h)

theorem sameSession_setSession (h : sid ≠ id) : SameSession now sid r (r.setSession id e) :=
  .of_get? (Dict.get?_set_of_ne h)

/-- A session goes from the map only when it is idle. -/
theorem sameSession_expire (hget : r.sessions.get? id = some e) (hidle : e.expiresAtMs ≤ now) :
    SameSession now sid r (r.expire id) := by
  by_cases hid : sid = id
  · intro later hle
    have hgone : (r.expire id).sessions.get? id = none := Registry.get?_close
    have hpast : decide (later < e.expiresAtMs) = false := decide_eq_false (by omega)
    rw [session?, session?, hid, hgone, hget, Option.filter_some, hpast]
    rfl
  · exact .of_get? (get?_close_of_ne hid)

theorem sameSession_activeSession : SameSession now sid r (r.activeSession crypto now id).2 := by
  unfold Registry.activeSession
  split
  · cases hget : r.sessions.get? id with
    | none => exact .refl r
    | some f =>
      dsimp only
      split
      · next hidle => exact sameSession_expire hget hidle
      · exact .refl r
  · exact .refl r

theorem sameSession_expireIdleSessions : SameSession now sid r (r.expireIdleSessions now) := by
  intro later hle
  apply Option.ext
  intro e
  rw [session?, session?, Option.filter_eq_some_iff, Option.filter_eq_some_iff]
  show (Dict.get? sid (r.sessions.filter _) = some e ∧ _) ↔ _
  rw [Dict.get?_filter r.keyed]
  constructor
  · exact fun h => ⟨h.1.1, h.2⟩
  · intro ⟨hget, hlater⟩
    have hlive : later < e.expiresAtMs := of_decide_eq_true hlater
    exact ⟨⟨hget, decide_eq_true (show now < e.expiresAtMs by omega)⟩, hlater⟩

/-! ## The routes of one session -/

theorem Looks.reserveTurn (h : Looks crypto r now id e) :
    r.reserveTurn crypto now id =
      if e.activeTurn = true then (.error .noActiveTurn, r)
      else if maxTurns ≤ e.turnCount then (.error .turnLimit, r)
      else (.ok (), r.setSession id { e with activeTurn := true, turnCount := e.turnCount + 1 }) := by
  unfold Registry.reserveTurn
  rw [h]

/-- Only the one session differs. -/
structure Confined (now : Nat) (id : SessionId) (s t : ServerState) : Prop where
  registry : ∀ sid, sid ≠ id → SameSession now sid s.registry t.registry
  data : ∀ sid, sid ≠ id → t.data sid = s.data sid

theorem Confined.refl (s : ServerState) : Confined now id s s :=
  ⟨fun _ _ => .refl _, fun _ _ => rfl⟩

theorem confined_setSession (s : ServerState) :
    Confined now id s { s with registry := s.registry.setSession id e } :=
  ⟨fun _ h => sameSession_setSession h, fun _ _ => rfl⟩

theorem confined_setData (s : ServerState) (d : SessionData) : Confined now id s (s.setData id d) :=
  ⟨fun _ _ => .refl _, fun sid h => (Function.update_of_ne h _ _ : Function.update s.data id d sid = s.data sid)⟩

theorem Confined.trans {s s' t : ServerState} (h : Confined now id s s') (h' : Confined now id s' t) :
    Confined now id s t :=
  ⟨fun sid hne => (h.registry sid hne).trans (h'.registry sid hne),
    fun sid hne => (h'.data sid hne).trans (h.data sid hne)⟩

/-- A handler of a session that was found acts on the session alone, and its reply depends on nothing
else. -/
structure Local (crypto : Crypto) (now : Nat) (id : SessionId)
    (handler : ServerState → Reply × ServerState) : Prop where
  confined : ∀ {s e}, Looks crypto s.registry now id e → Confined now id s (handler s).2
  same : ∀ {s s' e}, Looks crypto s.registry now id e → Looks crypto s'.registry now id e →
    s'.data id = s.data id → (handler s').1 = (handler s).1

variable {platform : Platform} {options : Option ServerOptions} {moment : Moment}

theorem createTurn_local :
    Local platform.crypto moment.now id fun s => createTurn platform options s moment id := by
  constructor
  · intro s e h
    unfold createTurn
    rw [h.reserveTurn]
    by_cases hactive : e.activeTurn = true
    · rw [if_pos hactive]
      exact .refl s
    · rw [if_neg hactive]
      by_cases hlimit : maxTurns ≤ e.turnCount
      · rw [if_pos hlimit]
        exact .refl s
      · rw [if_neg hlimit]
        dsimp only
        cases options with
        | none => exact (confined_setSession s).trans (confined_setData _ _)
        | some options =>
          dsimp only
          split <;> exact confined_setSession s
  · intro s s' e h h' _
    unfold createTurn
    rw [h.reserveTurn, h'.reserveTurn]
    by_cases hactive : e.activeTurn = true
    · rw [if_pos hactive, if_pos hactive]
    · rw [if_neg hactive, if_neg hactive]
      by_cases hlimit : maxTurns ≤ e.turnCount
      · rw [if_pos hlimit, if_pos hlimit]
      · rw [if_neg hlimit, if_neg hlimit]
        dsimp only
        cases options with
        | none => rfl
        | some options =>
          dsimp only
          split <;> rfl

theorem cancel_local (turnId : TurnId) {s s' : ServerState} (h : Looks platform.crypto s.registry moment.now id e)
    (h' : Looks platform.crypto s'.registry moment.now id e) (hdata : s'.data id = s.data id) :
    Confined moment.now id s (cancel platform s moment id turnId).2 ∧
      (cancel platform s' moment id turnId).1 = (cancel platform s moment id turnId).1 := by
  unfold cancel
  rw [h.status, h'.status]
  dsimp only
  rw [if_neg (not_not_intro rfl), if_neg (not_not_intro rfl), hdata]
  cases (s.data id).activeTurn with
  | none => exact ⟨.refl s, rfl⟩
  | some active =>
    dsimp only
    by_cases hactive : active ≠ turnId
    · rw [if_pos hactive, if_pos hactive]
      exact ⟨.refl s, rfl⟩
    · rw [if_neg hactive, if_neg hactive]
      refine ⟨?_, rfl⟩
      dsimp only [ServerState.setData]
      rw [h.releaseTurn]
      exact (confined_setData s _).trans (confined_setSession _)

theorem cancelTurn_local (turnId : TurnId) :
    Local platform.crypto moment.now id
      fun s => cancelTurn platform options s moment id turnId := by
  constructor
  · intro s e h
    unfold cancelTurn
    cases options with
    | none =>
      dsimp only
      unfold cancelLegacyTurn
      dsimp only
      split
      · exact .refl s
      · exact .refl s
      · exact confined_setData s _
    | some options =>
      dsimp only
      split
      · exact (cancel_local turnId h h rfl).1
      · exact .refl s
  · intro s s' e h h' hdata
    unfold cancelTurn
    cases options with
    | none =>
      dsimp only
      unfold cancelLegacyTurn
      rw [hdata]
      dsimp only
      split <;> rfl
    | some options =>
      dsimp only
      split
      · rw [(cancel_local turnId h h' hdata).2]
      · rfl

theorem getTurn_local (turnId : TurnId) :
    Local platform.crypto moment.now id fun s => getTurn platform options s moment id turnId := by
  constructor
  · intro s e h
    unfold getTurn
    split
    · rw [h.status]
      dsimp only
      rw [if_neg (not_not_intro rfl)]
      split <;> exact .refl s
    · exact .refl s
  · intro s s' e h h' hdata
    unfold getTurn
    split
    · rw [h.status, h'.status]
      dsimp only
      rw [if_neg (not_not_intro rfl), if_neg (not_not_intro rfl), hdata]
      split <;> rfl
    · rfl

theorem attach_local (lastEventId : Option String) :
    Local platform.crypto moment.now id
      fun s => attach platform options s moment id lastEventId := by
  constructor
  · intro s e h
    unfold attach
    split
    · rw [h.status]
      dsimp only
      rw [if_neg (not_not_intro rfl)]
      split
      · exact confined_setData s _
      · exact .refl s
    · exact .refl s
  · intro s s' e h h' hdata
    unfold attach
    split
    · rw [h.status, h'.status]
      dsimp only
      rw [if_neg (not_not_intro rfl), if_neg (not_not_intro rfl), hdata]
      split <;> rfl
    · rfl

theorem decideApproval_local (approvalId : String) :
    Local platform.crypto moment.now id
      fun s => decideApproval platform options s moment id approvalId := by
  constructor
  · intro s e h
    unfold decideApproval
    split
    · rw [h.getSession]
      exact .refl s
    · exact .refl s
  · intro s s' e h h' _
    unfold decideApproval
    split
    · rw [h.getSession, h'.getSession]
    · rfl

theorem dashboardOverview_local :
    Local platform.crypto moment.now id
      fun s => dashboardOverview platform options s moment id := by
  constructor
  · intro s e h
    unfold dashboardOverview
    split
    · rw [h.getSession]
      exact .refl s
    · exact .refl s
  · intro s s' e h h' _
    unfold dashboardOverview
    split
    · rw [h.getSession, h'.getSession]
    · rfl

theorem close_local :
    Local platform.crypto moment.now id
      fun s => (respond 204, { s with registry := s.registry.close id }) :=
  ⟨fun _ => ⟨fun _ h => sameSession_close h, fun _ _ => rfl⟩, fun _ _ _ => rfl⟩

/-- A handler of the session that the last segment of the path is given to. -/
theorem named_cases {path : List Char} {f : ServerState → Except Thrown (Reply × ServerState)}
    {handler : String → ServerState → Reply × ServerState}
    (hlocal : ∀ name, Local crypto now id (handler name))
    (heq : ∀ s, f s = (decodeSegment path).map fun name => handler name s) :
    (∃ handler, Local crypto now id handler ∧ ∀ s, f s = .ok (handler s)) ∨
      ∃ thrown, decodeSegment path = .error thrown ∧ ∀ s, f s = .error thrown := by
  cases hdecode : decodeSegment path with
  | ok name =>
    refine Or.inl ⟨handler name, hlocal name, fun s => ?_⟩
    rw [heq, hdecode]
    rfl
  | error thrown =>
    refine Or.inr ⟨thrown, rfl, fun s => ?_⟩
    rw [heq, hdecode]
    rfl

/-- What a request with the bearer of its session does: one handler of the session, in any state, or
the exception of its last segment. -/
theorem dispatch_cases (platform : Platform) (options : Option ServerOptions) (moment : Moment)
    (id : SessionId) {route : Route} (hroute : route ≠ .createSession) (path : List Char)
    (request : Request) :
    (∃ handler, Local platform.crypto moment.now id handler ∧
      ∀ s, dispatch platform options s moment route path id request = .ok (handler s)) ∨
    route.named = true ∧ ∃ thrown, decodeSegment path = .error thrown ∧
      ∀ s, dispatch platform options s moment route path id request = .error thrown := by
  cases route with
  | createSession => exact absurd rfl hroute
  | messages => exact Or.inl ⟨_, createTurn_local, fun _ => rfl⟩
  | cancelTurn => exact (named_cases cancelTurn_local fun _ => rfl).imp_right fun h => ⟨rfl, h⟩
  | turn => exact (named_cases getTurn_local fun _ => rfl).imp_right fun h => ⟨rfl, h⟩
  | events => exact Or.inl ⟨_, attach_local request.lastEventId, fun _ => rfl⟩
  | approval => exact (named_cases decideApproval_local fun _ => rfl).imp_right fun h => ⟨rfl, h⟩
  | dashboard => exact Or.inl ⟨_, dashboardOverview_local, fun _ => rfl⟩
  | session => exact Or.inl ⟨_, close_local, fun _ => rfl⟩

/-! ## The check of the bearer -/

/-- The request carries the bearer of the session that it names. -/
def Admits (crypto : Crypto) (r : Registry) (now : Nat) (id : SessionId)
    (authorization : Option String) : Prop :=
  ∃ e bearer, Looks crypto r now id e ∧ parseBearer authorization = some bearer ∧
    e.bearerHash = crypto.hashBearer bearer

/-- The reply to a request that is not admitted, by what a look at its session finds. -/
def refusal (crypto : Crypto) (key : Bytes) (id : SessionId) (authorization : Option String) :
    SessionStatus → Reply
  | .gone => respond (goneStatus crypto key id)
  | .expired =>
    if (parseBearer authorization).isSome then respond 401 [("x-session-status", "expired")]
    else respond 401
  | .active => respond 401

theorem authenticate_admitted {authorization : Option String} {bearer : String}
    (hlooks : Looks platform.crypto r moment.now id e) (hparse : parseBearer authorization = some bearer)
    (hhash : e.bearerHash = platform.crypto.hashBearer bearer) :
    authenticate platform moment r id authorization =
      (none, r.setSession id { e with expiresAtMs := moment.now + idleTimeoutMs }) := by
  have hsecond : r.authenticate platform.crypto moment.now id bearer = (.ok, r) := by
    unfold Registry.authenticate
    rw [hlooks]
    dsimp only
    rw [if_pos hhash]
  unfold authenticate
  rw [hlooks.status]
  dsimp only
  rw [if_neg nofun, hparse]
  dsimp only
  rw [hsecond]
  dsimp only
  rw [hlooks.touch]

theorem authenticate_refused {authorization : Option String}
    (hnot : ¬ Admits platform.crypto r moment.now id authorization) :
    authenticate platform moment r id authorization =
      (some (refusal platform.crypto r.generationKey id authorization
        (r.status platform.crypto moment.now id).1),
        (r.status platform.crypto moment.now id).2) := by
  have hlooked : r.Looked moment.now id (r.activeSession platform.crypto moment.now id) :=
    Registry.looked_activeSession
  have hagain : (r.activeSession platform.crypto moment.now id).2.activeSession platform.crypto
    moment.now id = r.activeSession platform.crypto moment.now id := activeSession_again
  have hlooks : ∀ e, r.activeSession platform.crypto moment.now id = (.active e, r) →
      ∀ bearer, parseBearer authorization = some bearer →
        e.bearerHash ≠ platform.crypto.hashBearer bearer :=
    fun e h bearer hparse hhash => hnot ⟨e, bearer, h, hparse, hhash⟩
  unfold authenticate Registry.status
  generalize r.activeSession platform.crypto moment.now id = p at hlooked hagain hlooks
  cases hlooked with
  | gone => rfl
  | expired kept gone =>
    dsimp only at hagain ⊢
    rw [if_neg nofun, refusal]
    cases parseBearer authorization with
    | none => rfl
    | some bearer =>
      dsimp only [Registry.authenticate]
      rw [hagain]
      rfl
  | active found live =>
    dsimp only at hagain ⊢
    rw [if_neg nofun, refusal]
    cases hparse : parseBearer authorization with
    | none => rfl
    | some bearer =>
      dsimp only [Registry.authenticate]
      rw [hagain]
      dsimp only
      rw [if_neg (hlooks _ rfl bearer hparse)]

/-! ## Creating a session -/

variable {s s' : ServerState} {reply : Reply}

/-- The scope that is drawn for a session. -/
def drawnScope (random : RandomBytes) : String := "scope_" ++ String.ofList (encode random.scope)

/-- The random bytes give a scope and an id that are new. -/
structure Fresh (crypto : Crypto) (r : Registry) (random : RandomBytes) : Prop where
  scope : drawnScope random ∉ r.usedScopeIds
  id : r.sessions.get? (mintId crypto r.generationKey random.nonce) = none

theorem sameSession_createSession {options : CreateSessionOptions} {random : RandomBytes}
    (hnew : sid ≠ mintId crypto r.generationKey random.nonce) :
    SameSession now sid r (r.createSession crypto now now options random).2 := by
  have hidle : SameSession now sid r (r.expireIdleSessions now) := sameSession_expireIdleSessions
  unfold Registry.createSession
  dsimp only
  split
  · exact hidle
  · split
    · exact hidle
    · exact hidle.trans (.of_get? (Dict.get?_set_of_ne hnew))

theorem createSession_kept {t : ServerState}
    (hnew : sid ≠ mintId platform.crypto s.registry.generationKey moment.random.nonce)
    (h : createSession platform s moment = .ok (reply, t)) :
    SameSession moment.now sid s.registry t.registry ∧ t.data sid = s.data sid := by
  have hsame : SameSession moment.now sid s.registry
      (s.registry.createSession platform.crypto moment.now moment.now ⟨"anonymous", none⟩
        moment.random).2 := sameSession_createSession hnew
  unfold createSession at h
  generalize s.registry.createSession _ _ _ _ _ = p at h hsame
  obtain ⟨creation, registry⟩ := p
  cases creation with
  | created c =>
    obtain ⟨-, rfl⟩ := Prod.mk.inj (Except.ok.inj h)
    exact ⟨hsame, rfl⟩
  | sessionLimit =>
    obtain ⟨-, rfl⟩ := Prod.mk.inj (Except.ok.inj h)
    exact ⟨hsame, rfl⟩
  | scopeReused scopeId => exact nomatch h

theorem createSession_returns (hfresh : Fresh platform.crypto s.registry moment.random) :
    ∃ reply t, createSession platform s moment = .ok (reply, t) := by
  have hscope : drawnScope moment.random ∉ (s.registry.expireIdleSessions moment.now).usedScopeIds :=
    hfresh.scope
  unfold createSession Registry.createSession
  dsimp only
  split_ifs with hlimit hused
  · exact ⟨_, _, rfl⟩
  · exact absurd hused hscope
  · exact ⟨_, _, rfl⟩

/-! ## States that differ in one session -/

/-- Two states that differ in what the session holds, but not in whether it is there, in its bearer or
in its deadline. -/
structure Alike (sid : SessionId) (s s' : ServerState) : Prop where
  generationKey : s'.registry.generationKey = s.registry.generationKey
  maxSessions : s'.registry.maxSessions = s.registry.maxSessions
  expiredSessionIds : s'.registry.expiredSessionIds = s.registry.expiredSessionIds
  usedScopeIds : s'.registry.usedScopeIds = s.registry.usedScopeIds
  others : ∀ id, id ≠ sid → s'.registry.sessions.get? id = s.registry.sessions.get? id
  session : ∃ e e', s.registry.sessions.get? sid = some e ∧
    s'.registry.sessions.get? sid = some e' ∧ e'.bearerHash = e.bearerHash ∧
    e'.expiresAtMs = e.expiresAtMs
  data : ∀ id, id ≠ sid → s'.data id = s.data id

/-- Every session is there in both states, with one bearer and one deadline. -/
theorem Alike.get? (h : Alike sid s s') (id : SessionId) :
    s.registry.sessions.get? id = none ∧ s'.registry.sessions.get? id = none ∨
    ∃ e e', s.registry.sessions.get? id = some e ∧ s'.registry.sessions.get? id = some e' ∧
      e'.bearerHash = e.bearerHash ∧ e'.expiresAtMs = e.expiresAtMs := by
  by_cases hid : id = sid
  · exact Or.inr (hid ▸ h.session)
  · cases hget : s.registry.sessions.get? id with
    | none => exact Or.inl ⟨rfl, (h.others id hid).trans hget⟩
    | some e => exact Or.inr ⟨e, e, rfl, (h.others id hid).trans hget, rfl, rfl⟩

theorem Alike.status (h : Alike sid s s') (id : SessionId) :
    (s'.registry.status crypto now id).1 = (s.registry.status crypto now id).1 := by
  unfold Registry.status Registry.activeSession
  rw [h.generationKey]
  split
  · rcases h.get? id with ⟨hget, hget'⟩ | ⟨e, e', hget, hget', -, hdeadline⟩
    · rw [hget, hget', h.expiredSessionIds]
      dsimp only
      split <;> rfl
    · rw [hget, hget']
      dsimp only
      rw [hdeadline]
      by_cases hidle : e.expiresAtMs ≤ now
      · rw [if_pos hidle, if_pos hidle]
      · rw [if_neg hidle, if_neg hidle]
  · rfl

theorem Alike.looks (h : Alike sid s s') (hne : id ≠ sid) :
    Looks crypto s'.registry now id e ↔ Looks crypto s.registry now id e := by
  rw [looks_iff, looks_iff, h.generationKey, h.others id hne]

/-- As many sessions are live in both states. -/
theorem Alike.live (h : Alike sid s s') :
    (s'.registry.expireIdleSessions now).sessions.length =
      (s.registry.expireIdleSessions now).sessions.length := by
  have hmem : ∀ r : Registry, ∀ id, id ∈ (r.expireIdleSessions now).sessions.keys ↔
      ∃ e, r.sessions.get? id = some e ∧ now < e.expiresAtMs := by
    intro r id
    rw [← Dict.get?_isSome_iff, Option.isSome_iff_exists]
    refine exists_congr fun e => ?_
    show Dict.get? id (r.sessions.filter _) = some e ↔ _
    rw [Dict.get?_filter r.keyed, decide_eq_true_iff]
  have hperm : (s'.registry.expireIdleSessions now).sessions.keys.Perm
      (s.registry.expireIdleSessions now).sessions.keys := by
    rw [List.perm_ext_iff_of_nodup (s'.registry.expireIdleSessions now).keyed
      (s.registry.expireIdleSessions now).keyed]
    intro id
    rw [hmem, hmem]
    rcases h.get? id with ⟨hget, hget'⟩ | ⟨e, e', hget, hget', -, hdeadline⟩
    · rw [hget, hget']
    · rw [hget, hget']
      constructor
      · intro ⟨f, hf, hlive⟩
        obtain rfl := Option.some.inj hf
        exact ⟨e, rfl, hdeadline ▸ hlive⟩
      · intro ⟨f, hf, hlive⟩
        obtain rfl := Option.some.inj hf
        exact ⟨e', rfl, hdeadline ▸ hlive⟩
  have hlength := hperm.length_eq
  rwa [Dict.keys, Dict.keys, List.length_map, List.length_map] at hlength

theorem Alike.createSession (h : Alike sid s s') :
    (createSession platform s' moment).map Prod.fst = (createSession platform s moment).map Prod.fst := by
  have hused : (s'.registry.expireIdleSessions moment.now).usedScopeIds =
    (s.registry.expireIdleSessions moment.now).usedScopeIds := h.usedScopeIds
  have hmax : (s'.registry.expireIdleSessions moment.now).maxSessions =
    (s.registry.expireIdleSessions moment.now).maxSessions := h.maxSessions
  have hkey : (s'.registry.expireIdleSessions moment.now).generationKey =
    (s.registry.expireIdleSessions moment.now).generationKey := h.generationKey
  unfold Http.createSession Registry.createSession
  dsimp only
  rw [h.live, hused, hmax, hkey]
  split_ifs <;> rfl

/-! ## Requests without the bearer -/

/-- The request carries a bearer other than that of the session, or none. -/
def Lacks (crypto : Crypto) (r : Registry) (sid : SessionId) (request : Request) : Prop :=
  ∃ e, r.sessions.get? sid = some e ∧ ∀ bearer, parseBearer request.authorization = some bearer →
    e.bearerHash ≠ crypto.hashBearer bearer

variable {route : Route} {path : List Char} {request : Request}

theorem Lacks.not_admits (h : Lacks crypto r sid request) :
    ¬ Admits crypto r now sid request.authorization := by
  obtain ⟨e, hget, hnot⟩ := h
  rintro ⟨f, bearer, hlooks, hparse, hhash⟩
  obtain ⟨-, hget', -⟩ := looks_iff.mp hlooks
  obtain rfl := Option.some.inj (hget.symm.trans hget')
  exact hnot bearer hparse hhash

theorem Lacks.alike (h : Lacks platform.crypto s.registry sid request) (halike : Alike sid s s') :
    Lacks platform.crypto s'.registry sid request := by
  obtain ⟨e, hget, hnot⟩ := h
  obtain ⟨f, f', hf, hf', hhash, -⟩ := halike.session
  obtain rfl := Option.some.inj (hget.symm.trans hf)
  exact ⟨f', hf', fun bearer hparse => hhash ▸ hnot bearer hparse⟩

/-- The first look and the check of the bearer, together. -/
theorem status_snd : (r.status crypto now id).2 = (r.activeSession crypto now id).2 := by
  unfold Registry.status
  dsimp only
  split <;> rfl

theorem status_again :
    (r.status crypto now id).2.status crypto now id = r.status crypto now id := by
  have hagain : (r.activeSession crypto now id).2.activeSession crypto now id =
    r.activeSession crypto now id := activeSession_again
  rw [status_snd]
  unfold Registry.status
  rw [hagain]

theorem status_generationKey : (r.status crypto now id).2.generationKey = r.generationKey := by
  rw [status_snd, activeSession_generationKey]

theorem sameSession_status : SameSession now sid r (r.status crypto now id).2 := by
  rw [status_snd]
  exact sameSession_activeSession

theorem looks_status (h : Looks crypto r now id e) : (r.status crypto now id).2 = r := by
  rw [h.status]

theorem looks_of_status (h : Looks crypto (r.status crypto now id).2 now id e) :
    Looks crypto r now id e := by
  have hagain : (r.activeSession crypto now id).2.activeSession crypto now id =
    r.activeSession crypto now id := activeSession_again
  rw [status_snd, Looks, hagain] at h
  have hfound := Registry.live_of_active (congrArg Prod.fst h)
  exact h.trans (congrArg (Prod.mk _) hfound.2.2)

theorem admits_status {authorization : Option String} :
    Admits crypto (r.status crypto now id).2 now id authorization ↔
      Admits crypto r now id authorization := by
  constructor
  · rintro ⟨e, bearer, hlooks, hrest⟩
    exact ⟨e, bearer, looks_of_status hlooks, hrest⟩
  · rintro ⟨e, bearer, hlooks, hrest⟩
    exact ⟨e, bearer, (looks_status hlooks).symm ▸ hlooks, hrest⟩

/-- `touch` of a session. -/
def touched (moment : Moment) (e : Session) : Session :=
  { e with expiresAtMs := moment.now + idleTimeoutMs }

theorem Looks.touched (h : Looks crypto r moment.now id e) :
    Looks crypto (r.setSession id (touched moment e)) moment.now id (touched moment e) := by
  apply h.setSession
  show moment.now < moment.now + idleTimeoutMs
  unfold idleTimeoutMs
  omega

theorem handleRouted_gone (hgone : (s.registry.status platform.crypto moment.now id).1 = .gone) :
    handleRouted platform options s moment route path (some id) request =
      .ok (respond (goneStatus platform.crypto s.registry.generationKey id),
        { s with registry := (s.registry.status platform.crypto moment.now id).2 }) := by
  unfold handleRouted lookUp
  dsimp only [Option.getD_some]
  rw [if_pos hgone, status_generationKey]

theorem handleRouted_method (hgone : (s.registry.status platform.crypto moment.now id).1 ≠ .gone)
    (hmethod : request.method ≠ route.method) :
    handleRouted platform options s moment route path (some id) request =
      .ok (respond 405 [("allow", route.method)],
        { s with registry := (s.registry.status platform.crypto moment.now id).2 }) := by
  unfold handleRouted lookUp
  dsimp only
  rw [if_neg hgone, if_pos hmethod]

theorem handleRouted_refused (hgone : (s.registry.status platform.crypto moment.now id).1 ≠ .gone)
    (hmethod : request.method = route.method) (hroute : route ≠ .createSession)
    (hadmits : ¬ Admits platform.crypto s.registry moment.now id request.authorization) :
    handleRouted platform options s moment route path (some id) request =
      .ok (refusal platform.crypto s.registry.generationKey id request.authorization
          (s.registry.status platform.crypto moment.now id).1,
        { s with registry := (s.registry.status platform.crypto moment.now id).2 }) := by
  unfold handleRouted lookUp
  dsimp only
  rw [if_neg hgone, if_neg (not_not_intro hmethod), if_neg hroute,
    authenticate_refused (fun h => hadmits (admits_status.mp h)), status_again, status_generationKey]

theorem handleRouted_admitted {bearer : String} (hmethod : request.method = route.method)
    (hroute : route ≠ .createSession) (hlooks : Looks platform.crypto s.registry moment.now id e)
    (hparse : parseBearer request.authorization = some bearer)
    (hhash : e.bearerHash = platform.crypto.hashBearer bearer) :
    handleRouted platform options s moment route path (some id) request =
      dispatch platform options
        { s with registry := s.registry.setSession id (touched moment e) } moment route path id
        request := by
  unfold handleRouted lookUp
  dsimp only
  rw [hlooks.status]
  dsimp only
  rw [if_neg nofun, if_neg (not_not_intro hmethod), if_neg hroute,
    authenticate_admitted hlooks hparse hhash]
  rfl

theorem handleRouted_none (s : ServerState) :
    handleRouted platform options s moment route path none request =
      if request.method ≠ route.method then .ok (respond 405 [("allow", route.method)], s)
      else if route = .createSession then createSession platform s moment
      else .ok (respond 404, s) := by
  unfold handleRouted lookUp
  dsimp only
  rw [if_neg nofun]

/-- A request without the bearer of a session leaves it as it is. -/
theorem handleRouted_kept {t : ServerState} {sessionId : Option SessionId}
    (hfresh : Fresh platform.crypto s.registry moment.random)
    (hroute : sessionId ≠ none → route ≠ .createSession)
    (hlacks : Lacks platform.crypto s.registry sid request)
    (h : handleRouted platform options s moment route path sessionId request = .ok (reply, t)) :
    SameSession moment.now sid s.registry t.registry ∧ t.data sid = s.data sid := by
  cases sessionId with
  | none =>
    rw [handleRouted_none] at h
    split at h
    · obtain ⟨-, rfl⟩ := Prod.mk.inj (Except.ok.inj h)
      exact ⟨.refl _, rfl⟩
    split at h
    · refine createSession_kept (fun hid => ?_) h
      obtain ⟨e, hget, -⟩ := hlacks
      rw [hid, hfresh.id] at hget
      exact nomatch hget
    · obtain ⟨-, rfl⟩ := Prod.mk.inj (Except.ok.inj h)
      exact ⟨.refl _, rfl⟩
  | some id =>
    have hroute : route ≠ .createSession := hroute nofun
    by_cases hgone : (s.registry.status platform.crypto moment.now id).1 = .gone
    · obtain ⟨-, rfl⟩ := Prod.mk.inj (Except.ok.inj ((handleRouted_gone hgone).symm.trans h))
      exact ⟨sameSession_status, rfl⟩
    by_cases hmethod : request.method = route.method
    · by_cases hadmits : Admits platform.crypto s.registry moment.now id request.authorization
      · obtain ⟨e, bearer, hlooks, hparse, hhash⟩ := hadmits
        -- the request has the bearer of another session
        have hne : sid ≠ id := by
          rintro rfl
          exact hlacks.not_admits ⟨e, bearer, hlooks, hparse, hhash⟩
        rw [handleRouted_admitted hmethod hroute hlooks hparse hhash] at h
        rcases dispatch_cases platform options moment id hroute path request with
          ⟨handler, hlocal, heq⟩ | ⟨-, thrown, -, heq⟩
        · have hconfined := (confined_setSession s).trans (hlocal.confined hlooks.touched)
          rw [heq] at h
          rw [Except.ok.inj h] at hconfined
          exact ⟨hconfined.registry sid hne, hconfined.data sid hne⟩
        · exact nomatch (heq _).symm.trans h
      · obtain ⟨-, rfl⟩ := Prod.mk.inj
          (Except.ok.inj ((handleRouted_refused hgone hmethod hroute hadmits).symm.trans h))
        exact ⟨sameSession_status, rfl⟩
    · obtain ⟨-, rfl⟩ := Prod.mk.inj (Except.ok.inj ((handleRouted_method hgone hmethod).symm.trans h))
      exact ⟨sameSession_status, rfl⟩

/-- The reply to a request without the bearer of a session is the same in states that differ in it. -/
theorem handleRouted_alike {sessionId : Option SessionId}
    (hroute : sessionId ≠ none → route ≠ .createSession)
    (hlacks : Lacks platform.crypto s.registry sid request) (halike : Alike sid s s') :
    (handleRouted platform options s' moment route path sessionId request).map Prod.fst =
      (handleRouted platform options s moment route path sessionId request).map Prod.fst := by
  cases sessionId with
  | none =>
    rw [handleRouted_none, handleRouted_none]
    split
    · rfl
    split
    · exact halike.createSession
    · rfl
  | some id =>
    have hroute : route ≠ .createSession := hroute nofun
    have hstatus : (s'.registry.status platform.crypto moment.now id).1 =
      (s.registry.status platform.crypto moment.now id).1 := halike.status id
    by_cases hgone : (s.registry.status platform.crypto moment.now id).1 = .gone
    · rw [handleRouted_gone hgone, handleRouted_gone (hstatus.trans hgone), halike.generationKey]
      rfl
    have hgone' : (s'.registry.status platform.crypto moment.now id).1 ≠ .gone := hstatus ▸ hgone
    by_cases hmethod : request.method = route.method
    · by_cases hadmits : Admits platform.crypto s.registry moment.now id request.authorization
      · obtain ⟨e, bearer, hlooks, hparse, hhash⟩ := hadmits
        have hne : id ≠ sid := by
          rintro rfl
          exact hlacks.not_admits ⟨e, bearer, hlooks, hparse, hhash⟩
        have hlooks' := (halike.looks hne).mpr hlooks
        rw [handleRouted_admitted hmethod hroute hlooks hparse hhash,
          handleRouted_admitted hmethod hroute hlooks' hparse hhash]
        rcases dispatch_cases platform options moment id hroute path request with
          ⟨handler, hlocal, heq⟩ | ⟨-, thrown, -, heq⟩
        · rw [heq, heq]
          exact congrArg Except.ok (hlocal.same hlooks.touched hlooks'.touched (halike.data id hne))
        · rw [heq, heq]
      · have hadmits' : ¬ Admits platform.crypto s'.registry moment.now id request.authorization := by
          rintro ⟨e, bearer, hlooks, hparse, hhash⟩
          by_cases hne : id = sid
          · subst hne
            exact (hlacks.alike halike).not_admits ⟨e, bearer, hlooks, hparse, hhash⟩
          · exact hadmits ⟨e, bearer, (halike.looks hne).mp hlooks, hparse, hhash⟩
        rw [handleRouted_refused hgone hmethod hroute hadmits,
          handleRouted_refused hgone' hmethod hroute hadmits', hstatus, halike.generationKey]
        rfl
    · rw [handleRouted_method hgone hmethod, handleRouted_method hgone' hmethod]
      rfl

end NanFung.Http
