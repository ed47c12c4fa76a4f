import NanFung.Lib.Table

/-!
# Sessions of the agent runtime

`SessionRegistry` of `sessions.ts`: a map from session ids to their state, the ids that were found
idle for too long, and one flag per session that says whether a turn is active. A look-up moves an
idle session to the expired ids (`activeSession`). What a caller can see of a session at a time is
`live?`; the lemmas say how the operations act on it.
-/

namespace NanFung.Runtime

open Table

abbrev SessionId := String
abbrev TurnId := String

def idleTimeoutMs : Nat := 30 * 60 * 1000
def maxTurns : Nat := 16

inductive SessionStatus where
  | active | expired | gone
  deriving DecidableEq, Repr

structure SessionState where
  id : SessionId
  principal : String
  scopeId : String
  expiresAtMs : Nat
  activeTurn : Bool := false
  turnCount : Nat := 0
  deriving DecidableEq, Repr

/-- `session.active_turn = false` -/
def SessionState.release (s : SessionState) : SessionState := { s with activeTurn := false }

/-- `session.active_turn = true; session.turn_count += 1` -/
def SessionState.reserve (s : SessionState) : SessionState :=
  { s with activeTurn := true, turnCount := s.turnCount + 1 }

/-- `session.expires_at_ms = deadline` -/
def SessionState.extend (deadline : Nat) (s : SessionState) : SessionState :=
  { s with expiresAtMs := deadline }

@[simp] theorem SessionState.release_id (s : SessionState) : s.release.id = s.id := rfl

@[simp] theorem SessionState.reserve_id (s : SessionState) : s.reserve.id = s.id := rfl

@[simp] theorem SessionState.extend_id (deadline : Nat) (s : SessionState) :
    (s.extend deadline).id = s.id := rfl

theorem keyed_none : Keyed SessionState.id [] := keyed_nil _

/-- Ids carry the generation tag of the registry that minted them; any other string is in neither
list and reads as gone. -/
structure SessionRegistry where
  maxSessions : Nat := 8
  sessions : List SessionState := []
  keyed : Keyed (·.id) sessions := by exact keyed_none
  expiredSessionIds : List SessionId := []
  usedScopeIds : List String := []
  deriving DecidableEq, Repr

/-- Why `reserveTurn` refuses. -/
inductive Refusal where
  | noActiveTurn | turnLimit | notActive
  deriving DecidableEq, Repr

inductive ActiveSession where
  | active (session : SessionState)
  | expired
  | gone
  deriving DecidableEq, Repr

namespace SessionRegistry

variable (r : SessionRegistry) (now : Nat) (id : SessionId)

/-- The sessions a condition keeps. -/
def keep (p : SessionState → Bool) : SessionRegistry :=
  { r with
    sessions := r.sessions.filter p
    keyed := r.keyed.sublist (List.filter_sublist.map _) }

/-- `#sessions.delete` -/
def close : SessionRegistry := r.keep (·.id ≠ id)

/-- `#sessions.delete` and `#expiredSessionIds.add`. -/
def expire : SessionRegistry :=
  { r.close id with expiredSessionIds := r.expiredSessionIds ++ [id] }

/-- `#activeSession` -/
def activeSession : ActiveSession × SessionRegistry :=
  match r.sessions.find? (·.id = id) with
  | none => (if id ∈ r.expiredSessionIds then .expired else .gone, r)
  | some session => if session.expiresAtMs ≤ now then (.expired, r.expire id) else (.active session, r)

def status : SessionStatus × SessionRegistry :=
  let (session, r) := r.activeSession now id
  match session with
  | .active _ => (.active, r)
  | .expired => (.expired, r)
  | .gone => (.gone, r)

/-- Assignment to fields of one session. -/
def modify (f : SessionState → SessionState) (hf : ∀ s, (f s).id = s.id) : SessionRegistry :=
  { r with
    sessions := updateWhere (·.id = id) f r.sessions
    keyed := r.keyed.updateWhere hf }

def touch : SessionRegistry :=
  let (session, r) := r.activeSession now id
  match session with
  | .active _ => r.modify id (.extend (now + idleTimeoutMs)) (SessionState.extend_id _)
  | _ => r

def reserveTurn : Except Refusal Unit × SessionRegistry :=
  let (session, r) := r.activeSession now id
  match session with
  | .active session =>
    if session.activeTurn then (.error .noActiveTurn, r)
    else if maxTurns ≤ session.turnCount then (.error .turnLimit, r)
    else (.ok (), r.modify id .reserve SessionState.reserve_id)
  | _ => (.error .notActive, r)

def releaseTurn : SessionRegistry :=
  let (session, r) := r.activeSession now id
  match session with
  | .active _ => r.modify id .release SessionState.release_id
  | _ => r

/-- `#expireIdleSessions` -/
def expireIdleSessions : SessionRegistry :=
  { r.keep (now < ·.expiresAtMs) with
    expiredSessionIds :=
      r.expiredSessionIds ++ (r.sessions.filter (·.expiresAtMs ≤ now)).map (·.id) }

/-- `createSession` without an explicit scope: `id` and `scopeId` are random and new. `none` is
`SESSION_LIMIT`. -/
def createSession (principal scopeId : String) (hnew : ∀ s ∈ r.sessions, s.id ≠ id) :
    Option SessionRegistry :=
  let idle := r.expireIdleSessions now
  if idle.maxSessions ≤ idle.sessions.length then none
  else some { idle with
    usedScopeIds := idle.usedScopeIds ++ [scopeId]
    sessions := idle.sessions ++ [{ id, principal, scopeId, expiresAtMs := now + idleTimeoutMs }]
    keyed := idle.keyed.append fun s hs => hnew s (List.mem_filter.mp hs).1 }

/-- The session, unless it is closed or idle for too long. -/
def live? : Option SessionState :=
  match (r.activeSession now id).1 with
  | .active session => some session
  | _ => none

/-! ## What the operations do to a live session -/

variable {r now id} {later : Nat} {other : SessionId}

theorem live?_eq :
    r.live? now id = (r.sessions.find? (·.id = id)).filter (now < ·.expiresAtMs) := by
  unfold live? activeSession
  cases hfind : r.sessions.find? (·.id = id) with
  | none =>
    dsimp only
    split
    · next hs => split at hs <;> exact nomatch hs
    · rfl
  | some session =>
    by_cases hexp : session.expiresAtMs ≤ now
    · simp [hexp, Option.filter, not_lt.mpr hexp]
    · simp [hexp, Option.filter, not_le.mp hexp]

/-- Only the sessions matter. -/
theorem live?_congr {r' : SessionRegistry} (h : r'.sessions = r.sessions) :
    r'.live? now id = r.live? now id := by
  rw [live?_eq, live?_eq, h]

theorem live?_id {session : SessionState} (h : r.live? now id = some session) : session.id = id := by
  rw [live?_eq, Option.filter_eq_some_iff] at h
  simpa using List.find?_some h.1

/-- A session that is live later is live now, with the same state. -/
theorem live?_of_later {session : SessionState} (hle : now ≤ later)
    (h : r.live? later id = some session) : r.live? now id = some session := by
  rw [live?_eq, Option.filter_eq_some_iff] at h ⊢
  exact ⟨h.1, by simpa using lt_of_le_of_lt hle (by simpa using h.2)⟩

theorem find?_remove (sessions : List SessionState) (id other : SessionId) :
    (sessions.filter (·.id ≠ id)).find? (·.id = other) =
      if other = id then none else sessions.find? (·.id = other) := by
  rw [List.find?_filter]
  split
  · next h =>
    subst h
    exact List.find?_eq_none.mpr fun s _ => by simp
  · next h =>
    congr 1
    funext s
    by_cases hs : s.id = other
    · simp [hs, h]
    · simp [hs]

@[simp] theorem live?_close :
    (r.close id).live? now other = if other = id then none else r.live? now other := by
  rw [live?_eq, live?_eq, close, keep, find?_remove]
  split <;> rfl

/-- Moving an idle session to the expired ids changes nothing that can be seen from then on. -/
@[simp] theorem live?_activeSession :
    (r.activeSession now id).2.live? now other = r.live? now other := by
  unfold activeSession
  cases hfind : r.sessions.find? (·.id = id) with
  | none => rfl
  | some session =>
    dsimp only
    split
    · next hexp =>
      have hsessions : (r.expire id).sessions = (r.close id).sessions := rfl
      show (r.expire id).live? now other = _
      rw [live?_congr hsessions, live?_close]
      split
      · next h =>
        subst h
        rw [live?_eq, hfind]
        simp [Option.filter, not_lt.mpr hexp]
      · rfl
    · rfl

theorem live?_modify {f : SessionState → SessionState} (hf : ∀ s, (f s).id = s.id) :
    (r.modify id f hf).live? now other =
      if other = id then ((r.sessions.find? (·.id = id)).map f).filter (now < ·.expiresAtMs)
      else r.live? now other := by
  rw [live?_eq, live?_eq, modify, find?_updateWhere fun s _ => hf s]
  split
  · next h =>
    subst h
    cases hfind : r.sessions.find? (·.id = other) with
    | none => rfl
    | some s =>
      have hs : s.id = other := by simpa using List.find?_some hfind
      simp [hs]
  · next h =>
    cases hfind : r.sessions.find? (·.id = other) with
    | none => rfl
    | some s =>
      have hs : s.id = other := by simpa using List.find?_some hfind
      simp [hs, h]

/-- A change that keeps the deadline changes the live session. -/
theorem live?_modify_of_deadline {f : SessionState → SessionState} (hf : ∀ s, (f s).id = s.id)
    (hdeadline : ∀ s, (f s).expiresAtMs = s.expiresAtMs) :
    (r.modify id f hf).live? now other =
      if other = id then (r.live? now id).map f else r.live? now other := by
  rw [live?_modify hf]
  split
  · rw [live?_eq]
    cases r.sessions.find? (·.id = id) with
    | none => rfl
    | some s =>
      by_cases h : now < s.expiresAtMs <;> simp [Option.filter, h, hdeadline]
  · rfl

theorem activeSession_of_live? {session : SessionState} (h : r.live? now id = some session) :
    r.activeSession now id = (.active session, r) := by
  rw [live?_eq, Option.filter_eq_some_iff] at h
  have hlt : now < session.expiresAtMs := by simpa using h.2
  simp [activeSession, h.1, not_le.mpr hlt]

theorem live?_of_active {session : SessionState}
    (h : (r.activeSession now id).1 = .active session) : r.live? now id = some session := by
  rw [live?, h]

@[simp] theorem status_active :
    (r.status now id).1 = .active ↔ (r.live? now id).isSome := by
  unfold status live?
  rcases r.activeSession now id with ⟨_ | _ | _, _⟩ <;> simp

@[simp] theorem live?_status : (r.status now id).2.live? now other = r.live? now other := by
  rw [← @live?_activeSession r _ id other]
  unfold status
  rcases r.activeSession now id with ⟨_ | _ | _, _⟩ <;> rfl

/-- Releasing clears the flag of the session, whichever turn it was raised for. -/
@[simp] theorem live?_releaseTurn :
    (r.releaseTurn now id).live? now other =
      if other = id then (r.live? now id).map .release
      else r.live? now other := by
  unfold releaseTurn
  have hsame := @live?_activeSession r now id other
  have hself := @live?_activeSession r now id id
  have hlive : r.live? now id = match (r.activeSession now id).1 with
    | .active session => some session
    | _ => none := rfl
  rcases h : r.activeSession now id with ⟨_ | _ | _, r'⟩ <;> rw [h] at hsame hself hlive
  · dsimp only at hsame hself ⊢
    rw [live?_modify_of_deadline SessionState.release_id fun _ => rfl, hsame, hself]
  all_goals
    dsimp only at hsame hlive ⊢
    rw [hsame, hlive]
    split
    · next h => rw [h, hlive]; rfl
    · rfl

/-- An accepted reservation found the flag down, and raised it. -/
theorem reserveTurn_ok {r' : SessionRegistry} (h : r.reserveTurn now id = (.ok (), r')) :
    ∃ session, r.live? now id = some session ∧ session.activeTurn = false ∧
      session.turnCount < maxTurns ∧
      ∀ other, r'.live? now other =
        if other = id then (r.live? now id).map .reserve else r.live? now other := by
  unfold reserveTurn at h
  rcases hactive : r.activeSession now id with ⟨session | _ | _, r₁⟩ <;> rw [hactive] at h
  · have hlive : r.live? now id = some session := live?_of_active (by rw [hactive])
    have hr₁ : r₁ = r := by
      rw [activeSession_of_live? hlive] at hactive
      exact (Prod.mk.inj hactive).2.symm
    subst hr₁
    dsimp only at h
    split at h
    · exact nomatch h
    · next hflag =>
      split at h
      · exact nomatch h
      · next hcount =>
        obtain rfl := (Prod.mk.inj h).2
        refine ⟨session, hlive, by simpa using hflag, not_le.mp hcount, fun other => ?_⟩
        exact live?_modify_of_deadline _ fun _ => rfl
  · exact nomatch h
  · exact nomatch h

/-- A raised flag refuses. -/
theorem reserveTurn_of_activeTurn {session : SessionState} (h : r.live? now id = some session)
    (hflag : session.activeTurn = true) : (r.reserveTurn now id).1 = .error .noActiveTurn := by
  simp [reserveTurn, activeSession_of_live? h, hflag]

/-- A session whose flag is down takes a turn, as long as it has turns left. -/
theorem reserveTurn_of_idle {session : SessionState} (h : r.live? now id = some session)
    (hflag : session.activeTurn = false) (hcount : session.turnCount < maxTurns) :
    (r.reserveTurn now id).1 = .ok () := by
  simp [reserveTurn, activeSession_of_live? h, hflag, not_le.mpr hcount]

theorem live?_of_reserveTurn_error {e : Refusal} {r' : SessionRegistry}
    (h : r.reserveTurn now id = (.error e, r')) : r'.live? now other = r.live? now other := by
  have hsame := @live?_activeSession r now id other
  unfold reserveTurn at h
  rcases hactive : r.activeSession now id with ⟨session | _ | _, r₁⟩ <;> rw [hactive] at h hsame
  · dsimp only at h
    split at h
    · obtain rfl := (Prod.mk.inj h).2
      exact hsame
    · split at h
      · obtain rfl := (Prod.mk.inj h).2
        exact hsame
      · exact nomatch h
  all_goals
    obtain rfl := (Prod.mk.inj h).2
    exact hsame

theorem live?_touch_of_ne (h : other ≠ id) : (r.touch now id).live? now other = r.live? now other := by
  have hsame := @live?_activeSession r now id other
  unfold touch
  rcases hactive : r.activeSession now id with ⟨session | _ | _, r₁⟩ <;> rw [hactive] at hsame
  · dsimp only at hsame ⊢
    rw [live?_modify, if_neg h, hsame]
  · exact hsame
  · exact hsame

/-- Only a live session is touched, and nothing but its deadline changes. -/
theorem live?_touch {session : SessionState} (h : (r.touch now id).live? now id = some session) :
    ∃ before, r.live? now id = some before ∧ before.activeTurn = session.activeTurn := by
  unfold touch at h
  rcases hactive : r.activeSession now id with ⟨before | _ | _, r₁⟩ <;> rw [hactive] at h
  · have hlive : r.live? now id = some before := live?_of_active (by rw [hactive])
    obtain rfl : r₁ = r := by
      rw [activeSession_of_live? hlive] at hactive
      exact (Prod.mk.inj hactive).2.symm
    refine ⟨before, hlive, ?_⟩
    dsimp only at h
    rw [live?_modify, if_pos rfl, Option.filter_eq_some_iff] at h
    rw [live?_eq, Option.filter_eq_some_iff] at hlive
    obtain ⟨h, _⟩ := h
    rw [hlive.1] at h
    cases h
    rfl
  all_goals
    have hsame := @live?_activeSession r now id id
    rw [hactive] at hsame
    exact ⟨session, hsame.symm.trans h, rfl⟩

@[simp] theorem live?_expireIdleSessions :
    (r.expireIdleSessions now).live? now other = r.live? now other := by
  rw [live?_eq, live?_eq, expireIdleSessions, keep, List.find?_filter]
  cases hfind : r.sessions.find? (·.id = other) with
  | none =>
    rw [List.find?_eq_none.mpr]
    exact fun s hs => by simpa using fun _ => by simpa using List.find?_eq_none.mp hfind s hs
  | some session =>
    obtain ⟨hmem, hid⟩ := (r.keyed.find?_eq_some (κ := SessionId)).mp hfind
    by_cases hlt : now < session.expiresAtMs
    · have hkept : session ∈ r.sessions.filter (now < ·.expiresAtMs) :=
        List.mem_filter.mpr ⟨hmem, by simpa using hlt⟩
      have hkeyed : Keyed SessionState.id (r.sessions.filter (now < ·.expiresAtMs)) :=
        (r.keep (now < ·.expiresAtMs)).keyed
      rw [← List.find?_filter, hkeyed.find?_eq_some.mpr ⟨hkept, hid⟩]
    · rw [List.find?_eq_none.mpr]
      · simp [Option.filter, hlt]
      · intro s hs
        by_cases hsid : s.id = other
        · obtain rfl := r.keyed.eq_of_mem hs hmem (hsid.trans hid.symm)
          simp [hlt]
        · simp [hsid]

/-- A new session starts with the flag down; the others are as before. -/
theorem live?_createSession {principal scopeId : String} {r' : SessionRegistry}
    {hnew : ∀ s ∈ r.sessions, s.id ≠ id}
    (h : r.createSession now id principal scopeId hnew = some r') (other : SessionId) :
    r'.live? now other =
      if other = id then some { id, principal, scopeId, expiresAtMs := now + idleTimeoutMs }
      else r.live? now other := by
  unfold createSession at h
  dsimp only at h
  split at h
  · exact nomatch h
  · obtain rfl := Option.some.inj h
    have hnew' : ∀ s ∈ (r.expireIdleSessions now).sessions, s.id ≠ id := fun s hs =>
      hnew s (List.mem_filter.mp hs).1
    rw [live?_eq]
    dsimp only
    rw [find?_append_new hnew']
    dsimp only
    by_cases hid : other = id
    · subst hid
      simp [Option.filter, idleTimeoutMs]
    · rw [if_neg fun h => hid h.symm, if_neg hid, ← live?_expireIdleSessions, live?_eq]

end SessionRegistry

end NanFung.Runtime
