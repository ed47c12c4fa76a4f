import NanFung.Runtime.Server

/-!
# What a turn still has to do

`Executing`, `Continuing` and `AwaitsFor` are the three reasons why a turn is not over: its `execute`
is under way, its approved continuation is, or one of its approvals can still be decided. A turn
without a terminal event is `Open` as long as there is one. The first part says how the building
blocks of a step act on these views. `Sound` collects what ties the coordinators' maps to the turns,
in every state a run reaches.
-/

namespace NanFung.Runtime

open Table

/-- The continuation that a decision carries on with, once it is approved. -/
def Waiting.continues : Waiting → Option Continuation
  | .facade _ => none
  | .outcome k | .prompt k _ => some k

/-- The continuation a decision holds on to. -/
def Waiting.continuation : Waiting → Option Continuation
  | .facade continuation => continuation
  | .outcome k | .prompt k _ => some k

theorem Waiting.continuation_of_continues {w : Waiting} {k : Continuation}
    (h : w.continues = some k) : w.continuation = some k := by
  cases w with
  | facade continuation => exact nomatch h
  | outcome k' => exact h
  | prompt k' n => exact h

namespace Server

section

variable (s : Server) (sessionId : SessionId) (turnId : TurnId)

def HasTurn (t : Turn) : Prop := t ∈ s.turns ∧ t.sessionId = sessionId ∧ t.turnId = turnId

/-- `execute` has not ended. -/
def Executing : Prop := ∃ t, s.HasTurn sessionId turnId t ∧ t.phase ≠ .finished

/-- The turn was approved, and `#dispatch` has not carried it on to its end. -/
def Continuing : Prop :=
  ∃ d ∈ s.deciding, ∃ k ∈ d.2.continues, k.sessionId = sessionId ∧ k.turnId = turnId

/-- An approval the turn asked for can still be decided. -/
def AwaitsFor : Prop :=
  ∃ a ∈ s.pending, s.undecided a = true ∧ a.sessionId = sessionId ∧
    ∃ t, s.HasTurn sessionId turnId t ∧ refreshMatches t a = true

def Terminal : Prop := s.hub.terminal sessionId turnId = true

/-- The turn has no terminal event, and something may still give it one. -/
def Open : Prop :=
  ¬s.Terminal sessionId turnId ∧
    (s.Executing sessionId turnId ∨ s.Continuing sessionId turnId ∨ s.AwaitsFor sessionId turnId)

/-- The session, if it is live. -/
def live? : Option SessionState := s.registry.live? s.now sessionId

/-- The ids of the reserved turns, oldest first. -/
def reservations : List (SessionId × TurnId) := s.turns.map fun t => (t.sessionId, t.turnId)

/-- The turn that was reserved last for a session. -/
def latest? : Option TurnId :=
  ((s.reservations.filter (·.1 = sessionId)).getLast?).map (·.2)

end

variable {s : Server} {sessionId session : SessionId} {turnId turn : TurnId}

theorem turn?_mem {t : Turn} (h : s.turn? turnId = some t) : t ∈ s.turns ∧ t.turnId = turnId :=
  ⟨List.mem_of_find?_eq_some h, by simpa using List.find?_some h⟩

theorem undecided_iff {a : PendingApproval} :
    s.undecided a = true ↔ a.decision = none ∧ s.clock < a.expiresAtMs := by
  simp [undecided]

theorem isAwaiting_iff : s.isAwaiting sessionId = true ↔
    ∃ a ∈ s.pending, a.sessionId = sessionId ∧ s.undecided a = true := by
  simp [isAwaiting]

theorem isAwaiting_of_awaitsFor (h : s.AwaitsFor sessionId turnId) : s.isAwaiting sessionId = true := by
  obtain ⟨a, ha, hundecided, hsession, _⟩ := h
  exact isAwaiting_iff.mpr ⟨a, ha, hsession, hundecided⟩

/-! ## Publishing -/

section emitAll

variable {bodies : List SseBody} {accepted : Bool} {s' : Server}

theorem terminal_emitAll_mono (h : s.Terminal session turn) :
    (s.emitAll sessionId turnId bodies).1.Terminal session turn :=
  SseHub.terminal_emitAll_of_terminal h

theorem terminal_emitAll_of_mem {body : SseBody} (hbody : body ∈ bodies)
    (hterminal : body.isTerminal = true) :
    (s.emitAll sessionId turnId bodies).1.Terminal sessionId turnId :=
  SseHub.terminal_emitAll_of_mem hbody hterminal

theorem terminal_of_emitAll_refused (h : (s.emitAll sessionId turnId bodies).2 = false) :
    (s.emitAll sessionId turnId bodies).1.Terminal sessionId turnId :=
  SseHub.terminal_of_emitAll_false h

end emitAll

/-! ## Changing a turn -/

section modifyTurn

variable {f : Turn → Turn}

@[simp] theorem reservations_modifyTurn
    (hf : ∀ t, (f t).sessionId = t.sessionId ∧ (f t).turnId = t.turnId) :
    (s.modifyTurn turnId f).reservations = s.reservations :=
  map_updateWhere (fun t => Prod.ext (hf t).1 (hf t).2) s.turns

theorem mem_modifyTurn {t : Turn} (h : t ∈ (s.modifyTurn turnId f).turns) :
    t ∈ s.turns ∧ t.turnId ≠ turnId ∨ ∃ t₀ ∈ s.turns, t₀.turnId = turnId ∧ t = f t₀ := by
  rcases mem_updateWhere.mp h with ⟨t₀, ht₀, hid, rfl⟩ | ⟨ht, hid⟩
  · exact Or.inr ⟨t₀, ht₀, by simpa using hid, rfl⟩
  · exact Or.inl ⟨ht, by simpa using hid⟩

theorem mem_modifyTurn_of_mem {t : Turn} (h : t ∈ s.turns) :
    (if t.turnId = turnId then f t else t) ∈ (s.modifyTurn turnId f).turns := by
  have hmem := mem_updateWhere_of_mem (p := fun t : Turn => t.turnId = turnId) (f := f) h
  simp only [decide_eq_true_eq] at hmem
  exact hmem

/-- A turn of the changed list was in the list, with the same ids. -/
theorem hasTurn_of_modifyTurn (hf : ∀ t, (f t).sessionId = t.sessionId ∧ (f t).turnId = t.turnId)
    {t : Turn} (h : (s.modifyTurn turnId f).HasTurn session turn t) :
    ∃ t₀, s.HasTurn session turn t₀ ∧ (t = t₀ ∨ t₀.turnId = turnId ∧ t = f t₀) := by
  obtain ⟨hmem, hs, ht⟩ := h
  rcases mem_modifyTurn hmem with ⟨hmem, _⟩ | ⟨t₀, ht₀, hid, rfl⟩
  · exact ⟨t, ⟨hmem, hs, ht⟩, Or.inl rfl⟩
  · rw [(hf t₀).1] at hs
    rw [(hf t₀).2] at ht
    exact ⟨t₀, ⟨ht₀, hs, ht⟩, Or.inr ⟨hid, rfl⟩⟩

/-- A change that starts no `execute` again leaves no turn executing that was not. -/
theorem executing_of_modifyTurn (hf : ∀ t, (f t).sessionId = t.sessionId ∧ (f t).turnId = t.turnId)
    (hphase : ∀ t, (f t).phase ≠ .finished → t.phase ≠ .finished)
    (h : (s.modifyTurn turnId f).Executing session turn) : s.Executing session turn := by
  obtain ⟨t, ht, hne⟩ := h
  obtain ⟨t₀, ht₀, rfl | ⟨_, rfl⟩⟩ := hasTurn_of_modifyTurn hf ht
  · exact ⟨t, ht₀, hne⟩
  · exact ⟨t₀, ht₀, hphase t₀ hne⟩

theorem awaitsFor_of_modifyTurn (hf : ∀ t, (f t).sessionId = t.sessionId ∧ (f t).turnId = t.turnId)
    (hrefresh : ∀ t, (f t).refreshIds = t.refreshIds)
    (h : (s.modifyTurn turnId f).AwaitsFor session turn) : s.AwaitsFor session turn := by
  obtain ⟨a, ha, hundecided, hsession, t, ht, hmatch⟩ := h
  obtain ⟨t₀, ht₀, rfl | ⟨_, rfl⟩⟩ := hasTurn_of_modifyTurn hf ht
  · exact ⟨a, ha, hundecided, hsession, t, ht₀, hmatch⟩
  · refine ⟨a, ha, hundecided, hsession, t₀, ht₀, ?_⟩
    rwa [refreshMatches, hrefresh] at hmatch

end modifyTurn

/-! ## The slots of continuations -/

theorem mem_setContinuation {k : Continuation}
    (h : k ∈ (s.setContinuation sessionId turnId).continuations) :
    k ∈ s.continuations ∨ k = ⟨sessionId, turnId, s.nextRef⟩ := by
  unfold setContinuation upsert at h
  dsimp only at h
  split at h
  · rcases mem_updateWhere.mp h with ⟨_, _, _, rfl⟩ | ⟨hk, _⟩
    · exact Or.inr rfl
    · exact Or.inl hk
  · simpa using h

theorem continuation?_setContinuation :
    (s.setContinuation sessionId turnId).continuation? session =
      if sessionId = session then some ⟨sessionId, turnId, s.nextRef⟩
      else s.continuation? session :=
  find?_upsert Continuation.sessionId ⟨sessionId, turnId, s.nextRef⟩ s.continuations session

theorem continuation?_mem {k : Continuation} (h : s.continuation? sessionId = some k) :
    k ∈ s.continuations ∧ k.sessionId = sessionId :=
  ⟨List.mem_of_find?_eq_some h, by simpa using List.find?_some h⟩

/-- What `enqueueContinuation` does: it resolves the slot's object or a new one. -/
theorem enqueueContinuation_cases :
    (∃ k, s.continuation? sessionId = some k ∧ k.turnId = turnId ∧
      s.enqueueContinuation sessionId turnId = { s with resolved := s.resolved ++ [k.ref] }) ∨
    (∀ k, s.continuation? sessionId = some k → k.turnId ≠ turnId) ∧
      s.enqueueContinuation sessionId turnId =
        { s.setContinuation sessionId turnId with resolved := s.resolved ++ [s.nextRef] } := by
  unfold enqueueContinuation
  cases hslot : s.continuation? sessionId with
  | none => exact Or.inr ⟨(fun k hk => nomatch hk), rfl⟩
  | some k =>
    by_cases hturn : k.turnId = turnId
    · exact Or.inl ⟨k, rfl, hturn, by simp [hturn]⟩
    · exact Or.inr ⟨fun k' hk' => Option.some.inj hk' ▸ hturn, by simp [hturn]⟩

/-! ## What ties the coordinators' maps to the turns -/

end Server

/-- `runTurn` has started and not thrown. -/
def Phase.inTurn : Phase → Bool
  | .running | .returned _ => true
  | _ => false

/-- `onTurnCreated` has run: the turn has a context. -/
def Turn.Created (t : Turn) : Prop := t.runner.reducer.hasStarted = true

namespace Server

/-- A continuation object that is still in use. -/
def Object (s : Server) (k : Continuation) : Prop :=
  k ∈ s.continuations ∨ ∃ d ∈ s.deciding, d.2.continuation = some k

/-- What a map refers to is a turn that has a context. -/
def Refers (s : Server) (sessionId : SessionId) (turnId : TurnId) : Prop :=
  ∃ t, s.HasTurn sessionId turnId t ∧ t.Created

structure Sound (s : Server) : Prop where
  turns : Keyed Turn.turnId s.turns
  refreshes : ∀ t ∈ s.turns, ∀ t' ∈ s.turns, ∀ r ∈ t.refreshIds, ∀ r' ∈ t'.refreshIds,
    r.refreshRequestId = r'.refreshRequestId → t.turnId = t'.turnId
  fresh : ∀ t ∈ s.turns, t.phase = .reading ∨ t.phase = .booting → ¬t.Created
  started : ∀ t ∈ s.turns, t.phase.inTurn = true → t.Created
  objects : ∀ k, s.Object k → s.Refers k.sessionId k.turnId
  refs : ∀ k, s.Object k → k.ref < s.nextRef
  identity : ∀ k k', s.Object k → s.Object k' → k.ref = k'.ref → k = k'
  resolved : ∀ ref ∈ s.resolved, ref < s.nextRef
  done : ∀ k, s.Object k → k.ref ∈ s.resolved →
    ∀ t, s.HasTurn k.sessionId k.turnId t → t.phase = .finished
  prompt : ∀ c k n, s.deciding = some (c, .prompt k n) → k.ref ∈ s.resolved
  caller : ∀ d ∈ s.deciding, ∀ k, d.2.continuation = some k → k.sessionId = d.1.sessionId
  pending : ∀ a ∈ s.pending, ∃ t ∈ s.turns, t.sessionId = a.sessionId ∧ t.Created ∧
    refreshMatches t a = true
  slot : ∀ t ∈ s.turns, t.Created → (s.continuation? t.sessionId).isSome
  approvals : Keyed PendingApproval.approvalId s.pending
  active : ∀ x ∈ s.activeTurns, s.Refers x.sessionId x.turnId

variable {s s' : Server} {sessionId session : SessionId} {turnId turn : TurnId}

theorem Sound.init (origin : Nat) : Sound { timeOrigin := origin } where
  turns := List.nodup_nil
  refreshes _ ht := nomatch ht
  fresh _ ht := nomatch ht
  started _ ht := nomatch ht
  objects k hk := by simp [Object] at hk
  refs k hk := by simp [Object] at hk
  identity k _ hk := by simp [Object] at hk
  resolved _ hr := nomatch hr
  done k hk := by simp [Object] at hk
  prompt _ _ _ h := nomatch h
  caller _ hd := nomatch hd
  pending _ ha := nomatch ha
  slot _ ht := nomatch ht
  approvals := List.nodup_nil
  active _ hx := nomatch hx

theorem Sound.hasTurn_unique (h : s.Sound) {t t' : Turn} (ht : s.HasTurn sessionId turnId t)
    (ht' : s.HasTurn session turnId t') : t = t' :=
  h.turns.eq_of_mem ht.1 ht'.1 (ht.2.2.trans ht'.2.2.symm)

theorem Sound.turn?_eq (h : s.Sound) {t : Turn} (ht : t ∈ s.turns) : s.turn? t.turnId = some t :=
  h.turns.find?_eq_some.mpr ⟨ht, rfl⟩

/-- Two turns that asked for one approval are the same. -/
theorem Sound.owner_unique (h : s.Sound) {a : PendingApproval} {t t' : Turn} (ht : t ∈ s.turns)
    (ht' : t' ∈ s.turns) (hmatch : refreshMatches t a = true) (hmatch' : refreshMatches t' a = true) :
    t = t' := by
  simp only [refreshMatches, List.any_eq_true, Bool.and_eq_true, decide_eq_true_eq] at hmatch hmatch'
  obtain ⟨r, hr, hid, _⟩ := hmatch
  obtain ⟨r', hr', hid', _⟩ := hmatch'
  exact h.turns.eq_of_mem ht ht' (h.refreshes t ht t' ht' r hr r' hr' (hid.trans hid'.symm))

/-- Another decision is under way, or none: the maps are as they were. -/
theorem Sound.deciding (h : s.Sound) (hturns : s'.turns = s.turns)
    (hactive : s'.activeTurns = s.activeTurns) (hpending : s'.pending = s.pending)
    (hslots : s'.continuations = s.continuations) (hnext : s'.nextRef = s.nextRef)
    (hresolved : s'.resolved = s.resolved)
    (hcaller : ∀ d ∈ s'.deciding, ∀ k, d.2.continuation = some k →
      s.Object k ∧ k.sessionId = d.1.sessionId)
    (hprompt : ∀ c k n, s'.deciding = some (c, .prompt k n) → k.ref ∈ s.resolved) : s'.Sound := by
  have hobject : ∀ k, s'.Object k → s.Object k := by
    rintro k (hk | ⟨d, hd, hk⟩)
    · exact Or.inl (hslots ▸ hk)
    · exact (hcaller d hd k hk).1
  have hhas : ∀ sid tid t, s'.HasTurn sid tid t ↔ s.HasTurn sid tid t := fun sid tid t => by
    unfold HasTurn
    rw [hturns]
  have hrefers : ∀ sid tid, s.Refers sid tid → s'.Refers sid tid := by
    rintro sid tid ⟨t, ht, hcreated⟩
    exact ⟨t, (hhas sid tid t).mpr ht, hcreated⟩
  constructor
  · rw [hturns]; exact h.turns
  · rw [hturns]; exact h.refreshes
  · rw [hturns]; exact h.fresh
  · rw [hturns]; exact h.started
  · exact fun k hk => hrefers _ _ (h.objects k (hobject k hk))
  · rw [hnext]; exact fun k hk => h.refs k (hobject k hk)
  · exact fun k k' hk hk' => h.identity k k' (hobject k hk) (hobject k' hk')
  · rw [hnext, hresolved]; exact h.resolved
  · rw [hresolved]
    exact fun k hk hr t ht => h.done k (hobject k hk) hr t ((hhas _ _ t).mp ht)
  · rw [hresolved]; exact hprompt
  · exact fun d hd k hk => (hcaller d hd k hk).2
  · rw [hpending, hturns]; exact h.pending
  · unfold continuation?
    rw [hturns, hslots]
    exact h.slot
  · rw [hpending]; exact h.approvals
  · rw [hactive]
    exact fun x hx => hrefers _ _ (h.active x hx)

/-- Clock, sessions, events and the record of decisions do not matter. -/
theorem Sound.congr (h : s.Sound) (hturns : s'.turns = s.turns)
    (hactive : s'.activeTurns = s.activeTurns) (hpending : s'.pending = s.pending)
    (hslots : s'.continuations = s.continuations) (hnext : s'.nextRef = s.nextRef)
    (hresolved : s'.resolved = s.resolved) (hdeciding : s'.deciding = s.deciding) : s'.Sound := by
  refine h.deciding hturns hactive hpending hslots hnext hresolved (fun d hd k hk => ?_) fun c k n hp => ?_
  · rw [hdeciding] at hd
    exact ⟨Or.inr ⟨d, hd, hk⟩, h.caller d hd k hk⟩
  · rw [hdeciding] at hp
    exact h.prompt c k n hp

/-- A change of a turn that asks for nothing and does not go back. -/
structure Progresses (f : Turn → Turn) (t : Turn) : Prop where
  refreshIds : (f t).refreshIds = t.refreshIds
  created : (f t).Created ↔ t.Created
  phase : (f t).phase = t.phase ∨ t.phase ≠ .finished ∧ ((f t).phase.inTurn = true → t.Created) ∧
    ((f t).phase = .reading ∨ (f t).phase = .booting → ¬t.Created)

theorem Progresses.finished {f : Turn → Turn} {t : Turn} (h : Progresses f t)
    (ht : t.phase = .finished) : (f t).phase = .finished := by
  rcases h.phase with hp | ⟨hp, _⟩
  · rw [hp, ht]
  · exact absurd ht hp

theorem Progresses.refreshMatches {f : Turn → Turn} {t : Turn} (h : Progresses f t)
    (a : PendingApproval) : refreshMatches (f t) a = refreshMatches t a := by
  unfold Server.refreshMatches
  rw [h.refreshIds]

section

variable {f : Turn → Turn} (hids : ∀ t, (f t).sessionId = t.sessionId ∧ (f t).turnId = t.turnId)
  (hf : ∀ t ∈ s.turns, t.turnId = turnId → Progresses f t)

include hf

theorem Progresses.mem {t : Turn} (ht : t ∈ (s.modifyTurn turnId f).turns) :
    ∃ t₀ ∈ s.turns, t = t₀ ∨ t = f t₀ ∧ Progresses f t₀ := by
  rcases mem_modifyTurn ht with ⟨ht, _⟩ | ⟨t₀, ht₀, hid, rfl⟩
  · exact ⟨t, ht, Or.inl rfl⟩
  · exact ⟨t₀, ht₀, Or.inr ⟨rfl, hf t₀ ht₀ hid⟩⟩

include hids

theorem Progresses.refers (h : s.Refers session turn) : (s.modifyTurn turnId f).Refers session turn := by
  obtain ⟨t, ⟨ht, hs, hid⟩, hcreated⟩ := h
  refine ⟨_, ⟨mem_modifyTurn_of_mem ht, ?_, ?_⟩, ?_⟩ <;> split
  · rw [(hids t).1, hs]
  · exact hs
  · rw [(hids t).2, hid]
  · exact hid
  · next heq => exact (hf t ht heq).created.mpr hcreated
  · exact hcreated

theorem Sound.modifyTurn (h : s.Sound) : (s.modifyTurn turnId f).Sound := by
  have hbefore : ∀ t ∈ (s.modifyTurn turnId f).turns, ∃ t₀ ∈ s.turns, t₀.turnId = t.turnId ∧
      t₀.sessionId = t.sessionId ∧ t₀.refreshIds = t.refreshIds ∧ (t.Created ↔ t₀.Created) ∧
      (t₀.phase = .finished → t.phase = .finished) := by
    intro t ht
    obtain ⟨t₀, ht₀, rfl | ⟨rfl, hp⟩⟩ := Progresses.mem hf ht
    · exact ⟨t, ht₀, rfl, rfl, rfl, Iff.rfl, id⟩
    · exact ⟨t₀, ht₀, (hids t₀).2.symm, (hids t₀).1.symm, hp.refreshIds.symm, hp.created, hp.finished⟩
  constructor
  · exact h.turns.updateWhere fun t => (hids t).2
  · intro t ht t' ht' r hr r' hr' heq
    obtain ⟨t₀, ht₀, hid, _, hrefresh, _⟩ := hbefore t ht
    obtain ⟨t₀', ht₀', hid', _, hrefresh', _⟩ := hbefore t' ht'
    rw [← hid, ← hid']
    exact h.refreshes t₀ ht₀ t₀' ht₀' r (hrefresh ▸ hr) r' (hrefresh' ▸ hr') heq
  · intro t ht hphase
    obtain ⟨t₀, ht₀, rfl | ⟨rfl, hp⟩⟩ := Progresses.mem hf ht
    · exact h.fresh t ht₀ hphase
    · rw [hp.created]
      rcases hp.phase with heq | ⟨_, _, hfresh⟩
      · exact h.fresh t₀ ht₀ (heq ▸ hphase)
      · exact hfresh hphase
  · intro t ht hphase
    obtain ⟨t₀, ht₀, rfl | ⟨rfl, hp⟩⟩ := Progresses.mem hf ht
    · exact h.started t ht₀ hphase
    · rw [hp.created]
      rcases hp.phase with heq | ⟨_, hstarted, _⟩
      · exact h.started t₀ ht₀ (heq ▸ hphase)
      · exact hstarted hphase
  · exact fun k hk => Progresses.refers hids hf (h.objects k hk)
  · exact h.refs
  · exact h.identity
  · exact h.resolved
  · intro k hk hr t ht
    obtain ⟨t₀, ht₀, hid, hs, _, _, hfinished⟩ := hbefore t ht.1
    exact hfinished (h.done k hk hr t₀ ⟨ht₀, hs.trans ht.2.1, hid.trans ht.2.2⟩)
  · exact h.prompt
  · exact h.caller
  · intro a ha
    obtain ⟨t, ht, hs, hcreated, hmatch⟩ := h.pending a ha
    refine ⟨_, mem_modifyTurn_of_mem ht, ?_⟩
    split
    · next heq =>
      have hp := hf t ht heq
      exact ⟨(hids t).1.trans hs, hp.created.mpr hcreated, (hp.refreshMatches a).trans hmatch⟩
    · exact ⟨hs, hcreated, hmatch⟩
  · intro t ht hcreated
    obtain ⟨t₀, ht₀, _, hs, _, hc, _⟩ := hbefore t ht
    rw [← hs]
    exact h.slot t₀ ht₀ (hc.mp hcreated)
  · exact h.approvals
  · exact fun x hx => Progresses.refers hids hf (h.active x hx)

end

end Server

end NanFung.Runtime
