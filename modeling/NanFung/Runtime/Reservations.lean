import NanFung.Runtime.Soundness

/-!
# One active turn per session

`activeTurn` is one flag per session, and none of the calls that lower it says which turn it was
raised for. `Orderly` is the discipline under which that does no harm: a call that releases a session
belongs to the turn reserved last, `execute` does not end between an approval and the continuation
it promised, and a continuation does not end while another approval of its turn is undecided. `Held` is the
invariant of orderly runs; `not_oneActiveTurn` is a run that is not orderly.
-/

namespace NanFung.Runtime

open Table

namespace Server

variable {s s' : Server} {sessionId session : SessionId} {turnId turn : TurnId} {c : DecideCall}
  {k : Continuation}

/-- While `execute` or the approved continuation of a turn without terminal event is not finished,
its session accepts no other turn. -/
def OneActiveTurn (s : Server) : Prop :=
  ∀ sessionId turnId, ¬s.Terminal sessionId turnId →
    s.Executing sessionId turnId ∨ s.Continuing sessionId turnId →
    (s.registry.reserveTurn s.now sessionId).1 ≠ .ok ()

/-! ## Which steps release a session -/

/-- The turn's approved continuation is not over. -/
def continuing (s : Server) (turnId : TurnId) : Bool :=
  s.deciding.any fun d => d.2.continues.any (·.turnId = turnId)

/-- An approval of the turn can still be decided. -/
def awaits (s : Server) (sessionId : SessionId) (turnId : TurnId) : Bool :=
  s.pending.any fun a => s.undecided a && a.sessionId = sessionId &&
    (s.turn? turnId).any (refreshMatches · a)

/-- The turn on whose behalf a step calls `releaseTurn`, read off the state before the step. -/
def releases (s : Server) : Action → Option (SessionId × TurnId)
  | .unwind turnId => do
    let t ← s.turn? turnId
    if s.isAwaiting t.sessionId then none else some (t.sessionId, turnId)
  | .rejectMessage turnId => (s.turn? turnId).map fun t => (t.sessionId, turnId)
  | .cancel sessionId turnId =>
    if s.activeTurn? sessionId = some ⟨sessionId, turnId⟩ then some (sessionId, turnId) else none
  | .decide =>
    match s.decideQueue with
    | [] => none
    | c :: _ =>
      match s.check c with
      | .ok (a, continuation) =>
        if a.decision = none ∧ c.decision = .deny then some (c.sessionId, turnOf continuation)
        else none
      | .error _ => none
  | .facadeReturns true =>
    match s.deciding with
    | some (_, .facade (some k)) =>
      if (s.turn? k.turnId).any (·.deadline ≤ s.now) then some (k.sessionId, k.turnId) else none
    | _ => none
  | .outcomeReady =>
    match s.deciding with
    | some (_, .outcome k) =>
      if (s.turn? k.turnId).any (·.runner.reducer.state = .running) then none
      else some (k.sessionId, k.turnId)
    | _ => none
  | .resumed _ =>
    match s.deciding with
    | some (_, .prompt k _) => some (k.sessionId, k.turnId)
    | _ => none
  | _ => none

/-- What has to be over when a turn ends without a terminal event of its own. -/
def nothingLeft (s : Server) (sessionId : SessionId) (turnId : TurnId) : Action → Prop
  | .unwind _ => s.continuing turnId = false
  | .outcomeReady | .resumed _ => s.awaits sessionId turnId = false
  | _ => True

instance (s : Server) (sessionId : SessionId) (turnId : TurnId) (a : Action) :
    Decidable (s.nothingLeft sessionId turnId a) := by
  unfold nothingLeft
  split <;> infer_instance

/-- A step that releases a session is the last reserved turn's, and nothing of that turn is left. -/
def Orderly (s : Server) (a : Action) : Prop :=
  ∀ r ∈ s.releases a, s.latest? r.1 = some r.2 ∧ s.nothingLeft r.1 r.2 a

instance (s : Server) (a : Action) : Decidable (s.Orderly a) :=
  inferInstanceAs (Decidable (∀ r ∈ s.releases a, _ ∧ _))

/-! ## An approval in the facade's hands is undecided -/

/-- The decision that waits for the facade is about an approval that its turn asked for and that is
not decided yet. -/
def Invoking (s : Server) : Prop :=
  ∀ c continuation, s.deciding = some (c, .facade continuation) →
    ∃ a ∈ s.pending, a.approvalId = c.approvalId ∧ a.decision = none ∧ a.sessionId = c.sessionId ∧
      ∀ k ∈ continuation, ∀ t, s.HasTurn k.sessionId k.turnId t → refreshMatches t a = true

theorem refreshMatches_mono {t t' : Turn} {a : PendingApproval}
    (hsub : ∀ r ∈ t.refreshIds, r ∈ t'.refreshIds) (h : refreshMatches t a = true) :
    refreshMatches t' a = true := by
  simp only [refreshMatches, List.any_eq_true] at h ⊢
  obtain ⟨r, hr, heq⟩ := h
  exact ⟨r, hsub r hr, heq⟩

theorem Invoking.keep (h : s.Invoking) (hs : s.Sound) (hdeciding : s'.deciding = s.deciding)
    (hpending : ∀ a ∈ s.pending, a ∈ s'.pending)
    (hturns : ∀ t' ∈ s'.turns, (∃ t ∈ s.turns, t.turnId = t'.turnId ∧ t.sessionId = t'.sessionId ∧
      ∀ r ∈ t.refreshIds, r ∈ t'.refreshIds) ∨ ∀ t ∈ s.turns, t.turnId ≠ t'.turnId) :
    s'.Invoking := by
  intro c continuation hd
  rw [hdeciding] at hd
  obtain ⟨a, ha, hid, hnone, hsession, hmatch⟩ := h c continuation hd
  refine ⟨a, hpending a ha, hid, hnone, hsession, fun k hk t' ⟨ht', hts, htid⟩ => ?_⟩
  rcases hturns t' ht' with ⟨t, ht, hid', hs', hsub⟩ | hnew
  · exact refreshMatches_mono hsub (hmatch k hk t ⟨ht, hs'.trans hts, hid'.trans htid⟩)
  · obtain ⟨t, ⟨ht, _, hid'⟩, _⟩ := hs.objects k (hs.decidingObject hd hk).1
    exact absurd (hid'.trans htid.symm) (hnew t ht)

theorem Invoking.of_not_facade (h : ∀ c continuation, s'.deciding ≠ some (c, .facade continuation)) :
    s'.Invoking := fun c continuation hd => absurd hd (h c continuation)

theorem Invoking.of_none (h : s'.deciding = none) : s'.Invoking :=
  .of_not_facade fun _ _ hd => by simp [h] at hd

/-- A change of a turn that forgets no refresh. -/
theorem turns_modifyTurn {f : Turn → Turn}
    (hf : ∀ t, (f t).sessionId = t.sessionId ∧ (f t).turnId = t.turnId)
    (hsub : ∀ t, ∀ r ∈ t.refreshIds, r ∈ (f t).refreshIds) :
    ∀ t' ∈ (s.modifyTurn turnId f).turns, (∃ t ∈ s.turns, t.turnId = t'.turnId ∧
      t.sessionId = t'.sessionId ∧ ∀ r ∈ t.refreshIds, r ∈ t'.refreshIds) ∨
      ∀ t ∈ s.turns, t.turnId ≠ t'.turnId := by
  intro t' ht'
  rcases mem_modifyTurn ht' with ⟨ht', _⟩ | ⟨t, ht, _, rfl⟩
  · exact Or.inl ⟨t', ht', rfl, rfl, fun r hr => hr⟩
  · exact Or.inl ⟨t, ht, (hf t).2.symm, (hf t).1.symm, hsub t⟩

theorem turns_same (hturns : s'.turns = s.turns) :
    ∀ t' ∈ s'.turns, (∃ t ∈ s.turns, t.turnId = t'.turnId ∧ t.sessionId = t'.sessionId ∧
      ∀ r ∈ t.refreshIds, r ∈ t'.refreshIds) ∨ ∀ t ∈ s.turns, t.turnId ≠ t'.turnId :=
  fun t' ht' => Or.inl ⟨t', hturns ▸ ht', rfl, rfl, fun _ hr => hr⟩

theorem Dispatches.not_facade (h : Dispatches s c k s') (c' : DecideCall)
    (continuation : Option Continuation) : s'.deciding ≠ some (c', .facade continuation) := by
  rcases h.same.2 with h | h <;> simp [h]

theorem Invoking.step {a : Action} (h : s.Invoking) (hs : s.Sound) (hstep : Takes s a s') :
    s'.Invoking := by
  cases hstep with
  | tick | touch | closeSession | refused | queueDecide | createSession =>
    exact h.keep hs rfl (fun _ ha => ha) (turns_same rfl)
  | reserved sessionId turnId registry session hnew =>
    refine h.keep hs rfl (fun _ ha => ha) fun t' ht' => ?_
    rcases List.mem_append.mp ht' with ht' | ht'
    · exact Or.inl ⟨t', ht', rfl, rfl, fun _ hr => hr⟩
    · obtain rfl := List.mem_singleton.mp ht'
      simp only [newTurnId, Bool.and_eq_true, List.all_eq_true, decide_eq_true_eq] at hnew
      exact Or.inr hnew.1.1
  | rejectMessage t =>
    exact h.keep hs rfl (fun _ ha => ha) fun t' ht' =>
      Or.inl ⟨t', (List.mem_filter.mp ht').1, rfl, rfl, fun _ hr => hr⟩
  | gone t | start t | bootFails t | observed _ t | refreshResult t | finalizeResult t | threw t
  | returned t | turnCreated t =>
    exact h.keep hs rfl (fun _ ha => ha) (turns_modifyTurn (fun _ => ⟨rfl, rfl⟩) fun _ _ hr => hr)
  | registerRefresh t =>
    exact h.keep hs rfl (fun _ ha => ha)
      (turns_modifyTurn (fun _ => ⟨rfl, rfl⟩) fun _ _ hr => List.mem_append_left _ hr)
  | approvalRequired t approvalId expiresAtMs refresh =>
    unfold registerRequired
    split
    · exact h.keep hs rfl (fun _ ha => ha) (turns_modifyTurn (fun _ => ⟨rfl, rfl⟩) fun _ _ hr => hr)
    · exact h.keep hs rfl (fun _ ha => List.mem_append_left _ ha)
        (turns_modifyTurn (fun _ => ⟨rfl, rfl⟩) fun _ _ hr => hr)
  | unwind t =>
    obtain ⟨hturns, hpending, hdeciding, _⟩ := unwind_frame s t
    refine h.keep hs hdeciding (fun _ ha => hpending ▸ ha) ?_
    rw [hturns]
    exact turns_modifyTurn (fun _ => ⟨rfl, rfl⟩) fun _ _ hr => hr
  | cancel sessionId turnId _ hc =>
    cases hc with
    | nothing _ hsame hdeciding =>
      exact h.keep hs hdeciding (fun _ ha => hsame.pending ▸ ha) (turns_same hsame.turns)
    | cancelled s₀ s₁ hsame hdeciding _ _ _ _ _ hs₁ =>
      subst hs₁
      refine h.keep hs hdeciding (fun _ ha => hsame.pending ▸ ha) ?_
      have := @turns_modifyTurn s₀ turnId ({ · with cancelled := true })
        (fun _ => ⟨rfl, rfl⟩) fun _ _ hr => hr
      rw [hsame.turns] at this
      exact this
  | decide c queue _ hnone hqueue hd =>
    cases hd with
    | refused | same => exact .of_none rfl
    | invokes a continuation hchecked hundecided hdecision =>
      intro c' continuation' hd'
      obtain ⟨rfl, hw⟩ := Prod.mk.inj (Option.some.inj hd')
      obtain rfl := Waiting.facade.inj hw
      refine ⟨a, List.mem_of_find?_eq_some hchecked.found, by simpa using List.find?_some hchecked.found,
        hundecided, hchecked.session, fun k hk t ht => ?_⟩
      exact hchecked.matches_ k hk t (ht.2.2 ▸ hs.turn?_eq ht.1)
    | denies a continuation s₁ accepted => split <;> exact .of_none rfl
  | facadeReturns ok c continuation _ hdeciding ha =>
    cases ha with
    | refused | threw | kept => exact .of_none rfl
    | dispatched _ _ _ _ _ _ _ _ hdispatch => exact .of_not_facade hdispatch.not_facade
  | outcomeReady c k _ hdeciding hresolved hr =>
    cases hr with
    | gone _ _ hfinish => exact .of_none hfinish.same.2
    | ended _ _ _ _ hfinish => exact .of_none hfinish.same.2
    | prompts => exact .of_not_facade fun _ _ hd => by cases hd
  | resumed prompt c k n _ hdeciding he =>
    cases he with
    | threw hfinish => exact .of_none hfinish.same.2
    | ended _ _ _ _ _ hfinish => exact .of_none hfinish.same.2

/-! ## The reservation is held for the turn reserved last -/

/-- A turn that is not over holds the reservation of its session, and is the last one reserved. -/
def Held (s : Server) : Prop :=
  ∀ sessionId turnId session, s.Open sessionId turnId → s.live? sessionId = some session →
    session.activeTurn = true ∧ s.latest? sessionId = some turnId

theorem Open.mono (hterminal : s.Terminal sessionId turnId → s'.Terminal sessionId turnId)
    (hexecuting : s'.Executing sessionId turnId → s.Executing sessionId turnId)
    (hcontinuing : s'.Continuing sessionId turnId → s.Continuing sessionId turnId)
    (hawaits : s'.AwaitsFor sessionId turnId → s.AwaitsFor sessionId turnId)
    (h : s'.Open sessionId turnId) : s.Open sessionId turnId :=
  ⟨fun hs => h.1 (hterminal hs), h.2.imp hexecuting (Or.imp hcontinuing hawaits)⟩

/-- Publishing and settling end reasons, they make none. -/
theorem SameMaps.open_ (h : SameMaps s s')
    (hterminal : s.Terminal sessionId turnId → s'.Terminal sessionId turnId)
    (hcontinuing : s'.Continuing sessionId turnId → s.Continuing sessionId turnId) :
    s'.Open sessionId turnId → s.Open sessionId turnId :=
  .mono hterminal h.executing.mp hcontinuing h.awaitsFor.mp

/-- Fewer turns are open, and no flag went down. -/
theorem Held.of_le (h : s.Held)
    (hopen : ∀ sessionId turnId, s'.Open sessionId turnId → s.Open sessionId turnId)
    (hlive : ∀ sessionId session', s'.live? sessionId = some session' →
      ∃ session, s.live? sessionId = some session ∧
        (session.activeTurn = true → session'.activeTurn = true))
    (hlatest : ∀ sessionId, s'.latest? sessionId = s.latest? sessionId) : s'.Held := by
  intro sessionId turnId session' ho hl
  obtain ⟨session, hs, hflag⟩ := hlive sessionId session' hl
  obtain ⟨hactive, hlast⟩ := h sessionId turnId session (hopen _ _ ho) hs
  exact ⟨hflag hactive, (hlatest sessionId).trans hlast⟩

theorem live_same (hlive : ∀ sessionId, s'.live? sessionId = s.live? sessionId) :
    ∀ sessionId session', s'.live? sessionId = some session' →
      ∃ session, s.live? sessionId = some session ∧
        (session.activeTurn = true → session'.activeTurn = true) :=
  fun sessionId session' h => ⟨session', (hlive sessionId).symm.trans h, id⟩

/-- Of the session's turns none is open: its flag may go down. -/
theorem Held.release (h : s.Held) (hnone : ∀ turnId, ¬s.Open sessionId turnId) :
    (s.releaseTurn sessionId).Held := by
  intro other turnId session' ho hl
  have ho : s.Open other turnId := (SameMaps.releaseTurn s).open_ id id ho
  by_cases hother : other = sessionId
  · subst hother
    exact absurd ho (hnone turnId)
  · have hsame : (s.releaseTurn sessionId).live? other = s.live? other := by
      show (s.registry.releaseTurn s.now sessionId).live? s.now other = _
      rw [SessionRegistry.live?_releaseTurn, if_neg hother]
      rfl
    obtain ⟨hactive, hlast⟩ := h other turnId session' ho (hsame.symm.trans hl)
    exact ⟨hactive, ((SameMaps.releaseTurn s).latest?).trans hlast⟩

/-- The last turn of a session was open at most, and is not any more. -/
theorem Held.none_open (h : s.Held) (hlatest : s.latest? sessionId = some turn)
    (hlive : (s.live? sessionId).isSome)
    (hopen : ∀ turnId, s'.Open sessionId turnId → s.Open sessionId turnId)
    (hover : ¬s'.Open sessionId turn) (turnId : TurnId) : ¬s'.Open sessionId turnId := by
  intro ho
  obtain ⟨session, hsession⟩ := Option.isSome_iff_exists.mp hlive
  obtain ⟨_, hlast⟩ := h sessionId turnId session (hopen turnId ho) hsession
  obtain rfl : turn = turnId := Option.some.inj (hlatest.symm.trans hlast)
  exact hover ho

/-- Releasing a session that is not live changes nothing that can be seen. -/
theorem Held.release_of_latest (h : s.Held) (h' : s'.Held)
    (hlatest : s.latest? sessionId = some turn)
    (hlive : s'.live? sessionId = s.live? sessionId)
    (hopen : ∀ turnId, s'.Open sessionId turnId → s.Open sessionId turnId)
    (hover : ¬s'.Open sessionId turn) : (s'.releaseTurn sessionId).Held := by
  cases hsession : s.live? sessionId with
  | some session => exact h'.release (h.none_open hlatest (by simp [hsession]) hopen hover)
  | none =>
    refine h'.of_le (fun _ _ => (SameMaps.releaseTurn s').open_ id id) (fun other session' hl => ?_)
      fun other => (SameMaps.releaseTurn s').latest?
    have hl : (s'.registry.releaseTurn s'.now sessionId).live? s'.now other = some session' := hl
    rw [SessionRegistry.live?_releaseTurn] at hl
    split at hl
    · have hnone : s'.registry.live? s'.now sessionId = none := hlive.trans hsession
      rw [hnone] at hl
      exact nomatch hl
    · exact ⟨session', hl, id⟩

theorem executing_or_continuing (hs : s.Sound) {t : Turn} (ht : t ∈ s.turns)
    (hprompting : s.prompting t = true) :
    s.Executing t.sessionId t.turnId ∨ s.Continuing t.sessionId t.turnId := by
  simp only [prompting, Bool.or_eq_true, decide_eq_true_eq] at hprompting
  rcases hprompting with hphase | hdeciding
  · exact Or.inl ⟨t, ⟨ht, rfl, rfl⟩, by simp [hphase]⟩
  · split at hdeciding
    · next c k n heq =>
      have hid : k.turnId = t.turnId := by simpa using hdeciding
      obtain ⟨u, ⟨hu, hus, huid⟩, _⟩ := hs.objects k (hs.decidingObject heq rfl).1
      obtain rfl := hs.turns.eq_of_mem hu ht (huid.trans hid)
      exact Or.inr ⟨_, heq, k, rfl, hus.symm, hid⟩
    · cases hdeciding

/-- Time passes: approvals expire and sessions do. -/
theorem Held.tick (h : s.Held) (ms : Nat) : ({ s with now := s.now + ms } : Server).Held := by
  refine h.of_le (fun sessionId turnId => Open.mono id id id ?_) (fun sessionId session' hl => ?_)
    fun _ => rfl
  · rintro ⟨a, ha, hundecided, hrest⟩
    refine ⟨a, ha, ?_, hrest⟩
    rw [undecided_iff] at hundecided ⊢
    have hlt : s.timeOrigin + (s.now + ms) < a.expiresAtMs := hundecided.2
    exact ⟨hundecided.1, show s.timeOrigin + s.now < _ by omega⟩
  · exact ⟨session', SessionRegistry.live?_of_later (Nat.le_add_right _ _) hl, id⟩

theorem Held.modifyTurn {f : Turn → Turn} (h : s.Held)
    (hf : ∀ t, (f t).sessionId = t.sessionId ∧ (f t).turnId = t.turnId)
    (hphase : ∀ t, (f t).phase ≠ .finished → t.phase ≠ .finished)
    (hrefresh : ∀ t, (f t).refreshIds = t.refreshIds) : (s.modifyTurn turnId f).Held :=
  h.of_le (fun _ _ => Open.mono id (executing_of_modifyTurn hf hphase) id
    (awaitsFor_of_modifyTurn hf hrefresh)) (live_same fun _ => rfl)
    fun sessionId => by rw [latest?, reservations_modifyTurn hf]; rfl

/-- A change that is only asked to be right for turns in a phase that is not the last one. -/
theorem Held.modifyTurn_of_mem {f : Turn → Turn} (h : s.Held)
    (hf : ∀ t, (f t).sessionId = t.sessionId ∧ (f t).turnId = t.turnId)
    (hphase : ∀ t ∈ s.turns, t.turnId = turnId → t.phase ≠ .finished)
    (hrefresh : ∀ t, (f t).refreshIds = t.refreshIds) : (s.modifyTurn turnId f).Held := by
  refine h.of_le (fun sessionId turnId' => Open.mono id ?_ id (awaitsFor_of_modifyTurn hf hrefresh))
    (live_same fun _ => rfl) fun sessionId => by rw [latest?, reservations_modifyTurn hf]; rfl
  rintro ⟨t, ht, hne⟩
  obtain ⟨t₀, ht₀, rfl | ⟨hid, rfl⟩⟩ := hasTurn_of_modifyTurn hf ht
  · exact ⟨t, ht₀, hne⟩
  · exact ⟨t₀, ht₀, hphase t₀ ht₀.1 hid⟩

/-- What a job publishes and settles leaves the reservations alone. -/
theorem Held.same (h : s.Held) (hsame : SameMaps s s')
    (hterminal : ∀ sessionId turnId, s.Terminal sessionId turnId → s'.Terminal sessionId turnId)
    (hcontinuing : ∀ sessionId turnId, s'.Continuing sessionId turnId → s.Continuing sessionId turnId)
    (hlive : ∀ sessionId, s'.live? sessionId = s.live? sessionId) : s'.Held :=
  h.of_le (fun sessionId turnId => hsame.open_ (hterminal sessionId turnId) (hcontinuing sessionId turnId))
    (live_same hlive) fun _ => hsame.latest?

theorem not_continuing_of_none (h : s.deciding = none) : ¬s.Continuing sessionId turnId := by
  rintro ⟨d, hd, _⟩
  simp [h] at hd

theorem not_continuing_of_facade {continuation : Option Continuation}
    (h : s.deciding = some (c, .facade continuation)) : ¬s.Continuing sessionId turnId := by
  rintro ⟨d, hd, k, hk, _⟩
  rw [h] at hd
  obtain rfl := Option.some.inj hd
  exact nomatch hk

/-- The end of a dispatch, if its turn is not open any more. -/
theorem Finishes.held {bodies : Option (List SseBody)} (hfinish : Finishes s c k bodies s')
    (h : s.Held) (hlatest : s.latest? k.sessionId = some k.turnId)
    (hover : s'.Terminal k.sessionId k.turnId ∨
      ¬s.Executing k.sessionId k.turnId ∧ ¬s.AwaitsFor k.sessionId k.turnId) : s'.Held := by
  have hopen : ∀ s₁ : Server, SameMaps s s₁ → s.hub.Publishes s₁.hub k.sessionId k.turnId
      ((bodies.getD []).countP SseBody.isArtifact) → ∀ settlement sessionId turnId,
      (s₁.settle c settlement).Open sessionId turnId → s.Open sessionId turnId := by
    intro s₁ hsame hhub settlement sessionId turnId
    refine (hsame.trans (.settle s₁ c settlement)).open_ hhub.terminal fun hc => ?_
    exact absurd hc (not_continuing_of_none rfl)
  cases hfinish with
  | released s₁ hsame hregistry _ _ hhub =>
    have hmaps := hsame.trans (.settle s₁ c (.decided .approve))
    have hlive : ∀ sessionId, (s₁.settle c (.decided .approve)).live? sessionId = s.live? sessionId :=
      fun sessionId => by
        show s₁.registry.live? s₁.now sessionId = _
        rw [hregistry, hsame.now]
        rfl
    have hsettled : (s₁.settle c (.decided .approve)).Held :=
      h.of_le (hopen s₁ hsame hhub _) (live_same hlive) fun _ => hmaps.latest?
    refine @Held.release_of_latest _ (s₁.settle c (.decided .approve)) _ _ h hsettled hlatest (hlive _)
      (hopen s₁ hsame hhub _ _) ?_
    rintro ⟨hnot, hreason⟩
    rcases hover with hterminal | ⟨hexecuting, hawaits⟩
    · exact hnot hterminal
    · rcases hreason with hr | hr | hr
      · exact hexecuting (hmaps.executing.mp hr)
      · exact not_continuing_of_none rfl hr
      · exact hawaits (hmaps.awaitsFor.mp hr)
  | threw s₁ hsame hregistry _ _ hhub =>
    refine h.of_le (hopen s₁ hsame hhub _) (live_same fun sessionId => ?_)
      fun _ => (hsame.trans (.settle s₁ c _)).latest?
    show s₁.registry.live? s₁.now sessionId = _
    rw [hregistry, hsame.now]
    rfl

/-- Deciding an approval ends a reason. -/
theorem awaitsFor_of_decideApproval {approvalId : ApprovalId} {decision : DecisionKind}
    (h : (s.decideApproval approvalId decision).AwaitsFor sessionId turnId) :
    s.AwaitsFor sessionId turnId := by
  obtain ⟨a, ha, hundecided, hrest⟩ := h
  rcases mem_updateWhere.mp ha with ⟨b, _, _, rfl⟩ | ⟨ha, _⟩
  · exact absurd (undecided_iff.mp hundecided).1 (by simp [PendingApproval.decided])
  · exact ⟨a, ha, hundecided, hrest⟩

theorem Held.decides (h : s.Held) (hd : Decides s c s')
    (horderly : ∀ a continuation, s.Checked c a continuation → a.decision = none →
      c.decision = .deny → s.latest? c.sessionId = some (turnOf continuation)) : s'.Held := by
  cases hd with
  | refused | same =>
    exact h.same (.settle s c _) (fun _ _ => id)
      (fun _ _ hc => absurd hc (not_continuing_of_none rfl)) fun _ => rfl
  | invokes a continuation =>
    exact h.same (.withDeciding s _) (fun _ _ => id)
      (fun _ _ hc => absurd hc (not_continuing_of_facade rfl)) fun _ => rfl
  | denies a continuation s₁ accepted hchecked hundecided hdecision hpublish =>
    obtain rfl : ((s.decideApproval c.approvalId .deny).emitAll c.sessionId (turnOf continuation)
      [.approvalResolved .deny, .turnCompleted .completed]).1 = s₁ := congrArg Prod.fst hpublish
    have hover : (((s.decideApproval c.approvalId .deny).emitAll c.sessionId (turnOf continuation)
        [.approvalResolved .deny, .turnCompleted .completed]).1).Terminal c.sessionId
          (turnOf continuation) :=
      terminal_emitAll_of_mem (List.mem_cons_of_mem _ List.mem_cons_self) rfl
    have hhub : s.hub.Publishes (s.hub.emitAll c.sessionId (turnOf continuation)
        [.approvalResolved .deny, .turnCompleted .completed]).1 c.sessionId (turnOf continuation) 0 :=
      .emitAll s.hub _
    have hopen : ∀ settlement sessionId turnId,
        ((((s.decideApproval c.approvalId .deny).emitAll c.sessionId (turnOf continuation)
          [.approvalResolved .deny, .turnCompleted .completed]).1).settle c settlement).Open
            sessionId turnId → s.Open sessionId turnId := fun _ _ _ =>
      Open.mono hhub.terminal id
        (fun hc => absurd hc (not_continuing_of_none rfl)) awaitsFor_of_decideApproval
    split
    · have hsettled : ((((s.decideApproval c.approvalId .deny).emitAll c.sessionId
          (turnOf continuation) [.approvalResolved .deny, .turnCompleted .completed]).1).settle c
            (.decided .deny)).Held := h.of_le (hopen _) (live_same fun _ => rfl) fun _ => rfl
      exact h.release_of_latest hsettled (horderly a continuation hchecked hundecided hdecision) rfl
        (hopen _ _) fun ho => ho.1 hover
    · exact h.of_le (hopen _) (live_same fun _ => rfl) fun _ => rfl

/-- Dispatching opens no turn if the one it is for holds its session, terminal or not. -/
theorem Held.dispatches (h : s.Held) (hd : Dispatches s c k s')
    (hlatest : (s.turn? k.turnId).any (·.deadline ≤ s.now) = true →
      s.latest? k.sessionId = some k.turnId)
    (hholds : ∀ session, s.live? k.sessionId = some session →
      session.activeTurn = true ∧ s.latest? k.sessionId = some k.turnId) : s'.Held := by
  cases hd with
  | skipped =>
    exact h.same (.settle s c _) (fun _ _ => id)
      (fun _ _ hc => absurd hc (not_continuing_of_none rfl)) fun _ => rfl
  | failed _ hdeadline hfinish =>
    exact hfinish.held h (hlatest hdeadline) (Or.inl (hfinish.terminal (Or.inl rfl)))
  | waits =>
    rintro sessionId turnId session ⟨hnot, hreason⟩ hlive
    rcases hreason with hr | ⟨d, hd, k', hk', rfl, rfl⟩ | hr
    · exact h sessionId turnId session ⟨hnot, Or.inl hr⟩ hlive
    · obtain rfl := Option.some.inj hd
      obtain rfl := Option.some.inj hk'
      exact hholds session hlive
    · exact h sessionId turnId session ⟨hnot, Or.inr (Or.inr hr)⟩ hlive

/-- The approved turn held its session while the facade was asked. -/
theorem Invoking.open_ {a : PendingApproval} {s₁ : Server} (h : s.Invoking) (hs : s.Sound)
    (hdeciding : s.deciding = some (c, .facade (some k)))
    (hpublish : (s.approve c).emitAll c.sessionId k.turnId [.approvalResolved .approve] = (s₁, true))
    (hfound : s₁.pending.find? (·.approvalId = c.approvalId) = some a)
    (hunexpired : s₁.clock < a.expiresAtMs) : s.Open k.sessionId k.turnId := by
  obtain ⟨b, hb, hid, hnone, hsession, hmatch⟩ := h c (some k) hdeciding
  obtain ⟨hobject, hcaller⟩ := hs.decidingObject hdeciding rfl
  obtain ⟨t, ht, _⟩ := hs.objects k hobject
  have hs₁ : ((s.approve c).emitAll c.sessionId k.turnId [.approvalResolved .approve]).1 = s₁ :=
    congrArg Prod.fst hpublish
  subst hs₁
  constructor
  · intro hterminal
    rw [← hcaller] at hpublish
    have hrefused : (s.approve c).hub.emit k.sessionId k.turnId (.approvalResolved .approve) = none :=
      SseHub.emit_eq_none.mpr hterminal
    have haccepted := congrArg Prod.snd hpublish
    simp only [emitAll, SseHub.emitAll, hrefused] at haccepted
    cases haccepted
  · refine Or.inr (Or.inr ⟨b, hb, ?_, hsession.trans hcaller.symm, t, ht, hmatch k rfl t ht⟩)
    -- the approval that was found afterwards is the decided one
    have hdecided : b.decided .approve ∈ (s.approve c).pending := by
      show _ ∈ updateWhere _ _ s.pending
      simpa [hid] using mem_updateWhere_of_mem (p := fun a : PendingApproval =>
        a.approvalId = c.approvalId) (f := PendingApproval.decided .approve) hb
    have hkeyed : Keyed PendingApproval.approvalId (s.approve c).pending := hs.approve.approvals
    obtain ⟨hmem, hid'⟩ := hkeyed.find?_eq_some.mp hfound
    obtain rfl := hkeyed.eq_of_mem hmem hdecided (hid'.trans hid.symm)
    exact undecided_iff.mpr ⟨hnone, hunexpired⟩

theorem Held.answers {continuation : Option Continuation} {ok : Bool} (h : s.Held) (hs : s.Sound)
    (hinvoking : s.Invoking) (hdeciding : s.deciding = some (c, .facade continuation))
    (hanswers : Answers s c continuation ok s')
    (horderly : ok = true → ∀ k ∈ continuation, (s.turn? k.turnId).any (·.deadline ≤ s.now) = true →
      s.latest? k.sessionId = some k.turnId) : s'.Held := by
  have hpublished : ∀ s₁ accepted, (s.approve c).emitAll c.sessionId (turnOf continuation)
      [.approvalResolved .approve] = (s₁, accepted) → s₁.Held ∧ ∀ settlement,
        (s₁.settle c settlement).Held := by
    intro s₁ accepted hpublish
    obtain rfl : ((s.approve c).emitAll c.sessionId (turnOf continuation)
      [.approvalResolved .approve]).1 = s₁ := congrArg Prod.fst hpublish
    have hhub : s.hub.Publishes (s.hub.emitAll c.sessionId (turnOf continuation)
      [.approvalResolved .approve]).1 c.sessionId (turnOf continuation) 0 := .emitAll s.hub _
    have hnone := fun sessionId turnId =>
      @not_continuing_of_facade s sessionId turnId c continuation hdeciding
    refine ⟨?_, fun settlement => ?_⟩
    · refine h.of_le (fun sessionId turnId => Open.mono hhub.terminal id ?_ awaitsFor_of_decideApproval)
        (live_same fun _ => rfl) fun _ => rfl
      exact fun hc => absurd hc (hnone sessionId turnId)
    · refine h.of_le (fun sessionId turnId => Open.mono hhub.terminal id ?_ awaitsFor_of_decideApproval)
        (live_same fun _ => rfl) fun _ => rfl
      exact fun hc => absurd hc (not_continuing_of_none rfl)
  cases hanswers with
  | refused =>
    exact h.same (.settle s c _) (fun _ _ => id)
      (fun _ _ hc => absurd hc (not_continuing_of_none rfl)) fun _ => rfl
  | threw s₁ hpublish => exact (hpublished s₁ _ hpublish).2 _
  | kept s₁ hpublish => exact (hpublished s₁ _ hpublish).2 _
  | dispatched s₁ _ k a hpublish hcontinuation hfound hunexpired hdispatch =>
    subst hcontinuation
    have hopen := hinvoking.open_ hs hdeciding hpublish hfound hunexpired
    obtain rfl : ((s.approve c).emitAll c.sessionId k.turnId
      [.approvalResolved .approve]).1 = s₁ := congrArg Prod.fst hpublish
    exact (hpublished _ _ hpublish).1.dispatches hdispatch (horderly rfl k rfl) fun session hlive =>
      h k.sessionId k.turnId session hopen hlive

theorem awaits_iff (hs : s.Sound) : s.awaits sessionId turnId = true ↔ s.AwaitsFor sessionId turnId := by
  simp only [awaits, List.any_eq_true, Bool.and_eq_true, decide_eq_true_eq, Option.any_eq_true]
  constructor
  · rintro ⟨a, ha, ⟨hundecided, hsession⟩, t, ht, hmatch⟩
    obtain ⟨hmem, hid⟩ := turn?_mem ht
    obtain ⟨owner, howner, hos, _, hmatch'⟩ := hs.pending a ha
    obtain rfl := hs.owner_unique howner hmem hmatch' hmatch
    exact ⟨a, ha, hundecided, hsession, owner, ⟨hmem, hos.trans hsession, hid⟩, hmatch⟩
  · rintro ⟨a, ha, hundecided, hsession, t, ⟨ht, _, rfl⟩, hmatch⟩
    exact ⟨a, ha, ⟨hundecided, hsession⟩, t, hs.turn?_eq ht, hmatch⟩

theorem not_awaitsFor (hs : s.Sound) (h : s.awaits sessionId turnId = false) :
    ¬s.AwaitsFor sessionId turnId := fun hawaits => by
  rw [(awaits_iff hs).mpr hawaits] at h
  exact nomatch h

theorem continuing_iff (hs : s.Sound) {t : Turn} (ht : t ∈ s.turns) :
    s.continuing t.turnId = true ↔ s.Continuing t.sessionId t.turnId := by
  simp only [continuing, Option.any_eq_true, decide_eq_true_eq]
  constructor
  · rintro ⟨d, hd, k, hk, hid⟩
    obtain ⟨u, hu, _⟩ := hs.objects k (Or.inr ⟨d, hd, Waiting.continuation_of_continues hk⟩)
    obtain rfl := hs.turns.eq_of_mem hu.1 ht (hu.2.2.trans hid)
    exact ⟨d, hd, k, hk, hu.2.1.symm, hid⟩
  · rintro ⟨d, hd, k, hk, _, hid⟩
    exact ⟨d, hd, k, hk, hid⟩

theorem not_executing_of_resolved (hs : s.Sound) (hk : s.Object k) (hresolved : k.ref ∈ s.resolved) :
    ¬s.Executing k.sessionId k.turnId :=
  fun ⟨t, ht, hphase⟩ => hphase (hs.done k hk hresolved t ht)

theorem Held.resumes (h : s.Held) (hs : s.Sound) (hdeciding : s.deciding = some (c, .outcome k))
    (hresolved : k.ref ∈ s.resolved) (hr : Resumes s c k s')
    (horderly : (s.turn? k.turnId).any (·.runner.reducer.state = .running) = false →
      s.latest? k.sessionId = some k.turnId ∧ s.awaits k.sessionId k.turnId = false) : s'.Held := by
  have hobject := (hs.decidingObject hdeciding rfl).1
  cases hr with
  | gone _ hgone hfinish =>
    have := horderly (by simp [hgone])
    exact hfinish.held h this.1 (Or.inl (hfinish.terminal (Or.inl rfl)))
  | ended _ t ht hstate hfinish =>
    obtain ⟨hlatest, hawaits⟩ := horderly (by simp [ht, hstate])
    exact hfinish.held h hlatest
      (Or.inr ⟨not_executing_of_resolved hs hobject hresolved, not_awaitsFor hs hawaits⟩)
  | prompts t ht hstate =>
    have hmodified : (s.modifyTurn k.turnId fun t => { t with
        runner.awaitingApproval := false }).Held :=
      h.modifyTurn (fun _ => ⟨rfl, rfl⟩) (fun _ => id) fun _ => rfl
    refine hmodified.of_le (fun sessionId turnId => Open.mono id id ?_ id) (live_same fun _ => rfl)
      fun _ => rfl
    rintro ⟨d, hd, k', hk', hids⟩
    obtain rfl := Option.some.inj hd
    obtain rfl := Option.some.inj hk'
    exact ⟨_, hdeciding, k, rfl, hids⟩

theorem Held.ends {n : Nat} {prompt : PromptEnd} (h : s.Held) (hs : s.Sound)
    (hdeciding : s.deciding = some (c, .prompt k n)) (he : Ends s c k n prompt s')
    (hlatest : s.latest? k.sessionId = some k.turnId)
    (hawaits : s.awaits k.sessionId k.turnId = false) : s'.Held := by
  cases he with
  | threw hfinish => exact hfinish.held h hlatest (Or.inl (hfinish.terminal (Or.inl rfl)))
  | ended t runner outcome ht hrunner hfinish =>
    have hids : ∀ t : Turn, ({ t with runner } : Turn).sessionId = t.sessionId ∧
        ({ t with runner } : Turn).turnId = t.turnId := fun _ => ⟨rfl, rfl⟩
    have hmodified : (s.modifyTurn k.turnId ({ · with runner })).Held :=
      h.modifyTurn hids (fun _ => id) fun _ => rfl
    have hexecuting : ¬s.Executing k.sessionId k.turnId :=
      not_executing_of_resolved hs (hs.decidingObject hdeciding rfl).1 (hs.prompt c k n hdeciding)
    refine hfinish.held hmodified ?_ (Or.inr ⟨fun hx => ?_, fun hx => ?_⟩)
    · rw [latest?, reservations_modifyTurn hids]
      exact hlatest
    · exact hexecuting (executing_of_modifyTurn hids (fun _ => id) hx)
    · exact not_awaitsFor hs hawaits (awaitsFor_of_modifyTurn hids (fun _ => rfl) hx)

theorem Held.cancels (h : s.Held) (hc : Cancels s sessionId turnId s')
    (hlatest : s.activeTurn? sessionId = some ⟨sessionId, turnId⟩ →
      s.latest? sessionId = some turnId) : s'.Held := by
  cases hc with
  | nothing _ hsame hdeciding _ _ hhub hlive =>
    refine h.same hsame (fun _ _ => by simp [Terminal, hhub]) (fun _ _ => ?_) hlive
    simp [Continuing, hdeciding]
  | cancelled s₀ s₁ hsame hdeciding _ _ hhub hlive hactive hs₁ =>
    have hids : ∀ t : Turn, ({ t with cancelled := true } : Turn).sessionId = t.sessionId ∧
        ({ t with cancelled := true } : Turn).turnId = t.turnId := fun _ => ⟨rfl, rfl⟩
    have h₀ : s₀.Held := h.same hsame (fun _ _ => by simp [Terminal, hhub])
      (fun _ _ => by simp [Continuing, hdeciding]) hlive
    have hmodified : (s₀.modifyTurn turnId ({ · with cancelled := true })).Held :=
      h₀.modifyTurn hids (fun _ => id) fun _ => rfl
    subst hs₁
    have hpublished : ∀ active terminal : List ActiveTurn,
        ({ ((s₀.modifyTurn turnId ({ · with cancelled := true })).emitAll sessionId turnId
          [.turnCompleted .cancelled]).1 with
            activeTurns := active, terminalTurns := terminal } : Server).Held := by
      intro active terminal
      have hhub : s₀.hub.Publishes (s₀.hub.emitAll sessionId turnId [.turnCompleted .cancelled]).1
        sessionId turnId 0 := .emitAll s₀.hub _
      exact hmodified.of_le (fun _ _ => Open.mono hhub.terminal id id id) (live_same fun _ => rfl)
        fun _ => rfl
    have hmodified_latest : (s₀.modifyTurn turnId ({ · with cancelled := true })).latest? sessionId =
        some turnId := by
      rw [latest?, reservations_modifyTurn hids]
      exact hsame.latest?.trans (hlatest hactive)
    have hterminal : (s₀.hub.emitAll sessionId turnId [.turnCompleted .cancelled]).1.terminal
        sessionId turnId = true := SseHub.terminal_emitAll_of_mem List.mem_cons_self rfl
    exact (hpublished _ _).release_of_latest (hpublished _ _) hmodified_latest rfl
      (fun _ => id) fun ho => ho.1 hterminal

theorem Held.unwind {t : Turn} (h : s.Held)
    (horderly : s.isAwaiting t.sessionId = false →
      s.latest? t.sessionId = some t.turnId ∧ s.continuing t.turnId = false) : (s.unwind t).Held := by
  obtain ⟨s₁, heq, hhub, _, hunwind⟩ := unwind_cases s t
  rw [hunwind]
  have hids : ∀ t : Turn, ({ t with phase := .finished } : Turn).sessionId = t.sessionId ∧
      ({ t with phase := .finished } : Turn).turnId = t.turnId := fun _ => ⟨rfl, rfl⟩
  have h₁ : s₁.Held := by
    rw [heq]
    exact h.of_le (fun _ _ => Open.mono hhub.terminal id id id) (live_same fun _ => rfl) fun _ => rfl
  have hfinished : (s₁.setPhase t.turnId .finished).Held :=
    h₁.modifyTurn hids (fun _ hne => absurd rfl hne) fun _ => rfl
  have hawaiting : (s₁.setPhase t.turnId .finished).isAwaiting t.sessionId = s.isAwaiting t.sessionId := by
    rw [heq]
    rfl
  unfold finally_
  dsimp only
  rw [hawaiting]
  split
  · exact hfinished
  · next hnot =>
    have hnot : s.isAwaiting t.sessionId = false := by simpa using hnot
    obtain ⟨hlatest, hcontinuing⟩ := horderly hnot
    have hlast : (s₁.setPhase t.turnId .finished).latest? t.sessionId = some t.turnId := by
      rw [latest?, setPhase, reservations_modifyTurn hids, heq]
      exact hlatest
    refine hfinished.release_of_latest hfinished hlast rfl (fun _ => id) ?_
    · rintro ⟨-, hexecuting | ⟨d, hd, k, hk, hsession, hid⟩ | hawaits⟩
      · obtain ⟨u, hu, hne⟩ := hexecuting
        exact hne (finished_of_setPhase hu)
      · have hd : d ∈ s.deciding := by
          rw [heq] at hd
          exact hd
        have : s.continuing t.turnId = true := by
          simp only [continuing, Option.any_eq_true]
          exact ⟨d, hd, k, hk, by simpa using hid⟩
        rw [hcontinuing] at this
        cases this
      · have := isAwaiting_of_awaitsFor hawaits
        rw [hawaiting, hnot] at this
        cases this

/-- A new approval belongs to a turn that is open for another reason. -/
theorem Held.registerRequired {t : Turn} {refresh : Refresh} {a : PendingApproval} (h : s.Held)
    (hs : s.Sound) (ht : t ∈ s.turns) (hprompting : s.prompting t = true)
    (hrefresh : refresh ∈ t.refreshIds) (hid : refresh.refreshRequestId = a.refreshRequestId)
    (hfingerprint : refresh.fingerprint = a.fingerprint) (hsession : a.sessionId = t.sessionId) :
    (s.registerRequired a).1.Held := by
  unfold Server.registerRequired
  split
  · exact h
  · have howner : refreshMatches t a = true := by
      simp only [refreshMatches, List.any_eq_true]
      exact ⟨refresh, hrefresh, by simp [hid, hfingerprint]⟩
    have hopen : ∀ sessionId turnId, ¬s.Terminal sessionId turnId →
        ({ s with pending := s.pending ++ [a] } : Server).AwaitsFor sessionId turnId →
          s.Open sessionId turnId := by
      rintro sessionId turnId hnot ⟨b, hb, hundecided, hbs, u, hu, hmatch⟩
      rcases List.mem_append.mp hb with hb | hb
      · exact ⟨hnot, Or.inr (Or.inr ⟨b, hb, hundecided, hbs, u, hu, hmatch⟩)⟩
      · obtain rfl := List.mem_singleton.mp hb
        obtain rfl := hs.owner_unique hu.1 ht hmatch howner
        obtain ⟨_, rfl, rfl⟩ := hu
        exact ⟨hnot, (executing_or_continuing hs ht hprompting).imp_right Or.inl⟩
    refine h.of_le (fun sessionId turnId ho => ?_) (live_same fun _ => rfl) fun _ => rfl
    have hnot : ¬s.Terminal sessionId turnId := fun hterminal => by
      refine ho.1 ?_
      dsimp only
      exact terminal_emitAll_mono hterminal
    rcases ho.2 with hr | hr | hr
    · exact ⟨hnot, Or.inl hr⟩
    · exact ⟨hnot, Or.inr (Or.inl hr)⟩
    · exact hopen sessionId turnId hnot hr

/-- A new refresh is none that a registered approval is about. -/
theorem Held.registerRefresh {refresh : Refresh} (h : s.Held) (hs : s.Sound)
    (hnew : ∀ u ∈ s.turns, ∀ r ∈ u.refreshIds, r.refreshRequestId ≠ refresh.refreshRequestId) :
    (s.modifyTurn turnId fun t => { t with refreshIds := t.refreshIds ++ [refresh] }).Held := by
  have hids : ∀ t : Turn,
      ({ t with refreshIds := t.refreshIds ++ [refresh] } : Turn).sessionId = t.sessionId ∧
        ({ t with refreshIds := t.refreshIds ++ [refresh] } : Turn).turnId = t.turnId :=
    fun t => ⟨rfl, rfl⟩
  refine h.of_le (fun _ _ => Open.mono id (executing_of_modifyTurn hids fun _ => id) id ?_)
    (live_same fun _ => rfl) fun _ => by rw [latest?, reservations_modifyTurn hids]; rfl
  rintro ⟨a, ha, hundecided, hsession, t, ht, hmatch⟩
  obtain ⟨t₀, ht₀, rfl | ⟨hid, rfl⟩⟩ := hasTurn_of_modifyTurn hids ht
  · exact ⟨a, ha, hundecided, hsession, t, ht₀, hmatch⟩
  · refine ⟨a, ha, hundecided, hsession, t₀, ht₀, ?_⟩
    simp only [refreshMatches, List.any_append, List.any_cons, List.any_nil, Bool.or_false,
      Bool.or_eq_true] at hmatch ⊢
    refine hmatch.resolve_right fun hlast => ?_
    obtain ⟨u, hu, _, _, howner⟩ := hs.pending a ha
    simp only [refreshMatches, List.any_eq_true, Bool.and_eq_true, decide_eq_true_eq] at howner hlast
    obtain ⟨r, hr, hrid, _⟩ := howner
    exact hnew u hu r hr (hrid.trans hlast.1.symm)

/-- A reservation is only given to a session without an open turn. -/
theorem Held.reserved {registry : SessionRegistry} {state : SessionState} (h : s.Held)
    (hsession : s.live? sessionId = some state)
    (hflag : state.activeTurn = false)
    (hlive : ∀ other, registry.live? s.now other =
      if other = sessionId then (s.live? sessionId).map .reserve else s.live? other) :
    ({ s with registry, turns := s.turns ++ [{ sessionId, turnId }] } : Server).Held := by
  have hopen : ∀ other id,
      ({ s with registry, turns := s.turns ++ [{ sessionId, turnId }] } : Server).Open other id →
        s.Open other id ∨ other = sessionId ∧ id = turnId := by
    rintro other id ⟨hnot, ⟨t, ⟨ht, hts, htid⟩, hne⟩ | hr | ⟨a, ha, hundecided, has, t, ⟨ht, hts, htid⟩, hmatch⟩⟩
    · rcases List.mem_append.mp ht with ht | ht
      · exact Or.inl ⟨hnot, Or.inl ⟨t, ⟨ht, hts, htid⟩, hne⟩⟩
      · obtain rfl := List.mem_singleton.mp ht
        exact Or.inr ⟨hts.symm, htid.symm⟩
    · exact Or.inl ⟨hnot, Or.inr (Or.inl hr)⟩
    · rcases List.mem_append.mp ht with ht | ht
      · exact Or.inl ⟨hnot, Or.inr (Or.inr ⟨a, ha, hundecided, has, t, ⟨ht, hts, htid⟩, hmatch⟩)⟩
      · obtain rfl := List.mem_singleton.mp ht
        cases hmatch
  have hlatest : ∀ other,
      ({ s with registry, turns := s.turns ++ [{ sessionId, turnId }] } : Server).latest? other =
        if other = sessionId then some turnId else s.latest? other := by
    intro other
    simp only [latest?, reservations, List.map_append, List.filter_append, List.map_cons, List.map_nil]
    by_cases hother : other = sessionId
    · subst hother
      simp
    · have : ¬sessionId = other := fun heq => hother heq.symm
      simp [hother, this]
  intro other id session' ho hl
  replace hl : registry.live? s.now other = some session' := hl
  rw [hlive] at hl
  rw [hlatest]
  by_cases hother : other = sessionId
  · subst hother
    rw [if_pos rfl, hsession] at hl
    obtain rfl := Option.some.inj hl
    rw [if_pos rfl]
    rcases hopen other id ho with hold | ⟨-, rfl⟩
    · -- the flag was down, so none of the session's turns was open
      obtain ⟨hactive, _⟩ := h other id state hold hsession
      rw [hflag] at hactive
      cases hactive
    · exact ⟨rfl, rfl⟩
  · rw [if_neg hother] at hl ⊢
    exact h other id session' ((hopen other id ho).resolve_right fun heq => hother heq.1) hl

/-- The last turn of a session is given up before it had a context. -/
theorem Held.rejected {t : Turn} (h : s.Held) (hs : s.Sound) (ht : t ∈ s.turns)
    (hphase : t.phase = .reading) (hlatest : s.latest? t.sessionId = some t.turnId) :
    ({ s.releaseTurn t.sessionId with turns := s.turns.filter (·.turnId ≠ t.turnId) } : Server).Held := by
  have hrelease : (s.releaseTurn t.sessionId).turns = s.turns := rfl
  intro other id session' ho hl
  have hopen : s.Open other id ∧ id ≠ t.turnId := by
    obtain ⟨hnot, ⟨u, ⟨hu, hus, huid⟩, hne⟩ | ⟨d, hd, k, hk, hks, hkid⟩ |
      ⟨a, ha, hundecided, has, u, ⟨hu, hus, huid⟩, hmatch⟩⟩ := ho
    · obtain ⟨hu, hne'⟩ := List.mem_filter.mp hu
      exact ⟨⟨hnot, Or.inl ⟨u, ⟨hu, hus, huid⟩, hne⟩⟩, huid ▸ by simpa using hne'⟩
    · refine ⟨⟨hnot, Or.inr (Or.inl ⟨d, hd, k, hk, hks, hkid⟩)⟩, fun heq => ?_⟩
      -- a continuation belongs to a turn with a context
      obtain ⟨u, ⟨hu, _, huid⟩, hc⟩ :=
        hs.objects k (Or.inr ⟨d, hd, Waiting.continuation_of_continues hk⟩)
      obtain rfl := hs.turns.eq_of_mem hu ht (huid.trans (hkid.trans heq))
      exact hs.fresh u hu (Or.inl hphase) hc
    · obtain ⟨hu, hne'⟩ := List.mem_filter.mp hu
      exact ⟨⟨hnot, Or.inr (Or.inr ⟨a, ha, hundecided, has, u, ⟨hu, hus, huid⟩, hmatch⟩)⟩,
        huid ▸ by simpa using hne'⟩
  obtain ⟨hold, hne⟩ := hopen
  by_cases hother : other = t.sessionId
  · subst hother
    have hl : (s.registry.releaseTurn s.now t.sessionId).live? s.now t.sessionId = some session' := hl
    rw [SessionRegistry.live?_releaseTurn, if_pos rfl] at hl
    obtain ⟨session, hsession, _⟩ := Option.map_eq_some_iff.mp hl
    obtain ⟨_, hlast⟩ := h t.sessionId id session hold hsession
    exact absurd (Option.some.inj (hlast.symm.trans hlatest)) hne
  · have hl : (s.registry.releaseTurn s.now t.sessionId).live? s.now other = some session' := hl
    rw [SessionRegistry.live?_releaseTurn, if_neg hother] at hl
    obtain ⟨hactive, hlast⟩ := h other id session' hold hl
    refine ⟨hactive, ?_⟩
    have hsame : (s.turns.filter (·.turnId ≠ t.turnId)).filter (·.sessionId = other) =
        s.turns.filter (·.sessionId = other) := by
      rw [List.filter_filter]
      refine List.filter_congr fun u hu => ?_
      by_cases hus : u.sessionId = other
      · have : u.turnId ≠ t.turnId := fun hid =>
          hother (hus.symm.trans (congrArg Turn.sessionId (hs.turns.eq_of_mem hu ht hid)))
        simp [hus, this]
      · simp [hus]
    rw [← hlast]
    simp only [latest?, reservations, List.filter_map, Function.comp_def]
    rw [hsame]

theorem Held.createSession {registry : SessionRegistry} {state : SessionState} (h : s.Held)
    (hs : s.Sound) (hnew : s.newSessionId sessionId = true)
    (hlive : ∀ other, registry.live? s.now other =
      if other = sessionId then some state else s.live? other) :
    ({ s with registry }.emitAll sessionId "session" [.sessionStarted]).1.Held := by
  simp only [newSessionId, Bool.and_eq_true, List.all_eq_true, decide_eq_true_eq] at hnew
  intro other id session' ho hl
  have hopen : s.Open other id := ⟨fun hterminal => ho.1 (terminal_emitAll_mono hterminal), ho.2⟩
  have hl : registry.live? s.now other = some session' := hl
  have hother : other ≠ sessionId := by
    rintro rfl
    rcases hopen.2 with ⟨t, ⟨ht, hts, _⟩, _⟩ | ⟨d, hd, k, hk, hks, _⟩ | ⟨a, ha, _, has, _⟩
    · exact hnew.1 t ht hts
    · obtain ⟨t, ⟨ht, hts, _⟩, _⟩ :=
        hs.objects k (Or.inr ⟨d, hd, Waiting.continuation_of_continues hk⟩)
      exact hnew.1 t ht (hts.trans hks)
    · exact hnew.2 a ha has
  rw [hlive, if_neg hother] at hl
  exact h other id session' hopen hl

theorem Held.touch (h : s.Held) :
    ({ s with registry := s.registry.touch s.now sessionId } : Server).Held := by
  refine h.of_le (fun _ _ => id) (fun other session' hl => ?_) fun _ => rfl
  have hl : (s.registry.touch s.now sessionId).live? s.now other = some session' := hl
  by_cases hother : other = sessionId
  · subst hother
    obtain ⟨before, hbefore, hflag⟩ := SessionRegistry.live?_touch hl
    exact ⟨before, hbefore, fun hactive => hflag ▸ hactive⟩
  · rw [SessionRegistry.live?_touch_of_ne hother] at hl
    exact ⟨session', hl, id⟩

theorem Held.closeSession (h : s.Held) :
    ({ s with registry := s.registry.close sessionId } : Server).Held := by
  refine h.of_le (fun _ _ => id) (fun other session' hl => ?_) fun _ => rfl
  have hl : (s.registry.close sessionId).live? s.now other = some session' := hl
  rw [SessionRegistry.live?_close] at hl
  split at hl
  · exact nomatch hl
  · exact ⟨session', hl, id⟩

theorem Held.turnCreated {t : Turn} (h : s.Held) (hs : s.Sound) (ht : t ∈ s.turns)
    (hphase : t.phase = .booting) : (s.turnCreated t).Held := by
  have hids : ∀ u : Turn, ({ u with
      phase := .running
      deadline := s.now + turnDeadlineMs
      runner := { reducer := { hasStarted := true, events := [.turnStarted] } } } : Turn).sessionId =
        u.sessionId ∧ _ = u.turnId := fun _ => ⟨rfl, rfl⟩
  have hmodified := @Held.modifyTurn_of_mem _ t.turnId _ h hids (fun u hu hid => by
    obtain rfl := hs.turns.eq_of_mem hu ht hid
    simp [hphase]) fun _ => rfl
  refine hmodified.of_le (fun sessionId turnId => Open.mono (fun hterminal => ?_) id id id)
    (live_same fun _ => rfl) fun _ => rfl
  unfold Server.turnCreated
  exact terminal_emitAll_mono hterminal

/-- What an orderly step must respect, read off for one kind of step at a time. -/
theorem Orderly.latest {a : Action} {r : SessionId × TurnId} (h : s.Orderly a)
    (hr : s.releases a = some r) : s.latest? r.1 = some r.2 := (h r hr).1

theorem Held.step {a : Action} (h : s.Held) (hs : s.Sound) (hinvoking : s.Invoking)
    (horderly : s.Orderly a) (hstep : Takes s a s') : s'.Held := by
  cases hstep with
  | tick ms => exact h.tick ms
  | createSession hnew hlive => exact h.createSession hs hnew hlive
  | touch => exact h.touch
  | closeSession => exact h.closeSession
  | refused _ _ _ hlive => exact h.of_le (fun _ _ => id) (live_same hlive) fun _ => rfl
  | queueDecide => exact h.of_le (fun _ _ => id) (live_same fun _ => rfl) fun _ => rfl
  | reserved sessionId turnId registry session hnew hsession hflag hlive =>
    exact h.reserved hsession hflag hlive
  | rejectMessage t ht hphase =>
    refine h.rejected hs ht hphase (horderly.latest (r := (t.sessionId, t.turnId)) ?_)
    simp [releases, hs.turn?_eq ht]
  | gone => exact h.modifyTurn (fun _ => ⟨rfl, rfl⟩) (fun _ hne => absurd rfl hne) fun _ => rfl
  | start t _ ht hphase | bootFails t ht hphase =>
    refine h.modifyTurn_of_mem (fun _ => ⟨rfl, rfl⟩) (fun u hu hid => ?_) fun _ => rfl
    obtain rfl := hs.turns.eq_of_mem hu ht hid
    simp [hphase]
  | threw t _ ht hphase =>
    refine h.modifyTurn_of_mem (fun _ => ⟨rfl, rfl⟩) (fun u hu hid => ?_) fun _ => rfl
    obtain rfl := hs.turns.eq_of_mem hu ht hid
    simp [hphase]
  | returned t _ _ _ ht hphase =>
    refine h.modifyTurn_of_mem (fun _ => ⟨rfl, rfl⟩) (fun u hu hid => ?_) fun _ => rfl
    obtain rfl := hs.turns.eq_of_mem hu ht hid
    simp [hphase]
  | turnCreated t ht hphase => exact h.turnCreated hs ht hphase
  | observed | refreshResult | finalizeResult =>
    exact h.modifyTurn (fun _ => ⟨rfl, rfl⟩) (fun _ => id) fun _ => rfl
  | registerRefresh t refresh ht hallowed hnew => exact h.registerRefresh hs hnew
  | approvalRequired t approvalId expiresAtMs refresh ht hallowed hrefresh =>
    have hmodified : (s.modifyTurn t.turnId ({ · with runner.awaitingApproval := true })).Held :=
      h.modifyTurn (fun _ => ⟨rfl, rfl⟩) (fun _ => id) fun _ => rfl
    have hsound : (s.modifyTurn t.turnId ({ · with runner.awaitingApproval := true })).Sound :=
      hs.modifyTurn (fun _ => ⟨rfl, rfl⟩) fun _ _ _ => ⟨rfl, Iff.rfl, Or.inl rfl⟩
    have hmem := @mem_modifyTurn_of_mem s t.turnId ({ · with runner.awaitingApproval := true }) t ht
    rw [if_pos rfl] at hmem
    simp only [toolAllowed, Bool.and_eq_true] at hallowed
    exact hmodified.registerRequired hsound hmem hallowed.1.1 hrefresh rfl rfl rfl
  | unwind t ht =>
    refine h.unwind fun hnot => ?_
    exact horderly (t.sessionId, t.turnId) (by simp [releases, hs.turn?_eq ht, hnot])
  | cancel sessionId turnId _ hc =>
    exact h.cancels hc fun hactive =>
      horderly.latest (r := (sessionId, turnId)) (by simp [releases, hactive])
  | decide c queue _ hnone hqueue hd =>
    have h' : ({ s with decideQueue := queue } : Server).Held :=
      h.of_le (fun _ _ => id) (live_same fun _ => rfl) fun _ => rfl
    refine h'.decides hd fun a continuation hchecked hundecided hdeny => ?_
    have hcheck : ({ s with decideQueue := queue } : Server).check c = .ok (a, continuation) :=
      check_eq_ok.mpr hchecked
    have hcheck : s.check c = .ok (a, continuation) := hcheck
    refine horderly.latest (r := (c.sessionId, turnOf continuation)) ?_
    simp [releases, hqueue, hcheck, hundecided, hdeny]
  | facadeReturns ok c continuation _ hdeciding hanswers =>
    refine h.answers hs hinvoking hdeciding hanswers fun hok k hk hdeadline => ?_
    obtain rfl := Option.mem_def.mp hk
    refine horderly.latest (r := (k.sessionId, k.turnId)) ?_
    simp [releases, hok, hdeciding, hdeadline]
  | outcomeReady c k _ hdeciding hresolved hr =>
    refine h.resumes hs hdeciding hresolved hr fun hstate => ?_
    exact horderly (k.sessionId, k.turnId) (by simp [releases, hdeciding, hstate])
  | resumed prompt c k n _ hdeciding he =>
    have := horderly (k.sessionId, k.turnId) (by simp [releases, hdeciding])
    exact h.ends hs hdeciding he this.1 this.2

theorem OneActiveTurn.of_held (h : s.Held) : s.OneActiveTurn := by
  intro sessionId turnId hnot hreason haccepted
  obtain ⟨session, hlive, hflag, _⟩ := SessionRegistry.reserveTurn_ok (Prod.ext haccepted rfl)
  obtain ⟨hactive, _⟩ := h sessionId turnId session
    ⟨hnot, hreason.imp_right Or.inl⟩ hlive
  rw [hflag] at hactive
  exact nomatch hactive

end Server

theorem Run.held {origin : Nat} {s : Server} (h : Run Server.Orderly origin s) :
    s.Invoking ∧ s.Held := by
  refine Reached.invariant_of (I := Server.Sound) (J := fun s => s.Invoking ∧ s.Held)
    (fun _ => Run.sound) ⟨Server.Invoking.of_none rfl, fun _ _ _ ho => ?_⟩ ?_ h
  · obtain ⟨t, ⟨ht, _⟩, _⟩ | ⟨d, hd, _⟩ | ⟨a, ha, _⟩ := ho.2
    · exact nomatch ht
    · exact nomatch hd
    · exact nomatch ha
  · intro s a t hs ⟨hinvoking, hheld⟩ horderly hstep
    exact ⟨hinvoking.step hs (Server.step_takes hstep),
      hheld.step hs hinvoking horderly (Server.step_takes hstep)⟩

/-- In a run whose releases are orderly every turn keeps its session to itself until it is over. -/
theorem one_active_turn {origin : Nat} {s : Server} (h : Run Server.Orderly origin s) :
    s.OneActiveTurn :=
  .of_held h.held.2

/-- Turn `a` asks for a refresh, is approved after its `execute` has ended, finalises an artifact in
the prompt that carries it on, and turn `b` follows. -/
def approvedRun : List Action :=
  [.createSession "s" "analyst" "scope", .message "s" "a", .start "a", .turnCreated "a",
    .registerRefresh "a" ⟨"refresh", "fingerprint"⟩, .approvalRequired "a" "approval" 60000,
    .returns "a" .returned, .unwind "a",
    .queueDecide ⟨"s", "approval", .approve, "analyst", "scope"⟩, .decide, .facadeReturns true,
    .outcomeReady, .finalizeResult "a" "artifact", .resumed .returned, .message "s" "b"]

theorem one_active_turn_approvedRun :
    ∃ s, replay Server.step {} approvedRun = some s ∧ s.OneActiveTurn := by
  have hrun : (replay Server.step {} approvedRun).isSome = true ∧
      Permitted Server.step Server.Orderly {} approvedRun := by decide
  obtain ⟨s, hs⟩ := Option.isSome_iff_exists.mp hrun.1
  have hreached : Run Server.Orderly 0 s := Reached.start.replay hrun.2 hs
  exact ⟨s, hs, one_active_turn hreached⟩

/-- Turn `a` has ended before it is cancelled, while turn `b` boots. -/
def lateCancelRun : List Action :=
  [.createSession "s" "analyst" "scope", .message "s" "a", .start "a", .turnCreated "a",
    .returns "a" .returned, .unwind "a", .message "s" "b", .start "b", .cancel "s" "a"]

/-- The late cancellation of `a` lowers the flag that `b` raised. -/
theorem not_oneActiveTurn : ¬∀ origin s, Run Anything origin s → s.OneActiveTurn := by
  intro h
  have hrun : (replay Server.step {} lateCancelRun).any (fun s =>
      !s.hub.terminal "s" "b" && (s.turns.any fun t =>
        t.sessionId = "s" && t.turnId = "b" && t.phase ≠ .finished) &&
          (s.registry.reserveTurn s.now "s").1 = .ok ()) = true := by decide
  obtain ⟨s, hs, hviolated⟩ := Option.any_eq_true _ _ |>.mp hrun
  simp only [Bool.and_eq_true, Bool.not_eq_true', List.any_eq_true, decide_eq_true_eq] at hviolated
  obtain ⟨⟨hterminal, t, ht, ⟨hsession, hid⟩, hphase⟩, haccepted⟩ := hviolated
  have hreached : Run Anything 0 s := Reached.start.replay (permitted_anything _ _) hs
  exact h 0 s hreached "s" "b" (by simp [Server.Terminal, hterminal])
    (Or.inl ⟨t, ⟨ht, hsession, hid⟩, hphase⟩) haccepted

end NanFung.Runtime
