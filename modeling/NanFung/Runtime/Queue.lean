import NanFung.Runtime.Decisions

/-!
# The decision queue

All calls of `decide` wait behind `#decisionTail`, and the one that holds it may wait for the outcome
of a turn. The promise of that outcome is made before the prompt runs, and `execute` resolves it only
once `runTurn` has returned. `not_served` is a run in which the prompt throws after its approval was
given: nothing resolves the promise, and every later decision of every session waits behind it. In a
run that keeps to `Serves` the queue is never blocked.
-/

namespace NanFung.Runtime

open Table

namespace Server

variable {s s' : Server} {sessionId session : SessionId} {turnId turn : TurnId} {c : DecideCall}
  {k : Continuation}

/-- `execute` of the continuation's turn has neither thrown nor ended, and the promise it will resolve
is the continuation's. -/
def Owed (s : Server) (k : Continuation) : Prop :=
  (∃ t, s.HasTurn k.sessionId k.turnId t ∧ t.phase.inTurn = true) ∧
    s.continuation? k.sessionId = some k

def Promised (s : Server) (k : Continuation) : Prop := k.ref ∈ s.resolved ∨ s.Owed k

/-- The decision that holds the queue waits for the outcome of the continuation. -/
def WaitsFor (s : Server) (k : Continuation) : Prop := ∃ c, s.deciding = some (c, .outcome k)

/-- No decision waits for an outcome that `execute` will not give, or that no further steps resolve. -/
structure Served (s : Server) : Prop where
  promised : ∀ k, s.WaitsFor k → s.Promised k
  resolvable : ∀ k, s.WaitsFor k → ∃ as s', replay step s as = some s' ∧ k.ref ∈ s'.resolved

/-! ## Which steps block the queue -/

/-- Once the facade has approved, `#dispatch` waits for the outcome of the turn. -/
def dispatches (s : Server) (c : DecideCall) (k : Continuation) : Bool :=
  !s.hub.terminal c.sessionId k.turnId && (s.registry.live? s.now c.sessionId).isSome &&
    s.pending.any (fun a => a.approvalId = c.approvalId && s.clock < a.expiresAtMs) &&
    !(s.turn? k.turnId).any (·.deadline ≤ s.now)

instance (s : Server) (k : Continuation) : Decidable (s.Promised k) :=
  decidable_of_iff (k.ref ∈ s.resolved ∨
      s.turns.any (fun t => t.sessionId = k.sessionId && t.turnId = k.turnId && t.phase.inTurn) = true ∧
        s.continuation? k.sessionId = some k) <| by
    simp only [Promised, Owed, HasTurn, List.any_eq_true, Bool.and_eq_true, decide_eq_true_eq,
      and_assoc]

/-- The approval comes while the run of its turn may still return; a run that a decision waits for does
not throw; and no other turn of the session takes the slot before the promise is resolved. -/
def Serves (s : Server) : Action → Prop
  | .facadeReturns ok => ok = true → ∀ d ∈ s.deciding, ∀ k ∈ d.2.continuation,
      s.dispatches d.1 k = true → s.Promised k
  | .returns turnId prompt => ∀ t ∈ s.turn? turnId, t.runner.finish t.cancelled prompt = none →
      ∀ d ∈ s.deciding, ∀ k ∈ d.2.continues, k.turnId ≠ turnId
  | .unwind turnId => ∀ t ∈ s.turn? turnId, t.phase ≠ .thrown → ∀ d ∈ s.deciding,
      ∀ k ∈ d.2.continues, k.sessionId = t.sessionId → k.turnId = turnId ∨ k.ref ∈ s.resolved
  | .turnCreated turnId => ∀ t ∈ s.turn? turnId, ∀ d ∈ s.deciding, ∀ k ∈ d.2.continues,
      k.sessionId = t.sessionId → k.ref ∈ s.resolved
  | _ => True

instance (s : Server) (a : Action) : Decidable (s.Serves a) := by
  -- the cases of the action itself, without the equations that `cases` adds to data
  apply Action.casesOn (motive := fun a => Decidable (s.Serves a)) a <;>
    intros <;> dsimp only [Serves] <;> infer_instance

/-! ## What a step does to a promise -/

theorem WaitsFor.continues (h : s.WaitsFor k) : ∃ d ∈ s.deciding, d.2.continues = some k := by
  obtain ⟨c, hc⟩ := h
  exact ⟨_, hc, rfl⟩

theorem WaitsFor.object (h : s.WaitsFor k) : s.Object k := by
  obtain ⟨d, hd, hk⟩ := h.continues
  exact Or.inr ⟨d, hd, Waiting.continuation_of_continues hk⟩

theorem Promised.same (h : s.Promised k) (hturns : s'.turns = s.turns)
    (hslots : s'.continuations = s.continuations) (hresolved : s'.resolved = s.resolved) :
    s'.Promised k := by
  unfold Promised Owed HasTurn continuation? at h ⊢
  rw [hturns, hslots, hresolved]
  exact h

theorem Promised.maps (h : s.Promised k) (hsame : SameMaps s s') : s'.Promised k :=
  h.same hsame.turns hsame.continuations hsame.resolved

/-- A change of a turn that does not end its run. -/
theorem Promised.modifyTurn {f : Turn → Turn} (h : s.Promised k)
    (hf : ∀ t, (f t).sessionId = t.sessionId ∧ (f t).turnId = t.turnId)
    (hphase : ∀ t, s.HasTurn k.sessionId k.turnId t → t.turnId = turnId → t.phase.inTurn = true →
      (f t).phase.inTurn = true) : (s.modifyTurn turnId f).Promised k := by
  refine h.imp_right fun ⟨⟨t, ht, hin⟩, hslot⟩ => ⟨⟨_, hasTurn_modifyTurn hf ht, ?_⟩, hslot⟩
  split
  · next hid => exact hphase t ht hid hin
  · exact hin

/-- The turns in their run are still there. -/
theorem Promised.turns {turns : List Turn} {registry : SessionRegistry} (h : s.Promised k)
    (hkeep : ∀ t ∈ s.turns, t.phase.inTurn = true → t ∈ turns) :
    ({ s with registry, turns } : Server).Promised k :=
  h.imp_right fun ⟨⟨t, ht, hin⟩, hslot⟩ => ⟨⟨t, ⟨hkeep t ht.1 hin, ht.2⟩, hin⟩, hslot⟩

theorem Promised.registerRequired {a : PendingApproval} (h : s.Promised k) :
    (s.registerRequired a).1.Promised k := by
  unfold Server.registerRequired
  split
  · exact h
  · exact h.same rfl rfl rfl

theorem Promised.turnCreated {t : Turn} (h : s.Promised k) (hs : s.Sound) (ht : t ∈ s.turns)
    (hserves : k.sessionId = t.sessionId → k.ref ∈ s.resolved) : (s.turnCreated t).Promised k := by
  by_cases hsession : k.sessionId = t.sessionId
  · exact Or.inl (hserves hsession)
  · refine h.imp_right fun ⟨⟨u, hu, hin⟩, hslot⟩ => ⟨⟨u, ⟨?_, hu.2⟩, hin⟩, ?_⟩
    · have hid : u.turnId ≠ t.turnId := fun hid =>
        hsession (hu.2.1.symm.trans (congrArg Turn.sessionId (hs.turns.eq_of_mem hu.1 ht hid)))
      show u ∈ updateWhere _ _ s.turns
      exact mem_updateWhere.mpr (Or.inr ⟨hu.1, by simpa using hid⟩)
    · show continuation? (setContinuation _ _ _) _ = _
      rw [continuation?_setContinuation, if_neg fun heq => hsession heq.symm]
      exact hslot

/-- `execute` resolves the promise it finds, and takes no slot from another turn. -/
theorem Promised.unwind {t : Turn} (h : s.Promised k) (hs : s.Sound) (ht : t ∈ s.turns)
    (hserves : t.phase ≠ .thrown → k.sessionId = t.sessionId → k.turnId = t.turnId ∨ k.ref ∈ s.resolved)
    (hover : t.phase.isOver = true) : (s.unwind t).Promised k := by
  obtain ⟨hturns, _⟩ := unwind_frame s t
  obtain ⟨hresolved, hslot, hreturned⟩ := unwind_continuation s t
  rcases h with hr | ⟨⟨u, hu, hin⟩, hk⟩
  · exact Or.inl (hresolved _ hr)
  have hother : u.turnId ≠ t.turnId → (s.unwind t).continuation? k.sessionId = s.continuation? k.sessionId →
      (s.unwind t).Promised k := by
    intro hid heq
    refine Or.inr ⟨⟨u, ⟨?_, hu.2⟩, hin⟩, heq.trans hk⟩
    rw [hturns]
    show u ∈ updateWhere _ _ s.turns
    exact mem_updateWhere.mpr (Or.inr ⟨hu.1, by simpa using hid⟩)
  by_cases hid : u.turnId = t.turnId
  · obtain rfl := hs.turns.eq_of_mem hu.1 ht hid
    -- the run of a turn that is owed has returned
    have hret : ∃ outcome, u.phase = .returned outcome := by
      cases hp : u.phase with
      | returned outcome => exact ⟨outcome, rfl⟩
      | running =>
        rw [hp] at hover
        exact nomatch hover
      | _ =>
        rw [hp] at hin
        exact nomatch hin
    refine Or.inl ((hreturned hret).2 k ?_ hu.2.2.symm)
    rw [hu.2.1]
    exact hk
  · by_cases hthrown : t.phase = .thrown
    · exact hother hid (hslot _ (Or.inr fun outcome ho => nomatch hthrown.symm.trans ho))
    · by_cases hsession : k.sessionId = t.sessionId
      · rcases hserves hthrown hsession with heq | hr
        · exact absurd (hu.2.2.trans heq) hid
        · exact Or.inl (hresolved _ hr)
      · exact hother hid (hslot _ (Or.inl hsession))

theorem Promised.cancels (h : s.Promised k) (hc : Cancels s sessionId turnId s') : s'.Promised k := by
  cases hc with
  | nothing _ hsame => exact h.maps hsame
  | cancelled s₀ s₁ hsame _ _ _ _ _ _ hs₁ =>
    subst hs₁
    have hmodified : (s₀.modifyTurn turnId ({ · with cancelled := true })).Promised k :=
      (h.maps hsame).modifyTurn (fun _ => ⟨rfl, rfl⟩) fun _ _ _ => id
    exact hmodified.same rfl rfl rfl

/-! ## The queue is served -/

/-- A decision that the facade's answer leaves waiting was dispatched. -/
theorem dispatches_of_answers {continuation : Option Continuation} {ok : Bool} (hs : s.Sound)
    (hdeciding : s.deciding = some (c, .facade continuation)) (hanswers : Answers s c continuation ok s')
    (hwaits : s'.WaitsFor k) :
    ok = true ∧ continuation = some k ∧ s.dispatches c k = true ∧
      s'.turns = s.turns ∧ s'.continuations = s.continuations ∧ s'.resolved = s.resolved := by
  obtain ⟨c', hwaits⟩ := hwaits
  cases hanswers with
  | refused | threw | kept => exact nomatch hwaits
  | dispatched s₁ _ k' a hpublish hcontinuation hfound hunexpired hdispatch =>
    subst hcontinuation
    have hs₁ : ((s.approve c).emitAll c.sessionId k'.turnId [.approvalResolved .approve]).1 = s₁ :=
      congrArg Prod.fst hpublish
    have haccepted : (s.hub.emitAll c.sessionId k'.turnId [.approvalResolved .approve]).2 = true :=
      congrArg Prod.snd hpublish
    cases hdispatch with
    | skipped => exact nomatch hwaits
    | failed _ _ hfinish => exact nomatch hfinish.same.2.symm.trans hwaits
    | waits hlive hdeadline =>
      obtain ⟨_, hk⟩ := Prod.mk.inj (Option.some.inj hwaits)
      obtain rfl : k' = k := Waiting.outcome.inj hk
      subst hs₁
      refine ⟨rfl, rfl, ?_, rfl, rfl, rfl⟩
      -- the approval is the one before, with its decision
      have hmem := List.mem_of_find?_eq_some hfound
      have hid : a.approvalId = c.approvalId := by simpa using List.find?_some hfound
      have hexpiry : ∃ b ∈ s.pending, b.approvalId = c.approvalId ∧ s.clock < b.expiresAtMs := by
        rcases mem_updateWhere.mp hmem with ⟨b, hb, hbid, rfl⟩ | ⟨hb, _⟩
        · exact ⟨b, hb, by simpa using hbid, hunexpired⟩
        · exact ⟨a, hb, hid, hunexpired⟩
      have hopen : s.hub.terminal c.sessionId k'.turnId = false := by
        by_contra hterm
        have hnone := (@SseHub.emit_eq_none s.hub _ _ (.approvalResolved .approve)).mpr
          (by simpa using hterm)
        simp [SseHub.emitAll, hnone] at haccepted
      have hlive : (s.registry.live? s.now k'.sessionId).isSome := hlive
      rw [hs.caller _ hdeciding k' rfl] at hlive
      have hdeadline : (s.turn? k'.turnId).any (·.deadline ≤ s.now) = false := hdeadline
      simp only [dispatches, hopen, hlive, hdeadline, Bool.not_false, Bool.true_and, Bool.and_true,
        List.any_eq_true, Bool.and_eq_true, decide_eq_true_eq]
      exact hexpiry

theorem promised_step {a : Action} (hpromised : ∀ k, s.WaitsFor k → s.Promised k) (hs : s.Sound)
    (hserves : s.Serves a) (hstep : Takes s a s') : ∀ k, s'.WaitsFor k → s'.Promised k := by
  intro k hwaits
  cases hstep with
  | tick | createSession | touch | closeSession | refused | queueDecide =>
    exact (hpromised k hwaits).same rfl rfl rfl
  | reserved => exact (hpromised k hwaits).turns fun t ht _ => List.mem_append_left _ ht
  | rejectMessage t ht hphase =>
    refine (hpromised k hwaits).turns fun u hu hin => List.mem_filter.mpr ⟨hu, ?_⟩
    simp only [decide_eq_true_eq]
    intro hid
    rw [hs.turns.eq_of_mem hu ht hid, hphase] at hin
    exact nomatch hin
  | gone t ht hphase | start t _ ht hphase | bootFails t ht hphase =>
    refine (hpromised k hwaits).modifyTurn (fun _ => ⟨rfl, rfl⟩) fun u hu hid hin => ?_
    rw [hs.turns.eq_of_mem hu.1 ht hid, hphase] at hin
    exact nomatch hin
  | turnCreated t ht hphase =>
    have hwaits : s.WaitsFor k := hwaits
    obtain ⟨d, hd, hk⟩ := hwaits.continues
    exact (hpromised k hwaits).turnCreated hs ht (hserves t (hs.turn?_eq ht) d hd k hk)
  | observed | registerRefresh | refreshResult | finalizeResult =>
    exact (hpromised k hwaits).modifyTurn (fun _ => ⟨rfl, rfl⟩) fun _ _ _ => id
  | approvalRequired t =>
    have hwaits : s.WaitsFor k := by
      unfold Server.registerRequired at hwaits
      split at hwaits <;> exact hwaits
    have hmodified : (s.modifyTurn t.turnId ({ · with runner.awaitingApproval := true })).Promised k :=
      (hpromised k hwaits).modifyTurn (fun _ => ⟨rfl, rfl⟩) fun _ _ _ => id
    exact hmodified.registerRequired
  | threw t prompt ht hphase hfinish =>
    have hwaits : s.WaitsFor k := hwaits
    obtain ⟨d, hd, hk⟩ := hwaits.continues
    refine (hpromised k hwaits).modifyTurn (fun _ => ⟨rfl, rfl⟩) fun u hu hid _ => ?_
    exact absurd (hu.2.2.symm.trans hid) (hserves t (hs.turn?_eq ht) hfinish d hd k hk)
  | returned t =>
    exact (hpromised k hwaits).modifyTurn (fun _ => ⟨rfl, rfl⟩) fun _ _ _ _ => rfl
  | unwind t ht hover =>
    have hwaits : s.WaitsFor k := by
      unfold WaitsFor at hwaits ⊢
      rw [(unwind_frame s t).2.2.1] at hwaits
      exact hwaits
    obtain ⟨d, hd, hk⟩ := hwaits.continues
    exact (hpromised k hwaits).unwind hs ht
      (fun hthrown => hserves t (hs.turn?_eq ht) hthrown d hd k hk) hover
  | cancel _ _ _ hc =>
    have hwaits : s.WaitsFor k := by
      unfold WaitsFor at hwaits ⊢
      cases hc with
      | nothing _ _ hdeciding =>
        rw [hdeciding] at hwaits
        exact hwaits
      | cancelled s₀ s₁ _ hdeciding _ _ _ _ _ hs₁ =>
        subst hs₁
        have hwaits : ∃ c, s₀.deciding = some (c, .outcome k) := hwaits
        rw [hdeciding] at hwaits
        exact hwaits
    exact (hpromised k hwaits).cancels hc
  | decide c queue _ _ _ hd =>
    obtain ⟨c', hwaits⟩ := hwaits
    cases hd with
    | refused | same | invokes => exact nomatch hwaits
    | denies _ _ s₁ accepted =>
      cases accepted <;> exact nomatch hwaits
  | facadeReturns ok c continuation _ hdeciding hanswers =>
    obtain ⟨hok, rfl, hdispatches, hturns, hslots, hresolved⟩ :=
      dispatches_of_answers hs hdeciding hanswers hwaits
    exact (hserves hok _ hdeciding k rfl hdispatches).same hturns hslots hresolved
  | outcomeReady c k' _ _ _ hr =>
    obtain ⟨c', hwaits⟩ := hwaits
    cases hr with
    | gone _ _ hfinish => exact nomatch hfinish.same.2.symm.trans hwaits
    | ended _ _ _ _ hfinish => exact nomatch hfinish.same.2.symm.trans hwaits
    | prompts => exact nomatch hwaits
  | resumed prompt c k' n _ _ he =>
    obtain ⟨c', hwaits⟩ := hwaits
    cases he with
    | threw hfinish => exact nomatch hfinish.same.2.symm.trans hwaits
    | ended _ _ _ _ _ hfinish => exact nomatch hfinish.same.2.symm.trans hwaits

/-! ## What is promised can be had -/

/-- A run that has not closed can be closed by its deadline, or by its cancellation. -/
theorem finishes_deadline {r : RunnerState} (hstarted : r.reducer.hasStarted = true)
    (hopen : r.reducer.terminal = false) (cancelled : Bool) :
    ∃ runner outcome, r.finish cancelled .deadline = some (runner, outcome) := by
  cases cancelled <;>
    simp [RunnerState.finish, RunnerState.close, LifecycleReducer.transition, LifecycleReducer.apply,
      hstarted, hopen]

theorem resolved_of_unwind {t : Turn} {outcome : TurnOutcome} (hs : s.Sound)
    (ht : s.HasTurn k.sessionId k.turnId t) (hphase : t.phase = .returned outcome)
    (hslot : s.continuation? k.sessionId = some k) :
    s.step (.unwind t.turnId) = some (s.unwind t) ∧ k.ref ∈ (s.unwind t).resolved := by
  constructor
  · simp [step, hs.turn?_eq ht.1, hphase, Phase.isOver]
  · obtain ⟨_, _, hreturned⟩ := unwind_continuation s t
    apply (hreturned ⟨outcome, hphase⟩).2 k
    · rw [ht.2.1]
      exact hslot
    · exact ht.2.2.symm

theorem Promised.resolvable (h : s.Promised k) (hs : s.Sound) (hrecords : s.Records) :
    ∃ as s', replay step s as = some s' ∧ k.ref ∈ s'.resolved := by
  rcases h with hr | ⟨⟨t, ht, hin⟩, hslot⟩
  · exact ⟨[], s, rfl, hr⟩
  cases hphase : t.phase with
  | returned outcome =>
    obtain ⟨hstep, hr⟩ := resolved_of_unwind hs ht hphase hslot
    exact ⟨[.unwind t.turnId], _, by simp [replay, hstep], hr⟩
  | running =>
    have hcreated : t.Created := hs.started t ht.1 hin
    obtain ⟨runner, outcome, hfinish⟩ :=
      finishes_deadline hcreated ((hrecords.turns t ht.1).running hphase) t.cancelled
    have hstep : s.step (.returns t.turnId .deadline) =
        some (s.modifyTurn t.turnId ({ · with phase := .returned outcome, runner })) := by
      simp [step, hs.turn?_eq ht.1, hphase, hfinish]
    have hs₁ := hs.step hstep
    have ht₁ := @hasTurn_modifyTurn _ _ t.turnId _
      ({ · with phase := .returned outcome, runner }) (fun _ => ⟨rfl, rfl⟩) _ ht
    rw [if_pos rfl] at ht₁
    obtain ⟨hunwind, hr⟩ := resolved_of_unwind hs₁ ht₁ rfl hslot
    exact ⟨[.returns t.turnId .deadline, .unwind t.turnId], _, by simp [replay, hstep, hunwind], hr⟩
  | _ =>
    rw [hphase] at hin
    cases hin

end Server

/-- In a run that keeps to `Serves` no decision waits in vain. -/
theorem queue_served {origin : Nat} {s : Server} (h : Run Server.Serves origin s) : s.Served := by
  have hpromised : ∀ k, s.WaitsFor k → s.Promised k := by
    refine Reached.invariant_of (I := Server.Sound) (J := fun s => ∀ k, s.WaitsFor k → s.Promised k)
      (fun _ => Run.sound) ?_ ?_ h
    · exact fun k ⟨_, hwaits⟩ => nomatch hwaits
    · exact fun s a t hs hpromised hserves hstep =>
        Server.promised_step hpromised hs hserves (Server.step_takes hstep)
  exact ⟨hpromised, fun k hwaits => (hpromised k hwaits).resolvable (Run.sound h) (Run.records h)⟩

theorem queue_served_approvedRun :
    ∃ s, replay Server.step {} approvedRun = some s ∧ s.Served := by
  have hrun : (replay Server.step {} approvedRun).isSome = true ∧
      Permitted Server.step Server.Serves {} approvedRun := by decide
  obtain ⟨s, hs⟩ := Option.isSome_iff_exists.mp hrun.1
  have hreached : Run Server.Serves 0 s := Reached.start.replay hrun.2 hs
  exact ⟨s, hs, queue_served hreached⟩

/-- The refresh of turn `a` is approved while its prompt runs, and then the prompt throws. -/
def blockedRun : List Action :=
  [.createSession "s" "analyst" "scope", .message "s" "a", .start "a", .turnCreated "a",
    .registerRefresh "a" ⟨"refresh", "fingerprint"⟩, .approvalRequired "a" "approval" 60000,
    .queueDecide ⟨"s", "approval", .approve, "analyst", "scope"⟩, .decide, .facadeReturns true,
    .returns "a" .error]

/-- The decision waits for the outcome of a turn that has thrown. -/
theorem not_served : ¬∀ origin s, Run Anything origin s → s.Served := by
  intro h
  have hrun : (replay Server.step {} blockedRun).any (fun s =>
      s.deciding.any fun d => d.2.continues.any fun k =>
        (d.2 = .outcome k) && !(s.Promised k)) = true := by decide
  obtain ⟨s, hs, hblocked⟩ := Option.any_eq_true _ _ |>.mp hrun
  simp only [Option.any_eq_true, Bool.and_eq_true, decide_eq_true_eq, Bool.not_eq_true',
    decide_eq_false_iff_not] at hblocked
  obtain ⟨⟨c, w⟩, hd, k, _, rfl, hnot⟩ := hblocked
  have hreached : Run Anything 0 s := Reached.start.replay (permitted_anything _ _) hs
  exact hnot ((h 0 s hreached).promised k ⟨c, hd⟩)

end NanFung.Runtime
