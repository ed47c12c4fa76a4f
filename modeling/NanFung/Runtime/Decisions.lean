import NanFung.Runtime.Settlement

/-!
# Decisions

`Answered` is what holds of the decisions of a state, `Proper` of a single step. That an approval is
approved at most once and never after it was denied, and that a caller of another principal or scope
changes nothing, holds in every run. The rest rests on `Undisturbed`: the turn of a decision must not
end, and its slot must not be taken, before the decision does. `not_decided` is a run in which the turn
is cancelled first.
-/

namespace NanFung.Runtime

open Table

namespace Server

variable {s s' : Server} {sessionId session : SessionId} {turnId turn : TurnId} {c : DecideCall}
  {k : Continuation}

/-- No decision ended in an exception, and none waits for an outcome that will not come: that of a
turn whose `execute` has ended without handing it over. -/
structure Answered (s : Server) : Prop where
  settled : ∀ x ∈ s.settled, x.2 ≠ .threw
  waiting : ∀ c k, s.deciding = some (c, .outcome k) →
    (∀ t, s.HasTurn k.sessionId k.turnId t → t.phase = .finished) → k.ref ∈ s.resolved

/-- `approve_refresh` succeeded at most once for each approval, and for none that was denied. -/
structure ApprovedOnce (s : Server) : Prop where
  once : s.approved.Nodup
  granted : ∀ id ∈ s.approved, ∃ a ∈ s.pending, a.approvalId = id ∧ a.decision = some .approve

/-- A step asks the facade only about the approval of a turn without terminal event. -/
def InvokesOpen (s s' : Server) : Prop :=
  ∀ c continuation, s.deciding = none → s'.deciding = some (c, .facade continuation) →
    ∀ a ∈ s.pending, a.approvalId = c.approvalId → ∀ t ∈ s.turns, refreshMatches t a = true →
      ¬s.Terminal t.sessionId t.turnId

/-- The answer to a call about a registered approval. -/
structure Proper (s s' : Server) (c : DecideCall) (a : PendingApproval) : Prop where
  mismatch : a.principal ≠ c.principal ∨ a.capabilityScopeId ≠ c.scopeId →
    s'.deciding = none ∧ s'.pending = s.pending
  opposite : a.sessionId = c.sessionId → a.principal = c.principal →
    a.capabilityScopeId = c.scopeId → (∃ d ∈ a.decision, d ≠ c.decision) →
      s'.settled = s.settled ++ [(c, .refused .replayOpposite)] ∨
        s'.settled = s.settled ++ [(c, .refused .expired)]

/-- What the coordinator promises in a state, and for every permitted step from it. -/
structure Decided (permits : Server → Action → Prop) (s : Server) : Prop where
  answered : s.Answered
  approvedOnce : s.ApprovedOnce
  invokes : ∀ a s', permits s a → s.step a = some s' → s.InvokesOpen s'
  proper : ∀ c queue s', s.decideQueue = c :: queue → permits s .decide → s.step .decide = some s' →
    ∀ a ∈ s.pending, a.approvalId = c.approvalId → s.Proper s' c a

/-! ## Which steps disturb a decision -/

/-- The turn of the session's slot asked for the approval. -/
def slotMatches (s : Server) (a : PendingApproval) : Bool :=
  (s.continuation? a.sessionId).all fun k => (s.turn? k.turnId).all (refreshMatches · a)

/-- The session's slot holds a turn that has a terminal event. -/
def slotTerminal (s : Server) (sessionId : SessionId) : Bool :=
  (s.continuation? sessionId).any fun k => s.hub.terminal k.sessionId k.turnId

/-- A decision by the approval's own principal may begin: its turn has not ended, or it is decided
already; and if it is decided otherwise, its session has not gone on to another turn. -/
def MayDecide (s : Server) (c : DecideCall) : Prop :=
  ∀ a ∈ s.pending, a.approvalId = c.approvalId → a.sessionId = c.sessionId →
    a.principal = c.principal → a.capabilityScopeId = c.scopeId → s.clock < a.expiresAtMs →
      (a.decision = none → s.slotMatches a = true → s.slotTerminal a.sessionId = false) ∧
        ((∃ d ∈ a.decision, d ≠ c.decision) → s.slotMatches a = true)

/-- The turn may go through the end of `execute` without disturbing the decision under way. -/
def mayUnwind (s : Server) (t : Turn) : Bool :=
  s.deciding.all fun d => d.2.continuation.all fun k =>
    if k.turnId = t.turnId then
      match d.2 with
      | .facade _ => (s.closingBodies t).all (!·.isTerminal)
      | _ => t.phase ≠ .thrown
    else k.sessionId ≠ t.sessionId || k.ref ∈ s.resolved || t.phase = .thrown

/-- No step takes away what a decision waits for. -/
def Undisturbed (s : Server) : Action → Prop
  | .decide => ∀ c ∈ s.decideQueue.head?, s.MayDecide c
  | .cancel sessionId turnId => s.activeTurn? sessionId = some ⟨sessionId, turnId⟩ →
      ∀ d ∈ s.deciding, ∀ k ∈ d.2.continuation, k.turnId ≠ turnId
  | .unwind turnId => ∀ t ∈ s.turn? turnId, s.mayUnwind t = true
  | .turnCreated turnId => ∀ t ∈ s.turn? turnId, ∀ d ∈ s.deciding, ∀ k ∈ d.2.continuation,
      k.sessionId = t.sessionId → k.ref ∈ s.resolved
  | _ => True

instance (s : Server) (c : DecideCall) : Decidable (s.MayDecide c) := by
  unfold MayDecide
  infer_instance

instance (s : Server) (a : Action) : Decidable (s.Undisturbed a) := by
  apply Action.casesOn (motive := fun a => Decidable (s.Undisturbed a)) a <;>
    intros <;> dsimp only [Undisturbed] <;> infer_instance

/-! ## What holds in every run -/

theorem ApprovedOnce.same (h : s.ApprovedOnce) (happroved : s'.approved = s.approved)
    (hpending : ∀ a ∈ s.pending, a.decision = some .approve → a ∈ s'.pending) : s'.ApprovedOnce where
  once := happroved ▸ h.once
  granted id hid := by
    obtain ⟨a, ha, hid, hdecision⟩ := h.granted id (happroved ▸ hid)
    exact ⟨a, hpending a ha hdecision, hid, hdecision⟩

theorem ApprovedOnce.maps (h : s.ApprovedOnce) (hsame : SameMaps s s') : s'.ApprovedOnce :=
  h.same hsame.approved fun _ ha _ => hsame.pending ▸ ha

/-- A decision replaces none that was made before. -/
theorem mem_decideApproval {a b : PendingApproval} {decision : DecisionKind} (hs : s.Sound)
    (ha : a ∈ s.pending) (haid : a.approvalId = c.approvalId) (hnone : a.decision = none)
    (hb : b ∈ s.pending) (hdecided : b.decision = some .approve) :
    b ∈ (s.decideApproval c.approvalId decision).pending := by
  have hid : b.approvalId ≠ c.approvalId := fun hid => by
    obtain rfl := hs.approvals.eq_of_mem ha hb (haid.trans hid.symm)
    rw [hnone] at hdecided
    exact nomatch hdecided
  show _ ∈ updateWhere _ _ s.pending
  simpa [hid] using mem_updateWhere_of_mem (p := fun a : PendingApproval =>
    a.approvalId = c.approvalId) (f := PendingApproval.decided decision) hb

theorem ApprovedOnce.decides (h : s.ApprovedOnce) (hs : s.Sound) (hd : Decides s c s') :
    s'.ApprovedOnce := by
  cases hd with
  | refused | same => exact h.maps (.settle s c _)
  | invokes => exact h.maps (.withDeciding s _)
  | denies a continuation s₁ accepted hchecked hundecided _ hpublish =>
    obtain rfl : ((s.decideApproval c.approvalId .deny).emitAll c.sessionId (turnOf continuation)
      [.approvalResolved .deny, .turnCompleted .completed]).1 = s₁ := congrArg Prod.fst hpublish
    have hdenied : (s.decideApproval c.approvalId .deny).ApprovedOnce :=
      h.same rfl fun b hb hdecided => mem_decideApproval hs (List.mem_of_find?_eq_some hchecked.found)
        (by simpa using List.find?_some hchecked.found) hundecided hb hdecided
    split
    · exact hdenied.maps (((SameMaps.emitAll _ _).trans (.releaseTurn _)).trans (.settle _ c _))
    · exact hdenied.maps ((SameMaps.emitAll _ _).trans (.settle _ c _))

theorem ApprovedOnce.answers {continuation : Option Continuation} {ok : Bool} (h : s.ApprovedOnce)
    (hs : s.Sound) (hinvoking : s.Invoking) (hdeciding : s.deciding = some (c, .facade continuation))
    (hanswers : Answers s c continuation ok s') : s'.ApprovedOnce := by
  obtain ⟨a, ha, haid, hnone, _⟩ := hinvoking c continuation hdeciding
  have hdecided : a.decided .approve ∈ (s.approve c).pending := by
    show _ ∈ updateWhere _ _ s.pending
    simpa [haid] using mem_updateWhere_of_mem (p := fun a : PendingApproval =>
      a.approvalId = c.approvalId) (f := PendingApproval.decided .approve) ha
  have happroved : (s.approve c).ApprovedOnce := by
    refine ⟨List.nodup_append.mpr ⟨h.once, List.nodup_singleton _, fun id hid id' hid' heq => ?_⟩,
      fun id hid => ?_⟩
    · obtain rfl := List.mem_singleton.mp hid'
      subst heq
      -- what was approved before is decided, what the facade was asked about is not
      obtain ⟨b, hb, hbid, hbd⟩ := h.granted _ hid
      obtain rfl := hs.approvals.eq_of_mem ha hb (haid.trans hbid.symm)
      rw [hnone] at hbd
      exact nomatch hbd
    · rcases List.mem_append.mp hid with hid | hid
      · obtain ⟨b, hb, hbid, hbd⟩ := h.granted id hid
        exact ⟨b, mem_decideApproval hs ha haid hnone hb hbd, hbid, hbd⟩
      · obtain rfl := List.mem_singleton.mp hid
        exact ⟨_, hdecided, haid, rfl⟩
  have hpublished : ∀ s₁ accepted, (s.approve c).emitAll c.sessionId (turnOf continuation)
      [.approvalResolved .approve] = (s₁, accepted) → s₁.ApprovedOnce := by
    intro s₁ accepted hpublish
    obtain rfl : ((s.approve c).emitAll c.sessionId (turnOf continuation)
      [.approvalResolved .approve]).1 = s₁ := congrArg Prod.fst hpublish
    exact happroved.maps (.emitAll _ _)
  cases hanswers with
  | refused => exact h.maps (.settle s c _)
  | threw s₁ hpublish | kept s₁ hpublish => exact (hpublished s₁ _ hpublish).maps (.settle s₁ c _)
  | dispatched s₁ _ k b hpublish _ _ _ hdispatch => exact (hpublished s₁ _ hpublish).maps hdispatch.same.1

theorem ApprovedOnce.step {a : Action} (h : s.ApprovedOnce) (hs : s.Sound) (hinvoking : s.Invoking)
    (hstep : Takes s a s') : s'.ApprovedOnce := by
  cases hstep with
  | approvalRequired t =>
    unfold registerRequired
    split
    · exact h.same rfl fun _ ha _ => ha
    · exact h.same rfl fun _ ha _ => List.mem_append_left _ ha
  | unwind t =>
    obtain ⟨_, hpending, _, _, _, happroved⟩ := unwind_frame s t
    exact h.same happroved fun _ ha _ => hpending ▸ ha
  | cancel _ _ _ hc =>
    cases hc with
    | nothing _ hsame => exact h.maps hsame
    | cancelled s₀ s₁ hsame _ _ _ _ _ _ hs₁ =>
      subst hs₁
      exact h.same hsame.approved fun _ ha _ => hsame.pending ▸ ha
  | decide c queue _ _ _ hd =>
    have h' : ({ s with decideQueue := queue } : Server).ApprovedOnce := h.same rfl fun _ ha _ => ha
    exact h'.decides (hs.congr rfl rfl rfl rfl rfl rfl rfl) hd
  | facadeReturns ok c continuation _ hdeciding hanswers =>
    exact h.answers hs hinvoking hdeciding hanswers
  | outcomeReady c k _ _ _ hr =>
    cases hr with
    | gone _ _ hfinish => exact h.maps hfinish.same.1
    | ended _ _ _ _ hfinish => exact h.maps hfinish.same.1
    | prompts => exact h.same rfl fun _ ha _ => ha
  | resumed prompt c k n _ _ he =>
    cases he with
    | threw hfinish => exact h.maps hfinish.same.1
    | ended t runner outcome _ _ hfinish =>
      have hmodified : (s.modifyTurn k.turnId ({ · with runner })).ApprovedOnce :=
        h.same rfl fun _ ha _ => ha
      exact hmodified.maps hfinish.same.1
  | _ => exact h.same rfl fun _ ha _ => ha

/-- An approval is registered under the one policy version there is. -/
def OnePolicy (s : Server) : Prop := ∀ a ∈ s.pending, a.policyVersion = testPolicyVersion

theorem OnePolicy.same (h : s.OnePolicy) (hpending : s'.pending = s.pending) : s'.OnePolicy :=
  fun a ha => h a (hpending ▸ ha)

theorem OnePolicy.decideApproval {approvalId : ApprovalId} {decision : DecisionKind}
    (h : s.OnePolicy) : (s.decideApproval approvalId decision).OnePolicy := by
  intro a ha
  rcases mem_updateWhere.mp ha with ⟨b, hb, _, rfl⟩ | ⟨ha, _⟩
  · exact h b hb
  · exact h a ha

theorem OnePolicy.step {a : Action} (h : s.OnePolicy) (hstep : Takes s a s') : s'.OnePolicy := by
  cases hstep with
  | approvalRequired t =>
    unfold registerRequired
    split
    · exact h
    · intro b hb
      rcases List.mem_append.mp hb with hb | hb
      · exact h b hb
      · obtain rfl := List.mem_singleton.mp hb
        rfl
  | unwind t => exact h.same (unwind_frame s t).2.1
  | cancel _ _ _ hc =>
    cases hc with
    | nothing _ hsame => exact h.same hsame.pending
    | cancelled s₀ s₁ hsame _ _ _ _ _ _ hs₁ =>
      subst hs₁
      exact h.same hsame.pending
  | decide c queue _ _ _ hd =>
    cases hd with
    | refused | same | invokes => exact h
    | denies a continuation s₁ accepted _ _ _ hpublish =>
      obtain rfl : (({ s with decideQueue := queue } : Server).decideApproval c.approvalId .deny |>.emitAll
        c.sessionId (turnOf continuation) [.approvalResolved .deny, .turnCompleted .completed]).1 = s₁ :=
          congrArg Prod.fst hpublish
      split <;> exact h.decideApproval
  | facadeReturns ok c continuation _ _ hanswers =>
    have hpublished : ∀ s₁ accepted, (s.approve c).emitAll c.sessionId (turnOf continuation)
        [.approvalResolved .approve] = (s₁, accepted) → s₁.OnePolicy := by
      intro s₁ accepted hpublish
      obtain rfl : ((s.approve c).emitAll c.sessionId (turnOf continuation)
        [.approvalResolved .approve]).1 = s₁ := congrArg Prod.fst hpublish
      exact h.decideApproval
    cases hanswers with
    | refused => exact h
    | threw s₁ hpublish | kept s₁ hpublish => exact hpublished s₁ _ hpublish
    | dispatched s₁ _ k b hpublish _ _ _ hdispatch =>
      exact (hpublished s₁ _ hpublish).same hdispatch.same.1.pending
  | outcomeReady c k _ _ _ hr =>
    cases hr with
    | gone _ _ hfinish => exact h.same hfinish.same.1.pending
    | ended _ _ _ _ hfinish => exact h.same hfinish.same.1.pending
    | prompts => exact h
  | resumed prompt c k n _ _ he =>
    cases he with
    | threw hfinish => exact h.same hfinish.same.1.pending
    | ended t runner outcome _ _ hfinish => exact h.same hfinish.same.1.pending
  | _ => exact h

/-! ## A decision gets what it waits for -/

/-- The outcome of a continuation is there, or `execute` will hand it over. -/
def Coming (s : Server) (k : Continuation) : Prop :=
  k.ref ∈ s.resolved ∨
    s.Executing k.sessionId k.turnId ∧ s.continuation? k.sessionId = some k

/-- The turn of a decision has not ended; once its outcome is waited for, its run may have. -/
def Undone (s : Server) (w : Waiting) (k : Continuation) : Prop :=
  ¬s.Terminal k.sessionId k.turnId ∨ (∃ k', w = .outcome k') ∧
    ∀ t, s.HasTurn k.sessionId k.turnId t → t.runner.reducer.terminal = true

structure Attended (s : Server) : Prop where
  settled : ∀ x ∈ s.settled, x.2 ≠ .threw
  waiting : ∀ d ∈ s.deciding, ∃ k, d.2.continuation = some k ∧ s.Coming k ∧ s.Undone d.2 k
  slots : ∀ sessionId k, s.continuation? sessionId = some k →
    k.ref ∈ s.resolved ∨ s.Executing k.sessionId k.turnId ∨ s.Terminal k.sessionId k.turnId

theorem Attended.keep (h : s.Attended) (hsettled : s'.settled = s.settled)
    (hdeciding : s'.deciding = s.deciding)
    (hcoming : ∀ d ∈ s.deciding, ∀ k, d.2.continuation = some k → s.Coming k → s'.Coming k)
    (hundone : ∀ d ∈ s.deciding, ∀ k, d.2.continuation = some k → s.Undone d.2 k → s'.Undone d.2 k)
    (hslots : ∀ sessionId k, s'.continuation? sessionId = some k →
      k.ref ∈ s'.resolved ∨ s'.Executing k.sessionId k.turnId ∨ s'.Terminal k.sessionId k.turnId) :
    s'.Attended where
  settled := hsettled ▸ h.settled
  waiting d hd := by
    rw [hdeciding] at hd
    obtain ⟨k, hk, hc, hu⟩ := h.waiting d hd
    exact ⟨k, hk, hcoming d hd k hk hc, hundone d hd k hk hu⟩
  slots := hslots

/-- The decision is over. -/
theorem Attended.over (h : s.Attended) (hdeciding : s'.deciding = none)
    (hsettled : ∀ x ∈ s'.settled, x ∈ s.settled ∨ x.2 ≠ .threw)
    (hslots : ∀ sessionId k, s'.continuation? sessionId = some k →
      k.ref ∈ s'.resolved ∨ s'.Executing k.sessionId k.turnId ∨ s'.Terminal k.sessionId k.turnId) :
    s'.Attended where
  settled x hx := (hsettled x hx).elim (h.settled x) id
  waiting d hd := by simp [hdeciding] at hd
  slots := hslots

theorem Attended.slots_of_maps (h : s.Attended) (hsame : SameMaps s s')
    (hterminal : ∀ sid tid, s.Terminal sid tid → s'.Terminal sid tid) :
    ∀ sessionId k, s'.continuation? sessionId = some k →
      k.ref ∈ s'.resolved ∨ s'.Executing k.sessionId k.turnId ∨ s'.Terminal k.sessionId k.turnId := by
  intro sid k hk
  rw [hsame.continuation?] at hk
  rw [hsame.resolved]
  exact (h.slots sid k hk).imp_right (Or.imp hsame.executing.mpr (hterminal _ _))

/-- A change of a turn that neither ends `execute` nor takes back what its run closed with. -/
theorem Attended.modifyTurn {f : Turn → Turn} (h : s.Attended) (hs : s.Sound)
    (hf : ∀ t, (f t).sessionId = t.sessionId ∧ (f t).turnId = t.turnId)
    (hphase : ∀ t ∈ s.turns, t.turnId = turnId → t.Created → t.phase ≠ .finished →
      (f t).phase ≠ .finished)
    (hreducer : ∀ t ∈ s.turns, t.turnId = turnId → t.Created → t.runner.reducer.terminal = true →
      (f t).runner.reducer.terminal = true) : (s.modifyTurn turnId f).Attended := by
  -- a continuation belongs to a turn with a context
  have hexecuting : ∀ k, s.Object k → s.Executing k.sessionId k.turnId →
      (s.modifyTurn turnId f).Executing k.sessionId k.turnId := by
    rintro k hk ⟨t, ht, hp⟩
    obtain ⟨u, hu, hc⟩ := hs.objects k hk
    obtain rfl := hs.hasTurn_unique hu ht
    refine ⟨_, hasTurn_modifyTurn hf ht, ?_⟩
    split
    · next hid => exact hphase u ht.1 hid hc hp
    · exact hp
  refine h.keep rfl rfl (fun d hd k hk hc => ?_) (fun d hd k hk hu => ?_) fun sid k hk => ?_
  · exact hc.imp_right (And.imp_left (hexecuting k (Or.inr ⟨d, hd, hk⟩)))
  · refine hu.imp_right (And.imp_right fun hterm t' ht' => ?_)
    obtain ⟨u, hu, hc⟩ := hs.objects k (Or.inr ⟨d, hd, hk⟩)
    obtain ⟨t, ht, rfl | ⟨hid, rfl⟩⟩ := hasTurn_of_modifyTurn hf ht'
    · exact hterm t' ht
    · obtain rfl := hs.hasTurn_unique hu ht
      exact hreducer u ht.1 hid hc (hterm u ht)
  · exact (h.slots sid k hk).imp_right
      (Or.imp_left (hexecuting k (Or.inl (continuation?_mem hk).1)))

/-- Only the clock, sessions, queued calls, approvals or plain events changed. -/
theorem Attended.same (h : s.Attended) (hturns : s'.turns = s.turns)
    (hslots : s'.continuations = s.continuations) (hresolved : s'.resolved = s.resolved)
    (hsettled : s'.settled = s.settled) (hdeciding : s'.deciding = s.deciding)
    (hterminal : ∀ sid tid, s'.Terminal sid tid ↔ s.Terminal sid tid) : s'.Attended := by
  have hhas : ∀ sid tid t, s'.HasTurn sid tid t ↔ s.HasTurn sid tid t := fun sid tid t => by
    unfold HasTurn
    rw [hturns]
  have hexecuting : ∀ sid tid, s.Executing sid tid → s'.Executing sid tid :=
    fun sid tid ⟨t, ht, hp⟩ => ⟨t, (hhas sid tid t).mpr ht, hp⟩
  have hslot : ∀ sid, s'.continuation? sid = s.continuation? sid := fun sid => by
    unfold continuation?
    rw [hslots]
  refine h.keep hsettled hdeciding (fun d hd k hk hc => ?_) (fun d hd k hk hu => ?_) fun sid k hk => ?_
  · rw [Coming, hresolved, hslot]
    exact hc.imp_right (And.imp_left (hexecuting _ _))
  · refine hu.imp (fun hnot hterm => hnot ((hterminal _ _).mp hterm)) (And.imp_right fun hall t ht => ?_)
    exact hall t ((hhas _ _ t).mp ht)
  · rw [hslot] at hk
    rw [hresolved]
    exact (h.slots sid k hk).imp_right (Or.imp (hexecuting _ _) (hterminal _ _).mpr)

theorem Attended.registerRequired {a : PendingApproval} (h : s.Attended) :
    (s.registerRequired a).1.Attended := by
  unfold Server.registerRequired
  split
  · exact h
  · have hplain : ∀ b ∈ [SseBody.approvalRequired (some a.approvalId)], b.isTerminal = false := by
      simp [SseBody.isTerminal]
    exact h.same rfl rfl rfl rfl rfl fun sid tid =>
      @terminal_emitAll_plain sid tid { s with pending := s.pending ++ [a] } a.sessionId _ _ hplain

/-- The list of turns changed, but not the turns with a context. -/
theorem Attended.turns {turns : List Turn} {registry : SessionRegistry} (h : s.Attended) (hs : s.Sound)
    (hkeep : ∀ t ∈ s.turns, t.Created → t ∈ turns)
    (honly : ∀ t ∈ turns, t ∈ s.turns ∨ ∀ u ∈ s.turns, u.turnId ≠ t.turnId) :
    ({ s with registry, turns } : Server).Attended := by
  have hexecuting : ∀ k, s.Object k → s.Executing k.sessionId k.turnId →
      ({ s with registry, turns } : Server).Executing k.sessionId k.turnId := by
    rintro k hk ⟨t, ht, hp⟩
    obtain ⟨u, hu, hc⟩ := hs.objects k hk
    obtain rfl := hs.hasTurn_unique hu ht
    exact ⟨u, ⟨hkeep u ht.1 hc, ht.2⟩, hp⟩
  refine h.keep rfl rfl (fun d hd k hk hc => ?_) (fun d hd k hk hu => ?_) fun sid k hk => ?_
  · exact hc.imp_right (And.imp_left (hexecuting k (Or.inr ⟨d, hd, hk⟩)))
  · refine hu.imp_right (And.imp_right fun hterm t ht => ?_)
    rcases honly t ht.1 with hmem | hnew
    · exact hterm t ⟨hmem, ht.2⟩
    · obtain ⟨u, hu, _⟩ := hs.objects k (Or.inr ⟨d, hd, hk⟩)
      exact absurd (hu.2.2.trans ht.2.2.symm) (hnew u hu.1)
  · exact (h.slots sid k hk).imp_right
      (Or.imp_left (hexecuting k (Or.inl (continuation?_mem hk).1)))

theorem Attended.turnCreated {t : Turn} (h : s.Attended) (hs : s.Sound) (ht : t ∈ s.turns)
    (hphase : t.phase = .booting) (hundisturbed : s.Undisturbed (.turnCreated t.turnId)) :
    (s.turnCreated t).Attended := by
  have hids : ∀ u : Turn, ({ u with
      phase := .running
      deadline := s.now + turnDeadlineMs
      runner := { reducer := { hasStarted := true, events := [.turnStarted] } } } : Turn).sessionId =
        u.sessionId ∧ _ = u.turnId := fun _ => ⟨rfl, rfl⟩
  have hmodified := @Attended.modifyTurn _ t.turnId _ h hs hids (fun _ _ _ _ _ hp => nomatch hp)
    fun u hu hid hc _ => by
      obtain rfl := hs.turns.eq_of_mem hu ht hid
      exact absurd hc (hs.fresh u hu (Or.inr hphase))
  generalize hs₁ : (s.modifyTurn t.turnId fun u => { u with
      phase := .running
      deadline := s.now + turnDeadlineMs
      runner := { reducer := { hasStarted := true, events := [.turnStarted] } } }) = s₁ at hmodified
  have hself : s₁.Executing t.sessionId t.turnId := by
    subst hs₁
    refine ⟨_, hasTurn_modifyTurn hids ⟨ht, rfl, rfl⟩, ?_⟩
    rw [if_pos rfl]
    exact (nomatch ·)
  have hdeciding : s₁.deciding = s.deciding := by
    subst hs₁
    rfl
  have hresolved : s₁.resolved = s.resolved := by
    subst hs₁
    rfl
  -- the slot is the new turn's, and no decision waits for the old one
  have hslot : (s₁.setContinuation t.sessionId t.turnId).Attended := by
    refine hmodified.keep rfl rfl (fun d hd k hk hc => ?_) (fun _ _ _ _ => id) fun sid k hk => ?_
    · have hd : d ∈ s.deciding := hdeciding ▸ hd
      by_cases hsession : k.sessionId = t.sessionId
      · refine Or.inl ?_
        show k.ref ∈ s₁.resolved
        rw [hresolved]
        exact hundisturbed t (hs.turn?_eq ht) d hd k hk hsession
      · refine hc.imp_right fun ⟨he, hk⟩ => ⟨he, ?_⟩
        rw [continuation?_setContinuation, if_neg fun heq => hsession heq.symm]
        exact hk
    · rw [continuation?_setContinuation] at hk
      split at hk
      · obtain rfl := Option.some.inj hk
        exact Or.inr (Or.inl hself)
      · exact hmodified.slots sid k hk
  have hplain : ∀ b ∈ [SseBody.turnStarted], b.isTerminal = false := by simp [SseBody.isTerminal]
  unfold Server.turnCreated
  dsimp only
  rw [hs₁]
  refine hslot.same rfl rfl rfl rfl rfl fun sid tid => ?_
  exact @terminal_emitAll_plain sid tid (s₁.setContinuation t.sessionId t.turnId) t.sessionId t.turnId _ hplain

/-- What the slots hold after `execute`: the outcome of its turn, or what they held before. -/
theorem unwind_continuation (s : Server) (t : Turn) :
    (∀ ref ∈ s.resolved, ref ∈ (s.unwind t).resolved) ∧
      (∀ sid, sid ≠ t.sessionId ∨ (∀ outcome, t.phase ≠ .returned outcome) →
        (s.unwind t).continuation? sid = s.continuation? sid) ∧
      ((∃ outcome, t.phase = .returned outcome) →
        (∀ k, (s.unwind t).continuation? t.sessionId = some k → k.ref ∈ (s.unwind t).resolved) ∧
        ∀ k, s.continuation? t.sessionId = some k → k.turnId = t.turnId →
          k.ref ∈ (s.unwind t).resolved) := by
  rcases unwind_slots s t with ⟨⟨outcome, hphase⟩, hslots, hresolved⟩ | ⟨hphase, hslots, hresolved⟩
  · have hslot : ∀ sid, (s.unwind t).continuation? sid =
        (s.enqueueContinuation t.sessionId t.turnId).continuation? sid := fun sid => by
      rw [continuation?, hslots, continuation?]
    rcases @enqueueContinuation_cases s t.sessionId t.turnId with
      ⟨k₀, hk₀, hturn, heq⟩ | ⟨hne, heq⟩ <;> rw [heq] at hslot hresolved
    · rw [hresolved]
      refine ⟨fun ref hr => List.mem_append_left _ hr, fun sid _ => hslot sid, fun _ => ⟨fun k hk => ?_,
        fun k hk _ => ?_⟩⟩
      · rw [hslot] at hk
        obtain rfl := Option.some.inj (hk₀.symm.trans hk)
        exact List.mem_append_right _ List.mem_cons_self
      · obtain rfl := Option.some.inj (hk₀.symm.trans hk)
        exact List.mem_append_right _ List.mem_cons_self
    · have hset : ∀ sid, (s.unwind t).continuation? sid =
          (s.setContinuation t.sessionId t.turnId).continuation? sid := hslot
      rw [hresolved]
      refine ⟨fun ref hr => List.mem_append_left _ hr, fun sid hor => ?_, fun _ => ⟨fun k hk => ?_,
        fun k hk hid => absurd hid (hne k hk)⟩⟩
      · rw [hset, continuation?_setContinuation]
        exact if_neg fun h => hor.elim (fun hne => hne h.symm) fun hnot => hnot outcome hphase
      · rw [hset, continuation?_setContinuation, if_pos rfl] at hk
        obtain rfl := Option.some.inj hk
        exact List.mem_append_right _ List.mem_cons_self
  · refine ⟨fun ref hr => hresolved ▸ hr, fun sid _ => by rw [continuation?, hslots, continuation?],
      fun hreturned => hreturned.elim fun outcome ho => absurd ho (hphase outcome)⟩

theorem Attended.unwind {t : Turn} (h : s.Attended) (hs : s.Sound) (hrecords : s.Records)
    (ht : t ∈ s.turns) (hover : t.phase.isOver = true) (hmay : s.mayUnwind t = true) :
    (s.unwind t).Attended := by
  obtain ⟨s₁, heq, hhub, hclosing, hunwind⟩ := unwind_cases s t
  obtain ⟨hturns, _, hdeciding, _⟩ := unwind_frame s t
  obtain ⟨hresolved, hslot, hreturned⟩ := unwind_continuation s t
  have hids : ∀ u : Turn, ({ u with phase := .finished } : Turn).sessionId = u.sessionId ∧
      ({ u with phase := .finished } : Turn).turnId = u.turnId := fun _ => ⟨rfl, rfl⟩
  have hrest : (s.unwind t).hub = s₁.hub ∧ (s.unwind t).settled = s.settled := by
    rw [hunwind]
    unfold finally_
    dsimp only
    split <;> exact ⟨rfl, by rw [heq]; rfl⟩
  have hmono : ∀ sid tid, s.Terminal sid tid → (s.unwind t).Terminal sid tid := fun sid tid hterm => by
    rw [Terminal, hrest.1]
    exact hhub.terminal hterm
  have hterm : (s.unwind t).Terminal t.sessionId t.turnId ↔
      (∃ b ∈ s.closingBodies t, b.isTerminal = true) ∨ s.Terminal t.sessionId t.turnId := by
    rw [Terminal, hrest.1]
    exact hclosing.symm
  have hthrown : t.phase = .thrown → ∃ b ∈ s.closingBodies t, b.isTerminal = true := fun hp =>
    ⟨.turnFailed .runtimeUnavailable, by simp [closingBodies, hp], rfl⟩
  have hphase : (∃ outcome, t.phase = .returned outcome) ∨ t.phase = .thrown := by
    cases hp : t.phase with
    | returned outcome => exact Or.inl ⟨outcome, rfl⟩
    | thrown => exact Or.inr rfl
    | _ =>
      rw [hp] at hover
      cases hover
  have hexecuting : ∀ sid tid, s.Executing sid tid → (t.sessionId = sid ∧ t.turnId = tid) ∨
      (s.unwind t).Executing sid tid := by
    rintro sid tid ⟨u, hu, hp⟩
    by_cases hid : u.turnId = t.turnId
    · obtain rfl := hs.turns.eq_of_mem hu.1 ht hid
      exact Or.inl hu.2
    · refine Or.inr ⟨u, ?_, hp⟩
      have := @hasTurn_modifyTurn _ _ t.turnId _ _ hids _ hu
      rw [if_neg hid] at this
      unfold HasTurn
      rw [hturns]
      exact this
  have hreducer : ∀ sid tid u, (s.unwind t).HasTurn sid tid u → ∃ v, s.HasTurn sid tid v ∧
      v.runner = u.runner := by
    intro sid tid u hu
    unfold HasTurn at hu
    rw [hturns] at hu
    obtain ⟨v, hv, rfl | ⟨_, rfl⟩⟩ := hasTurn_of_modifyTurn hids hu
    · exact ⟨u, hv, rfl⟩
    · exact ⟨v, hv, rfl⟩
  -- the decision under way may be about this very turn
  have hown : ∀ d ∈ s.deciding, ∀ k, d.2.continuation = some k → k.turnId = t.turnId →
      k.sessionId = t.sessionId := fun d hd k hk hid => by
    obtain ⟨u, hu, _⟩ := hs.objects k (Or.inr ⟨d, hd, hk⟩)
    obtain rfl := hs.turns.eq_of_mem hu.1 ht (hu.2.2.trans hid)
    exact hu.2.1.symm
  have hmay : ∀ d ∈ s.deciding, ∀ k, d.2.continuation = some k → (if k.turnId = t.turnId then
      match d.2 with
      | .facade _ => (s.closingBodies t).all (!·.isTerminal)
      | _ => t.phase ≠ .thrown
      else k.sessionId ≠ t.sessionId || k.ref ∈ s.resolved || t.phase = .thrown) = true :=
    fun d hd k hk => by
      simp only [mayUnwind, Option.all_eq_true] at hmay
      exact hmay d hd k hk
  refine h.keep hrest.2 hdeciding (fun d hd k hk hc => ?_) (fun d hd k hk hu => ?_) fun sid k hk => ?_
  · rcases hc with hr | ⟨he, hkslot⟩
    · exact Or.inl (hresolved _ hr)
    have hallowed := hmay d hd k hk
    by_cases hid : k.turnId = t.turnId
    · rw [if_pos hid] at hallowed
      have hsession := hown d hd k hk hid
      rw [hsession] at hkslot
      rcases hphase with hret | hthr
      · exact Or.inl ((hreturned hret).2 k hkslot hid)
      · obtain ⟨b, hb, hbt⟩ := hthrown hthr
        cases hw : d.2 <;> simp only [hw] at hallowed
        · have := List.all_eq_true.mp hallowed b hb
          simp [hbt] at this
        · simp [hthr] at hallowed
        · simp [hthr] at hallowed
    · rw [if_neg hid] at hallowed
      simp only [Bool.or_eq_true, decide_eq_true_eq] at hallowed
      rcases hallowed with (hne | hr) | hthr
      · refine Or.inr ⟨(hexecuting _ _ he).resolve_left fun hself => hid hself.2.symm, ?_⟩
        rw [hslot _ (Or.inl hne)]
        exact hkslot
      · exact Or.inl (hresolved _ hr)
      · refine Or.inr ⟨(hexecuting _ _ he).resolve_left fun hself => hid hself.2.symm, ?_⟩
        rw [hslot _ (Or.inr fun outcome ho => by cases hthr.symm.trans ho)]
        exact hkslot
  · rcases hu with hnot | ⟨hw, hall⟩
    · by_cases hid : k.turnId = t.turnId
      · have hallowed := hmay d hd k hk
        rw [if_pos hid] at hallowed
        have hsession := hown d hd k hk hid
        cases hw : d.2 with
        | facade continuation =>
          rw [hw] at hallowed
          refine Or.inl fun hterm' => ?_
          rw [hsession, hid] at hterm' hnot
          obtain ⟨b, hb, hbt⟩ := (hterm.mp hterm').resolve_right hnot
          have := List.all_eq_true.mp hallowed b hb
          simp [hbt] at this
        | outcome k' =>
          rw [hw] at hallowed
          have hne : t.phase ≠ .thrown := by simpa using hallowed
          by_cases hterm' : (s.unwind t).Terminal k.sessionId k.turnId
          · -- its terminal event is one of its run
            refine Or.inr ⟨⟨k', rfl⟩, fun u hu => ?_⟩
            obtain ⟨v, hv, hrunner⟩ := hreducer _ _ u hu
            obtain rfl := hs.turns.eq_of_mem hv.1 ht (hv.2.2.trans hid)
            rw [← hrunner]
            rw [hsession, hid] at hterm' hnot
            obtain ⟨b, hb, hbt⟩ := (hterm.mp hterm').resolve_right hnot
            obtain ⟨outcome, ho⟩ := hphase.resolve_right hne
            simp only [closingBodies, ho, projected] at hb
            split at hb
            · cases hb
            · obtain ⟨e, he, rfl⟩ := List.mem_map.mp hb
              rw [isTerminal_projectLifecycle] at hbt
              rw [(hrecords.turns v ht).reducer.terminal]
              exact List.any_eq_true.mpr
                ⟨e, (List.drop_sublist 1 _).subset (List.mem_filter.mp he).1, hbt⟩
          · exact Or.inl hterm'
        | prompt k' n =>
          -- the turn of a resumed prompt had ended before
          rw [hw] at hk
          obtain rfl := Option.some.inj hk
          obtain ⟨c, w⟩ := d
          obtain rfl : w = _ := hw
          have hdone := hs.done k' (hs.decidingObject hd rfl).1 (hs.prompt c k' n hd)
          obtain ⟨u, hu, _⟩ := hs.objects k' (hs.decidingObject hd rfl).1
          obtain rfl := hs.turns.eq_of_mem hu.1 ht (hu.2.2.trans hid)
          rw [hdone u hu] at hover
          cases hover
      · refine Or.inl fun hterm' => hnot ?_
        rw [Terminal, hrest.1] at hterm'
        exact terminal_of_publishes hhub (fun hself => hid hself.2.symm) hterm'
    · refine Or.inr ⟨hw, fun u hu => ?_⟩
      obtain ⟨v, hv, hrunner⟩ := hreducer _ _ u hu
      rw [← hrunner]
      exact hall v hv
  · by_cases hor : sid ≠ t.sessionId ∨ ∀ outcome, t.phase ≠ .returned outcome
    · rw [hslot sid hor] at hk
      rcases h.slots sid k hk with hr | he | hdone
      · exact Or.inl (hresolved _ hr)
      · rcases hexecuting _ _ he with hself | he
        · refine Or.inr (Or.inr ?_)
          rw [← hself.1, ← hself.2]
          have hsession : sid = t.sessionId := (continuation?_mem hk).2.symm.trans hself.1.symm
          have hthr := hphase.resolve_left fun hreturned =>
            hor.elim (fun hne => hne hsession) fun hnot => hreturned.elim hnot
          exact hterm.mpr (Or.inl (hthrown hthr))
        · exact Or.inr (Or.inl he)
      · exact Or.inr (Or.inr (hmono _ _ hdone))
    · push Not at hor
      obtain ⟨rfl, outcome, ho⟩ := hor
      exact Or.inl ((hreturned ⟨outcome, ho⟩).1 k hk)

theorem Attended.cancels (h : s.Attended) (hs : s.Sound)
    (hother : s.activeTurn? sessionId = some ⟨sessionId, turnId⟩ →
      ∀ d ∈ s.deciding, ∀ k ∈ d.2.continuation, k.turnId ≠ turnId)
    (hc : Cancels s sessionId turnId s') : s'.Attended := by
  cases hc with
  | nothing _ hsame hdeciding _ hsettled hhub =>
    exact h.same hsame.turns hsame.continuations hsame.resolved hsettled hdeciding fun _ _ => by
      rw [Terminal, Terminal, hhub]
  | cancelled s₀ s₁ hsame hdeciding _ hsettled hhub _ hactive hs₁ =>
    have h₀ : s₀.Attended := h.same hsame.turns hsame.continuations hsame.resolved hsettled hdeciding
      fun _ _ => by rw [Terminal, Terminal, hhub]
    have hmodified : (s₀.modifyTurn turnId ({ · with cancelled := true })).Attended :=
      h₀.modifyTurn (.of_same hs hsame hdeciding) (fun _ => ⟨rfl, rfl⟩) (fun _ _ _ _ => id) fun _ _ _ _ => id
    have hwaits : ∀ d ∈ (s₀.modifyTurn turnId ({ · with cancelled := true })).deciding,
        ∀ k ∈ d.2.continuation, k.turnId ≠ turnId := fun d hd => by
      have hd : d ∈ s₀.deciding := hd
      exact hother hactive d (hdeciding ▸ hd)
    subst hs₁
    generalize s₀.modifyTurn turnId ({ · with cancelled := true }) = s₂ at hmodified hwaits
    have hpublishes : s₂.hub.Publishes (s₂.hub.emitAll sessionId turnId [.turnCompleted .cancelled]).1
      sessionId turnId 0 := .emitAll s₂.hub _
    refine hmodified.keep rfl rfl (fun _ _ _ _ => id) (fun d hd k hk hu => ?_) fun sid k hk => ?_
    · exact hu.imp_left fun hnot hterm =>
        hnot (terminal_of_publishes hpublishes (fun hids => hwaits d hd k hk hids.2.symm) hterm)
    · exact (hmodified.slots sid k hk).imp_right (Or.imp_right hpublishes.terminal)

/-- The end of a dispatch throws for a turn that had ended before. -/
theorem Finishes.attended {bodies : Option (List SseBody)} (hfinish : Finishes s c k bodies s')
    (h : s.Attended) (hnot : bodies = some [] ∨ ¬s.Terminal k.sessionId k.turnId)
    (hlast : ∀ b ∈ (bodies.getD []).dropLast, b.isTerminal = false) : s'.Attended := by
  have hsame := hfinish.same.1
  have hhub := hfinish.publishes
  refine h.over hfinish.same.2 (fun x hx => ?_) (h.slots_of_maps hsame fun _ _ => hhub.terminal)
  cases hfinish with
  | released s₁ _ _ hsettled =>
    have hx : x ∈ s₁.settled ++ [(c, .decided .approve)] := hx
    rcases List.mem_append.mp hx with hx | hx
    · exact Or.inl (hsettled ▸ hx)
    · obtain rfl := List.mem_singleton.mp hx
      exact Or.inr (by simp)
  | threw s₁ _ _ _ _ _ _ hbefore hnonempty =>
    rcases hnot with hnil | hnot
    · exact absurd hnil hnonempty
    · exact absurd (hbefore hlast) hnot

/-- What the passed checks and the permission say of the turn that the decision is about. -/
theorem MayDecide.open_ {a : PendingApproval} {continuation : Option Continuation}
    (hmay : s.MayDecide c) (hchecked : s.Checked c a continuation) (hundecided : a.decision = none)
    (hk : k ∈ continuation) : ¬s.Terminal k.sessionId k.turnId := by
  have ha := List.mem_of_find?_eq_some hchecked.found
  have hid : a.approvalId = c.approvalId := by simpa using List.find?_some hchecked.found
  have hslot : s.continuation? a.sessionId = some k := by
    rw [hchecked.session, hchecked.slot]
    exact hk
  have hmatches : s.slotMatches a = true := by
    simp only [slotMatches, hslot, Option.all_some, Option.all_eq_true]
    exact fun t ht => hchecked.matches_ k hk t ht
  have hopen := (hmay a ha hid hchecked.session hchecked.principal hchecked.scope
    hchecked.unexpired).1 hundecided hmatches
  simpa [slotTerminal, hslot, Terminal] using hopen

theorem Attended.decides (h : s.Attended) (hs : s.Sound) (hmay : s.MayDecide c)
    (hd : Decides s c s') : s'.Attended := by
  have hsettle : ∀ settlement, settlement ≠ .threw → (s.settle c settlement).Attended := by
    intro settlement hne
    refine h.over rfl (fun x hx => ?_) h.slots
    exact (List.mem_append.mp hx).imp_right fun hx => by
      obtain rfl := List.mem_singleton.mp hx
      exact hne
  cases hd with
  | refused | same => exact hsettle _ (by simp)
  | invokes a continuation hchecked hundecided =>
    obtain ⟨k, t, rfl, hks, ht, _⟩ := hchecked.continuation hs
    have hslot : s.continuation? k.sessionId = some k := hks ▸ hchecked.slot
    have hopen := hmay.open_ hchecked hundecided rfl
    refine ⟨h.settled, fun d hd => ?_, h.slots⟩
    obtain rfl := Option.some.inj hd
    refine ⟨k, rfl, ?_, Or.inl hopen⟩
    rcases h.slots _ k hslot with hr | he | hterm
    · exact Or.inl hr
    · exact Or.inr ⟨he, hslot⟩
    · exact absurd hterm hopen
  | denies a continuation s₁ accepted hchecked hundecided _ hpublish =>
    obtain ⟨k, t, rfl, hks, ht, _⟩ := hchecked.continuation hs
    have hopen := hmay.open_ hchecked hundecided rfl
    rw [hks] at hopen
    have haccepted : (s.hub.emitAll c.sessionId k.turnId
        [.approvalResolved .deny, .turnCompleted .completed]).2 = true :=
      SseHub.emitAll_accepted (by simpa [Terminal] using hopen) (by simp [SseBody.isTerminal])
    have hpublishes : s.hub.Publishes (s.hub.emitAll c.sessionId k.turnId
        [.approvalResolved .deny, .turnCompleted .completed]).1 c.sessionId k.turnId 0 :=
      .emitAll s.hub _
    obtain rfl : accepted = true := (congrArg Prod.snd hpublish).symm.trans haccepted
    obtain rfl : ((s.decideApproval c.approvalId .deny).emitAll c.sessionId k.turnId
      [.approvalResolved .deny, .turnCompleted .completed]).1 = s₁ := congrArg Prod.fst hpublish
    refine h.over rfl (fun x hx => ?_) fun sid k hk =>
      (h.slots sid k hk).imp_right (Or.imp_right hpublishes.terminal)
    exact (List.mem_append.mp hx).imp_right fun hx => by
      obtain rfl := List.mem_singleton.mp hx
      exact (fun h => by cases h)

theorem Attended.answers {continuation : Option Continuation} {ok : Bool} (h : s.Attended)
    (hs : s.Sound) (hdeciding : s.deciding = some (c, .facade continuation))
    (hanswers : Answers s c continuation ok s') : s'.Attended := by
  obtain ⟨k, hk, hcoming, hundone⟩ := h.waiting _ hdeciding
  obtain rfl : continuation = some k := hk
  have hopen : ¬s.Terminal k.sessionId k.turnId := by
    refine hundone.resolve_right ?_
    rintro ⟨⟨_, hw⟩, _⟩
    cases hw
  have hcaller := (hs.decidingObject hdeciding rfl).2
  -- the event is not terminal, so the turn is still open
  have happroved := fun d => approves s c k d s.settled
  have hpublished : ∀ s₁ accepted, (s.approve c).emitAll c.sessionId k.turnId
      [.approvalResolved .approve] = (s₁, accepted) →
        accepted = true ∧ s₁ = ((s.approve c).emitAll c.sessionId k.turnId
          [.approvalResolved .approve]).1 := by
    intro s₁ accepted hpublish
    have haccepted : (s.hub.emitAll c.sessionId k.turnId [.approvalResolved .approve]).2 = true :=
      SseHub.emitAll_accepted (by rw [← hcaller]; simpa [Terminal] using hopen) (by simp)
    exact ⟨(congrArg Prod.snd hpublish).symm.trans haccepted, (congrArg Prod.fst hpublish).symm⟩
  have hslots : ∀ sid k', s.continuation? sid = some k' → k'.ref ∈ s.resolved ∨
      s.Executing k'.sessionId k'.turnId ∨ ((s.approve c).emitAll c.sessionId k.turnId
        [.approvalResolved .approve]).1.Terminal k'.sessionId k'.turnId :=
    fun sid k' hk' => (h.slots sid k' hk').imp_right
      (Or.imp_right ((happroved none).terminal _ _).mpr)
  have hsettled : ∀ x ∈ s.settled ++ [(c, Settlement.decided .approve)],
      x ∈ s.settled ∨ x.2 ≠ .threw := fun x hx =>
    (List.mem_append.mp hx).imp_right fun hx => by
      obtain rfl := List.mem_singleton.mp hx
      exact (fun h => by cases h)
  cases hanswers with
  | refused =>
    refine h.over rfl (fun x hx => ?_) h.slots
    exact (List.mem_append.mp hx).imp_right fun hx => by
      obtain rfl := List.mem_singleton.mp hx
      exact (fun h => by cases h)
  | threw s₁ hpublish => cases (hpublished s₁ _ hpublish).1
  | kept s₁ hpublish =>
    obtain ⟨_, rfl⟩ := hpublished s₁ _ hpublish
    exact h.over rfl hsettled hslots
  | dispatched s₁ _ k' a hpublish hcontinuation _ _ hdispatch =>
    obtain rfl := Option.some.inj hcontinuation
    obtain ⟨_, rfl⟩ := hpublished s₁ _ hpublish
    cases hdispatch with
    | skipped => exact h.over rfl hsettled hslots
    | failed _ _ hfinish =>
      have happ : ((s.approve c).emitAll c.sessionId k.turnId [.approvalResolved .approve]).1.Attended :=
        h.same rfl rfl rfl rfl rfl (happroved s.deciding).terminal
      exact hfinish.attended happ
        (Or.inr fun hterm => hopen (((happroved s.deciding).terminal _ _).mp hterm)) (by simp)
    | waits =>
      refine ⟨h.settled, fun d hd => ?_, hslots⟩
      obtain rfl := Option.some.inj hd
      exact ⟨k, rfl, hcoming, Or.inl fun hterm => hopen (((happroved none).terminal _ _).mp hterm)⟩

theorem Attended.resumes (h : s.Attended) (hs : s.Sound) (hrecords : s.Records)
    (hdeciding : s.deciding = some (c, .outcome k)) (hresolved : k.ref ∈ s.resolved)
    (hr : Resumes s c k s') : s'.Attended := by
  obtain ⟨u, hu, hcreated⟩ := hs.objects k (hs.decidingObject hdeciding rfl).1
  obtain ⟨k', hk', _, hundone⟩ := h.waiting _ hdeciding
  obtain rfl : k = k' := Option.some.inj hk'
  cases hr with
  | gone _ hgone _ =>
    rw [← hu.2.2, hs.turn?_eq hu.1] at hgone
    exact nomatch hgone
  | ended _ t ht hstate hfinish => exact hfinish.attended h (Or.inl rfl) (by simp)
  | prompts t ht hstate =>
    obtain ⟨hmem, hid⟩ := turn?_mem ht
    obtain rfl := hs.turns.eq_of_mem hu.1 hmem (hu.2.2.trans hid.symm)
    -- a run that goes on has not closed
    have hopen : ¬s.Terminal k.sessionId k.turnId := by
      refine hundone.resolve_right fun ⟨_, hall⟩ => ?_
      exact ((hrecords.turns u hmem).plain hcreated).1.2.mp (hall u hu) hstate
    have hmodified : (s.modifyTurn k.turnId fun t => { t with
        runner.awaitingApproval := false }).Attended :=
      h.modifyTurn hs (fun _ => ⟨rfl, rfl⟩) (fun _ _ _ _ => id) fun _ _ _ _ => id
    refine ⟨hmodified.settled, fun d hd => ?_, hmodified.slots⟩
    obtain rfl := Option.some.inj hd
    exact ⟨k, rfl, Or.inl hresolved, Or.inl hopen⟩

theorem Attended.ends {n : Nat} {prompt : PromptEnd} (h : s.Attended) (hs : s.Sound)
    (hrecords : s.Records) (hdeciding : s.deciding = some (c, .prompt k n))
    (he : Ends s c k n prompt s') : s'.Attended := by
  obtain ⟨u, hu, hcreated⟩ := hs.objects k (hs.decidingObject hdeciding rfl).1
  obtain ⟨k', hk', _, hundone⟩ := h.waiting _ hdeciding
  obtain rfl : k = k' := Option.some.inj hk'
  have hopen : ¬s.Terminal k.sessionId k.turnId :=
    hundone.resolve_right fun ⟨⟨_, hw⟩, _⟩ => nomatch hw
  cases he with
  | threw hfinish => exact hfinish.attended h (Or.inr hopen) (by simp)
  | ended t runner outcome ht hrunner hfinish =>
    obtain ⟨hmem, hid⟩ := turn?_mem ht
    obtain rfl := hs.turns.eq_of_mem hu.1 hmem (hu.2.2.trans hid.symm)
    obtain ⟨hsound, hevents, _⟩ := (hrecords.turns u hmem).finished_runner hcreated hrunner
    have hmodified : (s.modifyTurn k.turnId ({ · with runner })).Attended := by
      refine h.modifyTurn hs (fun _ => ⟨rfl, rfl⟩) (fun _ _ _ _ => id) fun v hv hvid _ hterm => ?_
      obtain rfl := hs.turns.eq_of_mem hv hmem (hvid.trans hid.symm)
      show runner.reducer.terminal = true
      rw [(hrecords.turns v hv).reducer.terminal] at hterm
      rw [hsound.reducer.terminal, hevents, List.any_append, hterm, Bool.true_or]
    refine hfinish.attended hmodified (Or.inr hopen) fun b hb => ?_
    rw [Option.getD_some, ← List.map_dropLast] at hb
    obtain ⟨e, he, rfl⟩ := List.mem_map.mp hb
    rw [isTerminal_projectLifecycle]
    exact hsound.reducer.last e (mem_dropLast_of_mem_drop he)

theorem Attended.step {a : Action} (h : s.Attended) (hs : s.Sound) (hrecords : s.Records)
    (hundisturbed : s.Undisturbed a) (hstep : Takes s a s') : s'.Attended := by
  cases hstep with
  | tick | touch | closeSession | refused | queueDecide =>
    exact h.same rfl rfl rfl rfl rfl fun _ _ => Iff.rfl
  | @createSession sessionId _ _ registry =>
    have hplain : ∀ b ∈ [SseBody.sessionStarted], b.isTerminal = false := by simp [SseBody.isTerminal]
    exact h.same rfl rfl rfl rfl rfl fun sid tid =>
      @terminal_emitAll_plain sid tid { s with registry } sessionId "session" _ hplain
  | reserved sessionId turnId registry _ hnew =>
    simp only [newTurnId, Bool.and_eq_true, List.all_eq_true, decide_eq_true_eq] at hnew
    refine h.turns hs (fun t ht _ => List.mem_append_left _ ht) fun t ht => ?_
    refine (List.mem_append.mp ht).imp_right fun ht => ?_
    obtain rfl := List.mem_singleton.mp ht
    exact hnew.1.1
  | rejectMessage t ht hphase =>
    refine h.turns hs (fun u hu hc => List.mem_filter.mpr ⟨hu, ?_⟩) fun u hu =>
      Or.inl (List.mem_filter.mp hu).1
    simp only [decide_eq_true_eq]
    intro hid
    obtain rfl := hs.turns.eq_of_mem hu ht hid
    exact hs.fresh u hu (Or.inl hphase) hc
  | gone t ht hphase =>
    refine h.modifyTurn hs (fun _ => ⟨rfl, rfl⟩) (fun u hu hid hc => ?_) fun _ _ _ _ => id
    obtain rfl := hs.turns.eq_of_mem hu ht hid
    exact absurd hc (hs.fresh u hu (Or.inl hphase))
  | start | bootFails | threw =>
    exact h.modifyTurn hs (fun _ => ⟨rfl, rfl⟩) (fun _ _ _ _ _ hp => by cases hp) fun _ _ _ _ => id
  | turnCreated t ht hphase => exact h.turnCreated hs ht hphase hundisturbed
  | registerRefresh | refreshResult | finalizeResult =>
    exact h.modifyTurn hs (fun _ => ⟨rfl, rfl⟩) (fun _ _ _ _ => id) fun _ _ _ _ => id
  | approvalRequired t approvalId expiresAtMs refresh =>
    have hmodified : (s.modifyTurn t.turnId ({ · with runner.awaitingApproval := true })).Attended :=
      h.modifyTurn hs (fun _ => ⟨rfl, rfl⟩) (fun _ _ _ _ => id) fun _ _ _ _ => id
    exact hmodified.registerRequired
  | observed _ t event reducer ht _ _ hreducer =>
    refine h.modifyTurn hs (fun _ => ⟨rfl, rfl⟩) (fun _ _ _ _ => id) fun u hu hid _ hterm => ?_
    obtain rfl := hs.turns.eq_of_mem hu ht hid
    -- a run that has closed accepts no event
    obtain ⟨_, hr, _⟩ := Option.map_eq_some_iff.mp hreducer
    rw [(LifecycleReducer.apply_spec hr).1] at hterm
    cases hterm
  | returned t _ _ _ ht hphase =>
    refine h.modifyTurn hs (fun _ => ⟨rfl, rfl⟩) (fun _ _ _ _ _ hp => by cases hp) fun u hu hid _ hterm => ?_
    obtain rfl := hs.turns.eq_of_mem hu ht hid
    rw [(hrecords.turns u hu).running hphase] at hterm
    cases hterm
  | unwind t ht hover => exact h.unwind hs hrecords ht hover (hundisturbed t (hs.turn?_eq ht))
  | cancel _ _ _ hc => exact h.cancels hs hundisturbed hc
  | decide c queue _ _ hqueue hd =>
    have h' : ({ s with decideQueue := queue } : Server).Attended :=
      h.same rfl rfl rfl rfl rfl fun _ _ => Iff.rfl
    have hmay : s.MayDecide c := hundisturbed c (by rw [hqueue]; rfl)
    exact h'.decides (hs.congr rfl rfl rfl rfl rfl rfl rfl) hmay hd
  | facadeReturns ok c continuation _ hdeciding hanswers => exact h.answers hs hdeciding hanswers
  | outcomeReady c k _ hdeciding hresolved hr => exact h.resumes hs hrecords hdeciding hresolved hr
  | resumed prompt c k n _ hdeciding he => exact h.ends hs hrecords hdeciding he

theorem Attended.answered (h : s.Attended) : s.Answered where
  settled := h.settled
  waiting c k hdeciding hfinished := by
    obtain ⟨k', hk', hcoming, _⟩ := h.waiting _ hdeciding
    obtain rfl : k = k' := Option.some.inj hk'
    exact hcoming.resolve_right fun ⟨⟨t, ht, hp⟩, _⟩ => hp (hfinished t ht)

/-! ## What a single decision does -/

/-- Only `#decide` asks the facade. -/
theorem decides_of_asks {a : Action} {continuation : Option Continuation} (hnone : s.deciding = none)
    (hd : s'.deciding = some (c, .facade continuation)) (hstep : Takes s a s') :
    a = .decide ∧ ∃ c' queue, s.decideQueue = c' :: queue ∧
      Decides { s with decideQueue := queue } c' s' := by
  cases hstep with
  | decide c' queue _ _ hqueue hdecides => exact ⟨rfl, c', queue, hqueue, hdecides⟩
  | facadeReturns _ _ _ _ hdeciding | outcomeReady _ _ _ hdeciding | resumed _ _ _ _ _ hdeciding =>
    exact nomatch hnone.symm.trans hdeciding
  | unwind t =>
    rw [(unwind_frame s t).2.2.1, hnone] at hd
    exact nomatch hd
  | approvalRequired t =>
    unfold registerRequired at hd
    split at hd <;> exact nomatch hnone.symm.trans hd
  | cancel _ _ _ hc =>
    cases hc with
    | nothing _ _ hdeciding =>
      rw [hdeciding, hnone] at hd
      exact nomatch hd
    | cancelled s₀ s₁ _ hdeciding _ _ _ _ _ hs₁ =>
      subst hs₁
      have hd : s₀.deciding = _ := hd
      rw [hdeciding, hnone] at hd
      exact nomatch hd
  | _ => exact nomatch hnone.symm.trans hd

theorem invokesOpen {a : Action} (hs : s.Sound) (hundisturbed : s.Undisturbed a)
    (hstep : Takes s a s') : s.InvokesOpen s' := by
  intro c continuation hnone hd b hb hbid t ht hmatch
  obtain ⟨rfl, c', queue, hqueue, hdecides⟩ := decides_of_asks hnone hd hstep
  have hmay : s.MayDecide c' := hundisturbed c' (by rw [hqueue]; rfl)
  have hs' : ({ s with decideQueue := queue } : Server).Sound := hs.congr rfl rfl rfl rfl rfl rfl rfl
  cases hdecides with
  | refused | same => exact nomatch hd
  | denies _ _ s₁ accepted =>
    cases accepted <;> exact nomatch hd
  | invokes a continuation hchecked hundecided =>
    obtain ⟨rfl, _⟩ := Prod.mk.inj (Option.some.inj hd)
    obtain ⟨k, u, rfl, _, hu, hmatch'⟩ := hchecked.continuation hs'
    -- the continuation's turn is the one that asked for the approval
    have hid : a.approvalId = c'.approvalId := by simpa using List.find?_some hchecked.found
    obtain rfl := hs.approvals.eq_of_mem hb (List.mem_of_find?_eq_some hchecked.found)
      (hbid.trans hid.symm)
    obtain rfl := hs.owner_unique ht hu.1 hmatch hmatch'
    have hmay : ({ s with decideQueue := queue } : Server).MayDecide c' := hmay
    have hopen := hmay.open_ hchecked hundecided rfl
    rw [← hu.2.1, ← hu.2.2] at hopen
    exact hopen

/-- The checks up to the expiry. -/
theorem refused_expired {a : PendingApproval} {reason : DecisionFailure}
    (hfound : s.pending.find? (·.approvalId = c.approvalId) = some a) (hsession : a.sessionId = c.sessionId)
    (hclock : ¬s.clock < a.expiresAtMs) (hcheck : s.check c = .error reason) : reason = .expired := by
  unfold check at hcheck
  rw [hfound] at hcheck
  rcases bind_error hcheck with h | ⟨_, hok, h⟩
  · exact nomatch h
  obtain rfl := Except.ok.inj hok
  rcases bind_error h with h | ⟨_, _, h⟩
  · exact absurd hsession (require_error h).1
  rcases bind_error h with h | ⟨_, hlt, _⟩
  · exact (require_error h).2.symm
  · exact absurd (require_ok.mp hlt) hclock

/-- The checks up to the replay. -/
theorem refused_opposite {a : PendingApproval} {reason : DecisionFailure}
    (hfound : s.pending.find? (·.approvalId = c.approvalId) = some a) (hsession : a.sessionId = c.sessionId)
    (hclock : s.clock < a.expiresAtMs) (hscope : a.capabilityScopeId = c.scopeId)
    (hprincipal : a.principal = c.principal) (hpolicy : a.policyVersion = testPolicyVersion)
    (hmatches : s.slotMatches a = true) (hopposite : ∃ d ∈ a.decision, d ≠ c.decision)
    (hcheck : s.check c = .error reason) : reason = .replayOpposite := by
  have hturn : ∀ t ∈ (s.continuation? c.sessionId).bind fun k => s.turn? k.turnId,
      refreshMatches t a = true := by
    intro t ht
    obtain ⟨k, hk, ht⟩ := Option.bind_eq_some_iff.mp ht
    simp only [slotMatches, Option.all_eq_true] at hmatches
    exact hmatches k (hsession ▸ hk) t ht
  unfold check at hcheck
  rw [hfound] at hcheck
  rcases bind_error hcheck with h | ⟨_, hok, h⟩
  · exact nomatch h
  obtain rfl := Except.ok.inj hok
  rcases bind_error h with h | ⟨_, _, h⟩
  · exact absurd hsession (require_error h).1
  rcases bind_error h with h | ⟨_, _, h⟩
  · exact absurd hclock (require_error h).1
  rcases bind_error h with h | ⟨_, _, h⟩
  · exact absurd hscope (require_error h).1
  rcases bind_error h with h | ⟨_, _, h⟩
  · exact absurd hprincipal (require_error h).1
  rcases bind_error h with h | ⟨_, _, h⟩
  · exact absurd hpolicy (require_error h).1
  rcases bind_error h with h | ⟨_, _, h⟩
  · exact absurd hturn (require_error h).1
  rcases bind_error h with h | ⟨_, hsame, _⟩
  · exact (require_error h).2.symm
  · obtain ⟨d, hd, hne⟩ := hopposite
    exact absurd (require_ok.mp hsame d hd) hne

theorem proper {a : PendingApproval} {queue : List DecideCall} (hs : s.Sound) (hpolicy : s.OnePolicy)
    (hmay : s.MayDecide c) (ha : a ∈ s.pending) (hid : a.approvalId = c.approvalId)
    (hd : Decides { s with decideQueue := queue } c s') : s.Proper s' c a := by
  have hfound : s.pending.find? (·.approvalId = c.approvalId) = some a :=
    hs.approvals.find?_eq_some.mpr ⟨ha, hid⟩
  have hpassed : ∀ b continuation, ({ s with decideQueue := queue } : Server).Checked c b continuation →
      b = a := fun b continuation hchecked => Option.some.inj (hchecked.found.symm.trans hfound)
  constructor
  · intro hother
    have hnot : ∀ b continuation,
        ¬({ s with decideQueue := queue } : Server).Checked c b continuation := by
      intro b continuation hchecked
      obtain rfl := hpassed b continuation hchecked
      exact hother.elim (· hchecked.principal) (· hchecked.scope)
    cases hd with
    | refused => exact ⟨rfl, rfl⟩
    | same b continuation hchecked | invokes b continuation hchecked
    | denies b continuation _ _ hchecked => exact absurd hchecked (hnot b continuation)
  · rintro hsession hprincipal hscope ⟨d, hd', hne⟩
    have hnot : ∀ b continuation,
        ¬({ s with decideQueue := queue } : Server).Checked c b continuation := by
      intro b continuation hchecked
      obtain rfl := hpassed b continuation hchecked
      exact hne (hchecked.decision d hd')
    cases hd with
    | refused reason hcheck =>
      have hrefused : reason = .replayOpposite ∨ reason = .expired := by
        by_cases hclock : s.clock < a.expiresAtMs
        · exact Or.inl (refused_opposite hfound hsession hclock hscope hprincipal (hpolicy a ha)
            ((hmay a ha hid hsession hprincipal hscope hclock).2 ⟨d, hd', hne⟩) ⟨d, hd', hne⟩ hcheck)
        · exact Or.inr (refused_expired hfound hsession hclock hcheck)
      rcases hrefused with rfl | rfl
      · exact Or.inl rfl
      · exact Or.inr rfl
    | same b continuation hchecked | invokes b continuation hchecked
    | denies b continuation _ _ hchecked => exact absurd hchecked (hnot b continuation)

end Server

theorem Run.attended {origin : Nat} {s : Server} (h : Run Server.Undisturbed origin s) :
    s.Attended := by
  refine Reached.invariant_of (I := fun s => s.Sound ∧ s.Records) (J := Server.Attended)
    (fun _ hr => ⟨Run.sound hr, Run.records hr⟩) ?_ ?_ h
  · exact ⟨(fun _ hx => nomatch hx), (fun _ hd => nomatch hd), fun _ _ hk => nomatch hk⟩
  · exact fun s a t ⟨hs, hrecords⟩ hattended hundisturbed hstep =>
      hattended.step hs hrecords hundisturbed (Server.step_takes hstep)

/-- That an approval is approved once at most, and never after it was denied, needs no condition. -/
theorem Run.approvedOnce {permits : Server → Action → Prop} {origin : Nat} {s : Server}
    (h : Run permits origin s) : s.ApprovedOnce ∧ s.OnePolicy := by
  have hboth : s.Invoking ∧ s.ApprovedOnce ∧ s.OnePolicy := by
    refine Reached.invariant_of (I := Server.Sound)
      (J := fun s => s.Invoking ∧ s.ApprovedOnce ∧ s.OnePolicy) (fun _ => Run.sound) ?_ ?_ h
    · exact ⟨.of_none rfl, ⟨List.nodup_nil, fun _ hid => nomatch hid⟩, fun _ ha => nomatch ha⟩
    · intro s a t hs ⟨hinvoking, honce, hpolicy⟩ _ hstep
      have htakes := Server.step_takes hstep
      exact ⟨hinvoking.step hs htakes, honce.step hs hinvoking htakes, hpolicy.step htakes⟩
  exact hboth.2

/-- In a run that disturbs no decision every decision keeps what the coordinator promises. -/
theorem decisions_decided {origin : Nat} {s : Server} (h : Run Server.Undisturbed origin s) :
    s.Decided Server.Undisturbed where
  answered := h.attended.answered
  approvedOnce := (Run.approvedOnce h).1
  invokes _ _ hundisturbed hstep :=
    Server.invokesOpen (Run.sound h) hundisturbed (Server.step_takes hstep)
  proper c queue s' hqueue hundisturbed hstep a ha hid := by
    have hmay : s.MayDecide c := hundisturbed c (by rw [hqueue]; rfl)
    cases Server.step_takes hstep with
    | observed _ _ _ _ _ _ _ _ htool => rcases htool with ⟨_, heq⟩ | ⟨_, _, heq⟩ <;> exact nomatch heq
    | decide c' queue' _ _ hqueue' hd =>
      obtain ⟨rfl, rfl⟩ := List.cons.inj (hqueue.symm.trans hqueue')
      exact Server.proper (Run.sound h) (Run.approvedOnce h).2 hmay ha hid hd

theorem decisions_decided_approvedRun :
    ∃ s, replay Server.step {} approvedRun = some s ∧ s.Decided Server.Undisturbed := by
  have hrun : (replay Server.step {} approvedRun).isSome = true ∧
      Permitted Server.step Server.Undisturbed {} approvedRun := by decide
  obtain ⟨s, hs⟩ := Option.isSome_iff_exists.mp hrun.1
  have hreached : Run Server.Undisturbed 0 s := Reached.start.replay hrun.2 hs
  exact ⟨s, hs, decisions_decided hreached⟩

/-- Turn `a` waits for its approval and is cancelled, and then the approval is given. -/
def lateApprovalRun : List Action :=
  [.createSession "s" "analyst" "scope", .message "s" "a", .start "a", .turnCreated "a",
    .registerRefresh "a" ⟨"refresh", "fingerprint"⟩, .approvalRequired "a" "approval" 60000,
    .returns "a" .returned, .unwind "a", .cancel "s" "a",
    .queueDecide ⟨"s", "approval", .approve, "analyst", "scope"⟩, .decide, .facadeReturns true]

/-- The facade approves for the cancelled turn, and the decision throws. -/
theorem not_decided : ¬∀ origin s, Run Anything origin s → s.Decided Anything := by
  intro h
  have hrun : (replay Server.step {} lateApprovalRun).any (fun s =>
      s.settled.any (·.2 = .threw)) = true := by decide
  obtain ⟨s, hs, hthrew⟩ := Option.any_eq_true _ _ |>.mp hrun
  simp only [List.any_eq_true, decide_eq_true_eq] at hthrew
  obtain ⟨x, hx, hthrew⟩ := hthrew
  have hreached : Run Anything 0 s := Reached.start.replay (permitted_anything _ _) hs
  exact (h 0 s hreached).answered.settled x hx hthrew

end NanFung.Runtime
