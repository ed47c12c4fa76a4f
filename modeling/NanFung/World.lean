import NanFung.Spec.Refresh

/-!
# Histories

An operational store under any number of workers and operators: the calls of the store's methods in
any order, each with any clock readings. A call's result is part of the history, so that the handles
somebody may hold, current or stale, are those some earlier call returned. `Reachable` is a history
from the empty store; every reachable store satisfies the invariant, and every handle ever returned
is still valid.
-/

namespace NanFung

open Table

/-! ## Calls -/

/-- A call of one method of the store. A refresh with `stops` ends before its ledger insert, a tick
with a `limit` after that many of its writes. -/
inductive Op where
  | syncRegistry (now : Time)
  | enqueue (args : EnqueueArgs) (clock : Nat → Time)
  | enqueueBackfill (datasourceId : String) (windowStart windowEnd : Time) (lane : Option String)
      (clock : Nat → Time)
  | enqueueProjectionDelivery (outputDirectory : String) (asOfAt : Time)
      (scheduledFor : Option Time) (trigger : String)
  | retry (jobId : String) (clock : Nat → Time)
  | recoverExpired (now : Time)
  | claimNext (workerId : String) (now : Time) (leaseSeconds : Int)
  | claimJob (jobId workerId : String) (now : Time) (leaseSeconds : Int)
  | startRun (claim : ClaimedJob) (workerId : String) (now : Time)
  | startSystemJob (claim : ClaimedJob) (workerId : String) (now : Time)
  | heartbeat (run : RunHandle) (now : Time) (leaseSeconds : Int)
  | persistEvidence (run : RunHandle) (args : EvidenceArgs) (now : Time)
  | persistObservation (run : RunHandle) (args : ObservationArgs) (now : Time)
  | beginFullSnapshot (run : RunHandle) (scope : List (String × Json)) (now : Time)
  | finalizeFullSnapshot (run : RunHandle) (proof : List (String × Json)) (now : Time)
  | finishRun (run : RunHandle) (args : FinishArgs) (now : Time)
  | finishSystemJob (handle : SystemJobHandle) (status : AttemptStatus)
      (error : Option (List (String × Json))) (now : Time)
  | cancel (jobId actorId : String) (now : Time)
  | importManualEvidence (args : ManualImportArgs) (clock : Nat → Time)
  | decideReview (reviewId : String) (decision : PromotionDecision) (actorId : String)
      (reason : Option String) (now : Time)
  | promoteReview (reviewId actorId : String) (reason : Option String) (now : Time)
  | revokePromotion (runId actorId : String) (reason : Option String) (now : Time)
  | submitAgentRefresh (args : RefreshArgs) (clock : Nat → Time) (stops : Bool)
  | schedulerTick (now : Time) (clock : Nat → Time) (limit : Option Nat)

/-- What a call returns. -/
inductive Reply where
  | done
  | job (result : EnqueueResult)
  | recovered (ids : List String)
  | claim (claim : Option ClaimedJob)
  | run (handle : RunHandle)
  | system (handle : SystemJobHandle)
  | evidence (evidence : PersistedEvidence)
  | observation (observationId : String)
  | scope (scopeHash : String)
  | tombstones (ids : List String)
  | changed (changed : Bool)
  | manualEvidence (result : ManualEvidenceResult)
  | promotion (result : ManualPromotionResult)
  | revocation (result : PromotionRevocationResult)
  | refresh (result : DurableRefreshResult)
  | stopped
  | tick (report : Tick)

section

variable (env : Env)

/-- Run a call. -/
def Op.exec : Op → Proc Db StoreError Reply
  | .syncRegistry now => do
    Proc.atomically (NanFung.syncRegistry env now)
    pure .done
  | .enqueue args clock => do
    let r ← NanFung.enqueue env args clock
    pure (.job r)
  | .enqueueBackfill datasourceId windowStart windowEnd lane clock => do
    let r ← NanFung.enqueueBackfill env datasourceId windowStart windowEnd lane clock
    pure (.job r)
  | .enqueueProjectionDelivery outputDirectory asOfAt scheduledFor trigger => do
    let r ← Proc.atomically
      (NanFung.enqueueProjectionDelivery env outputDirectory asOfAt scheduledFor trigger)
    pure (.job r)
  | .retry jobId clock => do
    let r ← NanFung.retry env jobId clock
    pure (.job r)
  | .recoverExpired now => do
    let ids ← Proc.atomically (NanFung.recoverExpired env now)
    pure (.recovered ids)
  | .claimNext workerId now leaseSeconds => do
    let c ← NanFung.claimNext env workerId now leaseSeconds
    pure (.claim c)
  | .claimJob jobId workerId now leaseSeconds => do
    let c ← NanFung.claimJob env jobId workerId now leaseSeconds
    pure (.claim c)
  | .startRun claim workerId now => do
    let h ← Proc.atomically (NanFung.startRun env claim workerId now)
    pure (.run h)
  | .startSystemJob claim workerId now => do
    let h ← Proc.atomically (NanFung.startSystemJob env claim workerId now)
    pure (.system h)
  | .heartbeat run now leaseSeconds => do
    Proc.atomically (NanFung.heartbeat run now leaseSeconds)
    pure .done
  | .persistEvidence run args now => do
    let e ← Proc.atomically (NanFung.persistEvidence env run args now)
    pure (.evidence e)
  | .persistObservation run args now => do
    let id ← Proc.atomically (NanFung.persistObservation env run args now)
    pure (.observation id)
  | .beginFullSnapshot run scope now => do
    let hash ← Proc.atomically (NanFung.beginFullSnapshot env run scope now)
    pure (.scope hash)
  | .finalizeFullSnapshot run proof now => do
    let ids ← Proc.atomically (NanFung.finalizeFullSnapshot env run proof now)
    pure (.tombstones ids)
  | .finishRun run args now => do
    Proc.atomically (NanFung.finishRun env run args now)
    pure .done
  | .finishSystemJob handle status error now => do
    Proc.atomically (NanFung.finishSystemJob env handle status error now)
    pure .done
  | .cancel jobId actorId now => do
    let b ← Proc.atomically (NanFung.cancel jobId actorId now)
    pure (.changed b)
  | .importManualEvidence args clock => do
    let r ← NanFung.importManualEvidence env args clock
    pure (.manualEvidence r)
  | .decideReview reviewId decision actorId reason now => do
    let b ← Proc.atomically (NanFung.decideReview env reviewId decision actorId reason now)
    pure (.changed b)
  | .promoteReview reviewId actorId reason now => do
    let r ← Proc.atomically (NanFung.promoteReview env reviewId actorId reason now)
    pure (.promotion r)
  | .revokePromotion runId actorId reason now => do
    let r ← Proc.atomically (NanFung.revokePromotion env runId actorId reason now)
    pure (.revocation r)
  | .submitAgentRefresh args clock false => do
    let r ← NanFung.submitAgentRefresh env args clock
    pure (.refresh r)
  | .submitAgentRefresh args clock true => do
    let _ ← prepareRefresh env args clock
    pure .stopped
  | .schedulerTick now clock limit => do
    let t ← NanFung.schedulerTick env now clock limit
    pure (.tick t)

/-! ## Conditions on calls -/

/-- The handle a call presents is valid. -/
def Op.Ready (s : Db) : Op → Prop
  | .startRun c _ _ | .startSystemJob c _ _ => ClaimOk env s c
  | .heartbeat h _ _ | .persistEvidence h _ _ | .persistObservation h _ _
  | .beginFullSnapshot h _ _ | .finalizeFullSnapshot h _ _ | .finishRun h _ _ => RunOk s h
  | .finishSystemJob h _ _ _ => SysOk env s h
  | _ => True

/-- What a guard asks of a call. -/
def Op.Respects (G : Guard) (s : Db) : Op → Prop
  | .syncRegistry now | .recoverExpired now | .claimNext _ now _ | .claimJob _ _ now _
  | .startRun _ _ now | .startSystemJob _ _ now | .heartbeat _ now _ | .persistEvidence _ _ now
  | .persistObservation _ _ now | .beginFullSnapshot _ _ now | .finalizeFullSnapshot _ _ now
  | .finishRun _ _ now | .finishSystemJob _ _ _ now | .decideReview _ _ _ _ now
  | .revokePromotion _ _ _ now => G.clock now
  | .enqueue _ clock | .enqueueBackfill _ _ _ _ clock | .retry _ clock => ∀ n, G.clock (clock n)
  | .enqueueProjectionDelivery _ asOfAt _ _ => G.clock asOfAt
  | .cancel jobId _ now => G.clock now ∧ ∀ j ∈ s.jobs, j.jobId = jobId → G.cancellable j
  | .importManualEvidence args clock =>
    (∀ n, G.clock (clock n)) ∧ (G.aligned → FreshImport env args clock s)
  | .promoteReview reviewId _ _ now =>
    G.clock now ∧ ∀ v ∈ s.reviewTasks, v.reviewId = reviewId → ∀ runId, v.runId = some runId →
      G.promotable s runId
  | .submitAgentRefresh args clock _ => (∀ n, G.clock (clock n)) ∧ G.clock args.submittedAt
  | .schedulerTick now clock _ => (∀ n, G.clock (clock n)) ∧ G.clock now

/-- The handle in a reply is valid. -/
def Reply.Valid (s : Db) : Reply → Prop
  | .claim (some c) => ClaimOk env s c
  | .run h => RunOk s h
  | .system h => SysOk env s h
  | _ => True

end

variable {env : Env} {G : Guard}

/-! ## One call -/

/-- A procedure whose result is only wrapped. -/
theorem reply_spec {α : Type} {P : Db → Prop} {p : Proc Db StoreError α} {Q : α → Db → Prop}
    (f : α → Reply) (hp : Proc.Spec (Effects env G) P p Q)
    (hf : ∀ a s, Q a s → (f a).Valid env s) :
    Proc.Spec (Effects env G) P (p >>= fun a => pure (f a)) fun r s => r.Valid env s :=
  Proc.Spec.bind hp fun a => Proc.Spec.pure _ (hf a)

/-- A transaction under a valid handle. -/
theorem handle_spec {α : Type} {P : Db → Prop} {t : Db → Except StoreError (α × Db)}
    {Q : α → Db → Prop}
    (h : ∀ s a s', StoreInv env s → P s → t s = .ok (a, s') → Effects env G s s' ∧ Q a s') :
    Proc.Spec (Effects env G) (fun s => StoreInv env s ∧ P s) (Proc.atomically t) Q :=
  Proc.Spec.atomically fun s a s' hs ht => h s a s' hs.1 hs.2 ht

/-- Every call moves the store by a chain of effects, and the handles it returns are valid. -/
theorem Op.exec_spec (op : Op) :
    Proc.Spec (Effects env G)
      (fun s => StoreInv env s ∧ op.Ready env s ∧ op.Respects env G s) (op.exec env)
      fun r s => r.Valid env s := by
  cases op with
  | syncRegistry now =>
    exact reply_spec (fun _ => .done) (handle_spec fun s _ s' _ hs h => ⟨syncRegistry_effects hs.2 h, trivial⟩)
      fun _ _ _ => trivial
  | enqueue args clock =>
    intro s hs
    exact reply_spec .job (enqueue_effects hs.2.2) (fun _ _ _ => trivial) s hs.1
  | enqueueBackfill datasourceId windowStart windowEnd lane clock =>
    intro s hs
    exact reply_spec .job (enqueueBackfill_effects hs.2.2) (fun _ _ _ => trivial) s hs.1
  | enqueueProjectionDelivery outputDirectory asOfAt scheduledFor trigger =>
    exact reply_spec .job (handle_spec fun s _ s' _ hs h =>
      ⟨enqueueProjectionDelivery_effects hs.2 h, trivial⟩) fun _ _ _ => trivial
  | retry jobId clock =>
    intro s hs
    exact reply_spec .job (retry_effects hs.2.2) (fun _ _ _ => trivial) s hs.1
  | recoverExpired now =>
    exact reply_spec .recovered (handle_spec fun s _ s' hinv hs h =>
      ⟨recoverExpired_effects hs.2 hinv h, trivial⟩) fun _ _ _ => trivial
  | claimNext workerId now leaseSeconds =>
    intro s hs
    refine reply_spec .claim (claimNext_spec hs.2.2) (fun c s hc => ?_) s hs.1
    cases c with
    | none => trivial
    | some c => exact hc.2 c rfl
  | claimJob jobId workerId now leaseSeconds =>
    intro s hs
    refine reply_spec .claim (claimJob_spec hs.2.2 False "" 0) (fun c s hc => ?_) s
      ⟨hs.1, False.elim⟩
    cases c with
    | none => trivial
    | some c => exact (hc.2 c rfl).1
  | startRun claim workerId now =>
    refine reply_spec .run (handle_spec fun s run s' hinv hs h => ?_) fun _ _ h => h
    obtain ⟨he, hok, -⟩ := startRun_effects hs.2 hinv hs.1 h
    exact ⟨he, hok⟩
  | startSystemJob claim workerId now =>
    exact reply_spec .system (handle_spec fun s _ s' hinv hs h => startSystemJob_effects hs.2 hinv hs.1 h)
      fun _ _ h => h
  | heartbeat run now leaseSeconds =>
    exact reply_spec (fun _ => .done) (handle_spec fun s _ s' hinv hs h => ⟨heartbeat_effects hs.2 hinv h, trivial⟩)
      fun _ _ _ => trivial
  | persistEvidence run args now =>
    exact reply_spec .evidence (handle_spec fun s _ s' hinv hs h =>
      ⟨persistEvidence_effects hs.2 hinv hs.1 h, trivial⟩) fun _ _ _ => trivial
  | persistObservation run args now =>
    exact reply_spec .observation (handle_spec fun s _ s' hinv hs h =>
      ⟨persistObservation_effects hs.2 hinv hs.1 h, trivial⟩) fun _ _ _ => trivial
  | beginFullSnapshot run scope now =>
    exact reply_spec .scope (handle_spec fun s _ s' hinv hs h =>
      ⟨beginFullSnapshot_effects hs.2 hinv hs.1 h, trivial⟩) fun _ _ _ => trivial
  | finalizeFullSnapshot run proof now =>
    exact reply_spec .tombstones (handle_spec fun s _ s' hinv hs h =>
      ⟨(finalizeFullSnapshot_ok hs.2 hinv hs.1 h).1, trivial⟩) fun _ _ _ => trivial
  | finishRun run args now =>
    exact reply_spec (fun _ => .done) (handle_spec fun s _ s' hinv hs h =>
      ⟨finishRun_effects hs.2 hinv hs.1 h, trivial⟩) fun _ _ _ => trivial
  | finishSystemJob handle status error now =>
    exact reply_spec (fun _ => .done) (handle_spec fun s _ s' hinv hs h =>
      ⟨finishSystemJob_effects hs.2 hinv hs.1 h, trivial⟩) fun _ _ _ => trivial
  | cancel jobId actorId now =>
    exact reply_spec .changed (handle_spec fun s _ s' hinv hs h => ⟨cancel_effects hs.2.1 hinv hs.2.2 h, trivial⟩)
      fun _ _ _ => trivial
  | importManualEvidence args clock =>
    intro s hs
    exact reply_spec .manualEvidence (importManualEvidence_effects hs.2.2.1) (fun _ _ _ => trivial) s
      ⟨hs.1, hs.2.2.2⟩
  | decideReview reviewId decision actorId reason now =>
    exact reply_spec .changed (handle_spec fun s _ s' _ hs h => ⟨decideReview_effects hs.2 h, trivial⟩)
      fun _ _ _ => trivial
  | promoteReview reviewId actorId reason now =>
    exact reply_spec .promotion (handle_spec fun s _ s' _ hs h =>
      ⟨promoteReview_effects hs.2.1 hs.2.2 h, trivial⟩) fun _ _ _ => trivial
  | revokePromotion runId actorId reason now =>
    exact reply_spec .revocation (handle_spec fun s _ s' _ hs h => ⟨revokePromotion_effects hs.2 h, trivial⟩)
      fun _ _ _ => trivial
  | submitAgentRefresh args clock stops =>
    intro s hs
    cases stops with
    | false =>
      exact reply_spec .refresh (submitAgentRefresh_effects hs.2.2.1 hs.2.2.2) (fun _ _ _ => trivial) s hs.1
    | true =>
      exact reply_spec (fun _ => .stopped) (prepareRefresh_effects hs.2.2.1 hs.2.2.2) (fun _ _ _ => trivial) s hs.1
  | schedulerTick now clock limit =>
    intro s hs
    exact reply_spec .tick (schedulerTick_effects hs.2.2.1 hs.2.2.2) (fun _ _ _ => trivial) s hs.1

/-! ## Histories -/

/-- A store with the calls made so far, oldest first, and their results. -/
structure World where
  db : Db := {}
  history : List (Op × Except StoreError Reply) := []

namespace World

/-- The world after one more call. -/
def step (env : Env) (w : World) (op : Op) : World where
  db := ((op.exec env).run w.db).2
  history := w.history ++ [(op, ((op.exec env).run w.db).1)]

/-- The calls of a list, one after the other. -/
def exec (env : Env) (ops : List Op) : World := ops.foldl (step env) {}

/-- Somebody may present a handle if an earlier call returned it. -/
def Returned (w : World) (r : Reply) : Prop := ∃ op, (op, .ok r) ∈ w.history

/-- The most recent reply of a kind. -/
def last {α : Type} (w : World) (kind : Reply → Option α) : Option α :=
  w.history.reverse.findSome? fun e =>
    match e.2 with
    | .ok r => kind r
    | .error _ => none

/-- Call with the most recent reply of a kind. -/
def callWith {α : Type} (env : Env) (w : World) (kind : Reply → Option α) (f : α → Op) : World :=
  match w.last kind with
  | some a => w.step env (f a)
  | none => w

theorem returned_last {α : Type} {w : World} {kind : Reply → Option α} {a : α}
    (h : w.last kind = some a) : ∃ r, kind r = some a ∧ w.Returned r := by
  obtain ⟨e, he, hc⟩ := List.exists_of_findSome?_eq_some h
  obtain ⟨op, r⟩ := e
  split at hc
  · next r' hr =>
    exact ⟨r', hc, op, hr ▸ List.mem_reverse.mp he⟩
  · exact nomatch hc

end World

/-- The handle a call presents was returned by an earlier call. -/
def Op.Held (w : World) : Op → Prop
  | .startRun c _ _ | .startSystemJob c _ _ => w.Returned (.claim (some c))
  | .heartbeat h _ _ | .persistEvidence h _ _ | .persistObservation h _ _
  | .beginFullSnapshot h _ _ | .finalizeFullSnapshot h _ _ | .finishRun h _ _ =>
    w.Returned (.run h)
  | .finishSystemJob h _ _ _ => w.Returned (.system h)
  | _ => True

/-- The worlds allowed calls lead to from a world. -/
inductive Continues (env : Env) (allowed : World → Op → Prop) (v : World) : World → Prop
  | refl : Continues env allowed v v
  | call {w : World} {op : Op} (before : Continues env allowed v w) (held : op.Held w)
      (permitted : allowed w op) : Continues env allowed v (w.step env op)

/-- The worlds a history of allowed calls reaches from the empty store. -/
abbrev Reachable (env : Env) (allowed : World → Op → Prop) (w : World) : Prop :=
  Continues env allowed {} w

/-- Calls that need no handle, one after the other. -/
theorem Continues.calls {env : Env} {allowed : World → Op → Prop} {v w : World}
    (h : Continues env allowed v w) {ops : List Op}
    (hops : ∀ op ∈ ops, ∀ w, op.Held w ∧ allowed w op) :
    Continues env allowed v (ops.foldl (World.step env) w) := by
  induction ops generalizing w with
  | nil => exact h
  | cons op ops ih =>
    obtain ⟨held, permitted⟩ := hops op (by simp) w
    exact ih (h.call held permitted) fun o ho => hops o (by simp [ho])

/-- A call with a handle that was returned before. -/
theorem Continues.callWith {env : Env} {allowed : World → Op → Prop} {v w : World}
    (h : Continues env allowed v w) {α : Type} {kind : Reply → Option α} {f : α → Op}
    (hop : ∀ a, (∃ r, kind r = some a ∧ w.Returned r) → (f a).Held w ∧ allowed w (f a)) :
    Continues env allowed v (w.callWith env kind f) := by
  unfold World.callWith
  split
  · next a ha =>
    obtain ⟨held, permitted⟩ := hop a (World.returned_last ha)
    exact h.call held permitted
  · exact h

/-- A history may be continued under fewer restrictions. -/
theorem Continues.mono {env : Env} {allowed allowed' : World → Op → Prop} {v w : World}
    (h : Continues env allowed v w) (hle : ∀ w op, allowed w op → allowed' w op) :
    Continues env allowed' v w := by
  induction h with
  | refl => exact .refl
  | call _ held permitted ih => exact ih.call held (hle _ _ permitted)

/-- Every call is allowed. -/
def anyCall (_ : World) (_ : Op) : Prop := True

/-- The invariant of a world: the store is sound, every handle ever returned is valid. -/
structure World.Sound (env : Env) (w : World) : Prop where
  store : StoreInv env w.db
  replies : ∀ r, w.Returned r → r.Valid env w.db

namespace World

variable {w : World} {op : Op}

theorem Sound.ready (h : w.Sound env) (hheld : op.Held w) : op.Ready env w.db := by
  cases op with
  | startRun | startSystemJob | heartbeat | persistEvidence | persistObservation
  | beginFullSnapshot | finalizeFullSnapshot | finishRun | finishSystemJob =>
    exact h.replies _ hheld
  | _ => trivial

/-- One call moves the store by a chain of effects. -/
theorem Sound.effects (h : w.Sound env) (hheld : op.Held w) (hG : op.Respects env G w.db) :
    Effects env G w.db (w.step env op).db :=
  (op.exec_spec w.db ⟨h.store, h.ready hheld, hG⟩).1

theorem returned_step {r : Reply} :
    (w.step env op).Returned r ↔ w.Returned r ∨ ((op.exec env).run w.db).1 = .ok r := by
  simp only [Returned, step, List.mem_append, List.mem_singleton, Prod.mk.injEq, exists_or]
  refine or_congr_right ⟨?_, fun h => ⟨op, rfl, h.symm⟩⟩
  rintro ⟨_, _, h⟩
  exact h.symm

end World

theorem Effects.valid (hu : Function.Injective env.platform.uuid) {db db' : Db}
    (es : Effects env G db db') (hinv : db.Leases) {r : Reply} (h : r.Valid env db) :
    r.Valid env db' := by
  cases r with
  | claim c =>
    cases c with
    | none => trivial
    | some c => exact es.claimOk h
  | run handle => exact es.runOk h
  | system handle => exact es.sysOk hu hinv h
  | _ => trivial

theorem World.Sound.step (hu : Function.Injective env.platform.uuid) {w : World} {op : Op}
    (h : w.Sound env) (hheld : op.Held w) (hG : op.Respects env G w.db) : (w.step env op).Sound env := by
  have he := h.effects hheld hG
  refine ⟨he.storeInv h.store, fun r hr => ?_⟩
  rcases World.returned_step.mp hr with hr | hr
  · exact he.valid hu h.store.leases (h.replies r hr)
  · exact (op.exec_spec (G := G) w.db ⟨h.store, h.ready hheld, hG⟩).2 r hr

theorem World.Sound.init (env : Env) : ({} : World).Sound env :=
  ⟨StoreInv.empty env, fun _ ⟨_, h⟩ => nomatch h⟩

/-- Every call respects the guard that permits everything. -/
theorem Op.respects_any (op : Op) (s : Db) : op.Respects env Guard.any s := by
  cases op <;> simp [Op.Respects, Guard.any]

/-- Soundness lasts. -/
theorem Continues.sound (hu : Function.Injective env.platform.uuid) {allowed : World → Op → Prop}
    {v w : World} (h : Continues env allowed v w) (hv : v.Sound env) : w.Sound env := by
  induction h with
  | refl => exact hv
  | call _ held _ ih => exact ih.step hu held (Op.respects_any _ _)

/-- Every reachable world is sound. -/
theorem Reachable.sound (hu : Function.Injective env.platform.uuid) {allowed : World → Op → Prop}
    {w : World} (h : Reachable env allowed w) : w.Sound env :=
  Continues.sound hu h (World.Sound.init env)

/-- A history whose calls all respect a guard moves the store by a chain of its effects. -/
theorem Continues.effects (hu : Function.Injective env.platform.uuid) {v w : World}
    (h : Continues env (fun w op => op.Respects env G w.db) v w) (hv : v.Sound env) :
    Effects env G v.db w.db := by
  induction h with
  | refl => exact Relation.ReflTransGen.refl
  | call before held permitted ih => exact ih.trans ((before.sound hu hv).effects held permitted)

end NanFung
