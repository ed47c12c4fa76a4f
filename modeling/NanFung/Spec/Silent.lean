import NanFung.Spec.Refresh

/-!
# Calls that write no observations

All methods but `persist_observation` and `finalize_full_snapshot` leave the revisions, the stream
heads and the links of a run alone. They may start a run, which has counted nothing, and close one,
which keeps its counters.
-/

namespace NanFung

open Table

variable {env : Env} {db db' : Db} {now : Time} {clock : Nat → Time}

/-- What a run is about, and what it has counted. -/
structure RunTally where
  runId : String
  datasourceId : String
  definitionVersion : Nat
  lane : Lane
  recordCount : Nat
  acceptedRecordCount : Nat

def RunRow.tally (r : RunRow) : RunTally :=
  ⟨r.runId, r.datasourceId, r.definitionVersion, r.lane, r.recordCount, r.acceptedRecordCount⟩

/-- What these methods leave alone. -/
structure Silent (db db' : Db) : Prop where
  runs : ∃ started : List RunTally, db'.runs.map RunRow.tally = db.runs.map RunRow.tally ++ started ∧
    ∀ t ∈ started, t.recordCount = 0 ∧ t.acceptedRecordCount = 0
  revisions : db'.revisions = db.revisions
  heads : db'.heads = db.heads
  links : db'.runObservations = db.runObservations
  evidence : db'.observationEvidence = db.observationEvidence
  attached : ∀ l ∈ db.runEvidence, l ∈ db'.runEvidence

namespace Silent

/-- A write to other tables, which may change the other columns of runs. -/
theorem of_runs (hruns : db'.runs.map RunRow.tally = db.runs.map RunRow.tally)
    (h : (db'.revisions, db'.heads, db'.runObservations, db'.observationEvidence, db'.runEvidence) =
      (db.revisions, db.heads, db.runObservations, db.observationEvidence, db.runEvidence)) :
    Silent db db' := by
  simp only [Prod.mk.injEq] at h
  obtain ⟨hrevisions, hheads, hlinks, hevidence, hattached⟩ := h
  exact ⟨⟨[], by rw [hruns, List.append_nil], nofun⟩, hrevisions, hheads, hlinks, hevidence,
    fun l hl => hattached ▸ hl⟩

instance : Std.Refl Silent := ⟨fun _ => of_runs rfl rfl⟩

theorem trans {db'' : Db} (h : Silent db db') (h' : Silent db' db'') : Silent db db'' := by
  obtain ⟨started, hruns, hzero⟩ := h.runs
  obtain ⟨later, hruns', hzero'⟩ := h'.runs
  refine ⟨⟨started ++ later, by rw [hruns', hruns, List.append_assoc], fun t ht => ?_⟩,
    h'.revisions.trans h.revisions, h'.heads.trans h.heads, h'.links.trans h.links,
    h'.evidence.trans h.evidence, fun l hl => h'.attached l (h.attached l hl)⟩
  exact (List.mem_append.mp ht).elim (hzero t) (hzero' t)

instance : IsTrans Db Silent := ⟨fun _ _ _ => trans⟩

/-! ## Transactions -/

theorem syncRegistry {u : Unit} (h : NanFung.syncRegistry env now db = .ok (u, db')) : Silent db db' := by
  obtain ⟨_, _, rfl⟩ := syncRegistry_frame h
  exact of_runs rfl rfl

theorem acceptJob {args : EnqueueArgs} {plan : EnqueuePlan} {dedupe : String}
    {instanceId : Option String} {r : EnqueueResult}
    (h : NanFung.acceptJob env args plan dedupe instanceId db = .ok (r, db')) : Silent db db' := by
  obtain ⟨_, -, -, -, -, -, rfl⟩ := acceptJob_ok h
  exact of_runs rfl rfl

theorem enqueueTx {args : EnqueueArgs} {plan : EnqueuePlan} {dedupe : String} {r : EnqueueResult}
    (h : NanFung.enqueueTx env args plan dedupe db = .ok (r, db')) : Silent db db' := by
  unfold NanFung.enqueueTx at h
  split at h
  · exact acceptJob h
  · split at h
    · simp only [bind_ok] at h
      obtain ⟨key, -, h⟩ := h
      exact (of_runs rfl rfl : Silent db { db with drawn := db.drawn + 1 }).trans (acceptJob h)
    · cases h
      exact Std.Refl.refl db

theorem enqueueProjectionDelivery {outputDirectory trigger : String} {asOfAt : Time}
    {scheduledFor : Option Time} {r : EnqueueResult}
    (h : NanFung.enqueueProjectionDelivery env outputDirectory asOfAt scheduledFor trigger db =
      .ok (r, db')) : Silent db db' := by
  simp only [NanFung.enqueueProjectionDelivery, bind_ok, orThrow_ok] at h
  obtain ⟨_, -, _, -, _, -, h⟩ := h
  split at h
  · cases h
    exact Std.Refl.refl db
  · simp only [bind_ok, Except.ok.injEq, Prod.mk.injEq] at h
    obtain ⟨_, -, db₁, hins, -, rfl⟩ := h
    obtain ⟨-, -, -, rfl⟩ := insertJob_ok hins
    exact of_runs rfl rfl

theorem failRunningAttempt (jobId : String) (error : Json) :
    Silent db (NanFung.failRunningAttempt jobId now error db) := by
  unfold NanFung.failRunningAttempt
  split
  · exact Std.Refl.refl db
  · refine of_runs ?_ rfl
    apply map_updateWhere
    exact fun _ => rfl

theorem recoverExpired {ids : List String} (h : NanFung.recoverExpired env now db = .ok (ids, db')) :
    Silent db db' := by
  simp only [NanFung.recoverExpired, bind_ok, Except.ok.injEq, Prod.mk.injEq] at h
  obtain ⟨db₁, h, -, rfl⟩ := h
  refine (foldlM_ok_rel (R := Silent) (I := fun _ => True) ?_ trivial h).1
  rintro ⟨j, policy⟩ - s s' - hs
  refine ⟨?_, trivial⟩
  simp only [recoverRow, bind_ok, Except.ok.injEq] at hs
  obtain ⟨error, -, ⟨state, availableAt⟩, -, rfl⟩ := hs
  split
  · exact of_runs rfl rfl
  · exact Silent.trans (failRunningAttempt j.jobId error) (of_runs rfl rfl)

theorem claimRow {row : JobRow} {workerId : String} {expires : Time} {c : Option ClaimedJob}
    (h : NanFung.claimRow env row workerId now expires db = .ok (c, db')) : Silent db db' := by
  simp only [NanFung.claimRow, bind_ok] at h
  obtain ⟨-, -, h⟩ := h
  split at h
  · cases h
    exact of_runs rfl rfl
  · cases h
    exact of_runs rfl rfl

theorem claimNextTx {workerId : String} {expires : Time} {c : Option ClaimedJob}
    (h : NanFung.claimNextTx env workerId now expires db = .ok (c, db')) : Silent db db' := by
  unfold NanFung.claimNextTx at h
  split at h
  · cases h
    exact Std.Refl.refl db
  · exact claimRow h

theorem claimJobTx {jobId workerId : String} {expires : Time} {c : Option ClaimedJob}
    (h : NanFung.claimJobTx env jobId workerId now expires db = .ok (c, db')) : Silent db db' := by
  unfold NanFung.claimJobTx at h
  split at h
  · cases h
    exact Std.Refl.refl db
  · exact claimRow h

/-- The run that is started has counted nothing. -/
theorem startRun {claim : ClaimedJob} {workerId : String} {handle : RunHandle}
    (h : NanFung.startRun env claim workerId now db = .ok (handle, db')) : Silent db db' := by
  unfold NanFung.startRun at h
  split at h
  · simp only [bind_ok, require_ok, orThrow_ok, insertRun, Except.ok.injEq, Prod.mk.injEq] at h
    obtain ⟨row, -, -, -, -, -, db₁, hattempt, hash, -, db₂, ⟨-, -, -, -, -, -, rfl⟩, -, rfl⟩ := h
    obtain ⟨-, rfl⟩ := insertAttempt_ok hattempt
    refine ⟨⟨[_], List.map_append, fun t ht => ?_⟩, rfl, rfl, rfl, rfl, fun _ hl => hl⟩
    rw [List.mem_singleton.mp ht]
    exact ⟨rfl, rfl⟩
  · cases h

theorem startSystemJob {claim : ClaimedJob} {workerId : String} {handle : SystemJobHandle}
    (h : NanFung.startSystemJob env claim workerId now db = .ok (handle, db')) : Silent db db' := by
  simp only [NanFung.startSystemJob, bind_ok, Except.ok.injEq, Prod.mk.injEq] at h
  obtain ⟨-, -, -, -, row, -, -, -, -, -, db₁, hattempt, -, rfl⟩ := h
  obtain ⟨-, rfl⟩ := insertAttempt_ok hattempt
  exact of_runs rfl rfl

theorem heartbeat {run : RunHandle} {leaseSeconds : Int} {u : Unit}
    (h : NanFung.heartbeat run now leaseSeconds db = .ok (u, db')) : Silent db db' := by
  simp only [NanFung.heartbeat, bind_ok, Except.ok.injEq, Prod.mk.injEq] at h
  obtain ⟨_, -, -, -, -, rfl⟩ := h
  exact of_runs rfl rfl

theorem cancel {jobId actorId : String} {b : Bool}
    (h : NanFung.cancel jobId actorId now db = .ok (b, db')) : Silent db db' := by
  simp only [NanFung.cancel, Except.ok.injEq, Prod.mk.injEq] at h
  obtain ⟨-, rfl⟩ := h
  exact of_runs rfl rfl

theorem finishSystemJob {handle : SystemJobHandle} {status : AttemptStatus}
    {error : Option (List (String × Json))} {u : Unit}
    (h : NanFung.finishSystemJob env handle status error now db = .ok (u, db')) : Silent db db' := by
  simp only [NanFung.finishSystemJob, bind_ok, Except.ok.injEq, Prod.mk.injEq] at h
  obtain ⟨-, -, _, -, _, -, _, -, -, rfl⟩ := h
  exact of_runs rfl rfl

theorem persistEvidence {run : RunHandle} {args : EvidenceArgs} {e : PersistedEvidence}
    (h : NanFung.persistEvidence env run args now db = .ok (e, db')) : Silent db db' := by
  simp only [NanFung.persistEvidence, persistEvidenceTx, bind_ok, Except.ok.injEq,
    Prod.mk.injEq] at h
  obtain ⟨⟨definition, binding, retention⟩, -, _, -, _, -, _, -, _, -, _, -, -, -, -, -, -, rfl⟩ := h
  refine ⟨⟨[], (List.append_nil _).symm, fun _ hj => by cases hj⟩, rfl, rfl, rfl, rfl, fun l hl => ?_⟩
  exact List.mem_append_left _ hl

theorem beginFullSnapshot {run : RunHandle} {scope : List (String × Json)} {scopeHash : String}
    (h : NanFung.beginFullSnapshot env run scope now db = .ok (scopeHash, db')) : Silent db db' := by
  simp only [NanFung.beginFullSnapshot, bind_ok, Except.ok.injEq, Prod.mk.injEq] at h
  obtain ⟨_, -, -, -, _, -, _, -, _, -, -, -, -, rfl⟩ := h
  refine of_runs ?_ rfl
  apply map_updateWhere
  exact fun _ => rfl

theorem closeRun {run : RunHandle} {status : AttemptStatus} {state : JobState} {retryAt : Time}
    {error : Option Json} : Silent db (NanFung.closeRun run status state retryAt error now db) := by
  refine of_runs ?_ rfl
  apply map_updateWhere
  exact fun _ => rfl

theorem insertPromotion {runId : String} {decision : PromotionDecision} {mode : ApprovalMode}
    {actorType actorId : String} {reason : Option String} {details : Json} {id : String}
    (h : NanFung.insertPromotion env runId decision mode actorType actorId reason details now db =
      .ok (id, db')) : Silent db db' := by
  obtain ⟨_, -, -, -, -, -, rfl⟩ := insertPromotion_ok h
  exact of_runs rfl rfl

theorem finishRun {run : RunHandle} {args : FinishArgs} {u : Unit}
    (h : NanFung.finishRun env run args now db = .ok (u, db')) : Silent db db' := by
  simp only [NanFung.finishRun, bind_ok] at h
  obtain ⟨-, -, -, -, definition, -, -, -, -, -, ⟨j, policy⟩, -, retryAt, -, error, -, h⟩ := h
  split at h
  · simp only [promoteFinished, bind_ok, Except.ok.injEq, Prod.mk.injEq] at h
    obtain ⟨db₁, ⟨-, -, ⟨id, db₂⟩, hins, rfl⟩, -, rfl⟩ := h
    exact Silent.trans closeRun (insertPromotion hins)
  · cases h
    exact closeRun

theorem openReview {run : RunHandle} {definition : DatasourceDefinition} {evidenceId reviewId : String}
    {attestation : Option String}
    (h : NanFung.openReview env run definition evidenceId attestation now db = .ok (reviewId, db')) :
    Silent db db' := by
  simp only [NanFung.openReview, bind_ok, Except.ok.injEq, Prod.mk.injEq] at h
  obtain ⟨_, -, _, -, -, -, -, rfl⟩ := h
  exact of_runs rfl rfl

theorem decideReview {reviewId actorId : String} {decision : PromotionDecision}
    {reason : Option String} {b : Bool}
    (h : NanFung.decideReview env reviewId decision actorId reason now db = .ok (b, db')) :
    Silent db db' := by
  simp only [NanFung.decideReview, bind_ok] at h
  obtain ⟨-, -, -, -, review, -, h⟩ := h
  split at h
  · cases h
    exact Std.Refl.refl db
  · simp only [bind_ok, Except.ok.injEq, Prod.mk.injEq] at h
    obtain ⟨-, -, -, rfl⟩ := h
    exact of_runs rfl rfl

theorem promoteReview {reviewId actorId : String} {reason : Option String} {r : ManualPromotionResult}
    (h : NanFung.promoteReview env reviewId actorId reason now db = .ok (r, db')) : Silent db db' := by
  simp only [NanFung.promoteReview, bind_ok] at h
  obtain ⟨-, -, -, -, h⟩ := h
  split at h
  · cases h
    exact Std.Refl.refl db
  · simp only [bind_ok, Except.ok.injEq, Prod.mk.injEq] at h
    obtain ⟨⟨v, runId, d⟩, -, details, -, ⟨id, db₁⟩, hins, -, -, -, -, -, rfl⟩ := h
    exact Silent.trans (insertPromotion hins) (of_runs rfl rfl)

theorem revokePromotion {runId actorId : String} {reason : Option String}
    {r : PromotionRevocationResult}
    (h : NanFung.revokePromotion env runId actorId reason now db = .ok (r, db')) : Silent db db' := by
  simp only [NanFung.revokePromotion, bind_ok] at h
  obtain ⟨-, -, -, -, latest, -, run, -, attempt, -, h⟩ := h
  split at h
  · cases h
    exact Std.Refl.refl db
  · simp only [bind_ok, Except.ok.injEq, Prod.mk.injEq] at h
    obtain ⟨-, -, -, -, details, -, ⟨id, db₁⟩, hins, -, rfl⟩ := h
    exact insertPromotion hins

theorem issueRefreshConfirmation {args : RefreshArgs} {pending : Option RefreshConfirmationRow}
    {r : DurableRefreshResult}
    (h : NanFung.issueRefreshConfirmation env args pending db = .ok (r, db')) : Silent db db' := by
  unfold NanFung.issueRefreshConfirmation at h
  split at h
  · simp only [bind_ok, Except.ok.injEq, Prod.mk.injEq] at h
    obtain ⟨-, -, -, rfl⟩ := h
    exact Std.Refl.refl db
  · simp only [bind_ok, Except.ok.injEq, Prod.mk.injEq] at h
    obtain ⟨_, -, ⟨dayStart, dayEnd⟩, -, -, -, -, rfl⟩ := h
    exact of_runs rfl rfl

theorem onspdRefreshConfirmation {args : RefreshArgs} {pending : Option RefreshConfirmationRow}
    {r : Option DurableRefreshResult}
    (h : NanFung.onspdRefreshConfirmation env args pending db = .ok (r, db')) : Silent db db' := by
  unfold NanFung.onspdRefreshConfirmation at h
  split at h
  · cases h
    exact Std.Refl.refl db
  simp only [bind_ok] at h
  obtain ⟨used, -, h⟩ := h
  split at h
  · simp only [bind_ok, Except.ok.injEq, Prod.mk.injEq] at h
    obtain ⟨-, -, -, rfl⟩ := h
    exact Std.Refl.refl db
  split at h
  · simp only [bind_ok, Except.ok.injEq, Prod.mk.injEq] at h
    obtain ⟨⟨r₁, db₁⟩, hissue, -, rfl⟩ := h
    exact issueRefreshConfirmation hissue
  · simp only [bind_ok, Except.ok.injEq, Prod.mk.injEq] at h
    obtain ⟨row, -, -, -, -, -, -, rfl⟩ := h
    exact Std.Refl.refl db

theorem recordRefreshRequest {row : RefreshRequestRow} {r : DurableRefreshResult}
    (h : NanFung.recordRefreshRequest row db = .ok (r, db')) : Silent db db' := by
  simp only [NanFung.recordRefreshRequest, bind_ok, Except.ok.injEq, Prod.mk.injEq] at h
  obtain ⟨-, -, -, -, -, -, -, rfl⟩ := h
  exact of_runs rfl rfl

end Silent

/-! ## Procedures -/

/-- However a procedure ends, it has written no observation. -/
def Silently {α : Type} (p : Proc Db StoreError α) : Prop :=
  Proc.Spec Silent (fun _ => True) p fun _ _ => True

namespace Silently

variable {α β : Type}

theorem pure (a : α) : Silently (Pure.pure a : Proc Db StoreError α) :=
  Proc.Spec.pure a fun _ _ => trivial

theorem throw (e : StoreError) : Silently (throw e : Proc Db StoreError α) := Proc.Spec.throw e

theorem query {f : Db → Except StoreError α} : Silently (Proc.query f) :=
  Proc.Spec.query fun _ _ _ _ => trivial

theorem draw {kind : String} : Silently (env.draw kind) :=
  fun _ _ => ⟨.of_runs rfl rfl, fun _ _ => trivial⟩

theorem atomically {t : Db → Except StoreError (α × Db)}
    (h : ∀ {s a s'}, t s = .ok (a, s') → Silent s s') : Silently (Proc.atomically t) :=
  Proc.Spec.atomically fun _ _ _ _ ht => ⟨h ht, trivial⟩

theorem bind {p : Proc Db StoreError α} {f : α → Proc Db StoreError β} (hp : Silently p)
    (hf : ∀ a, Silently (f a)) : Silently (p >>= f) := Proc.Spec.bind hp hf

/-- A procedure whose result is only wrapped. -/
theorem reply {p : Proc Db StoreError α} {f : α → β} (hp : Silently p) :
    Silently (p >>= fun a => Pure.pure (f a)) := hp.bind fun a => pure (f a)

theorem tryCatch {p : Proc Db StoreError α} {f : StoreError → Proc Db StoreError α} (hp : Silently p)
    (hf : ∀ e, Silently (f e)) : Silently (tryCatch p f) :=
  Proc.Spec.tryCatch hp (fun _ _ _ _ => trivial) hf

theorem foldlM {f : β → α → Proc Db StoreError β} {l : List α} (hf : ∀ b a, Silently (f b a)) (b : β) :
    Silently (l.foldlM f b) := Proc.Spec.foldlM (fun b a _ => hf b a) b

theorem enqueue {args : EnqueueArgs} : Silently (NanFung.enqueue env args clock) := by
  refine bind (atomically Silent.syncRegistry) fun _ => ?_
  refine bind query fun plan => ?_
  refine bind query fun dedupe => ?_
  exact atomically Silent.enqueueTx

theorem enqueueBackfill {datasourceId : String} {windowStart windowEnd : Time} {lane : Option String} :
    Silently (NanFung.enqueueBackfill env datasourceId windowStart windowEnd lane clock) := by
  refine bind query fun _ => ?_
  exact bind draw fun id => enqueue

theorem retry {jobId : String} : Silently (NanFung.retry env jobId clock) := by
  refine bind query fun row => ?_
  refine bind query fun _ => ?_
  split
  · exact bind draw fun id => enqueue
  · exact throw _

theorem claimNext {workerId : String} {leaseSeconds : Int} :
    Silently (NanFung.claimNext env workerId now leaseSeconds) := by
  refine bind (atomically Silent.recoverExpired) fun _ => ?_
  refine bind query fun expires => ?_
  exact atomically Silent.claimNextTx

theorem claimJob {jobId workerId : String} {leaseSeconds : Int} :
    Silently (NanFung.claimJob env jobId workerId now leaseSeconds) := by
  refine bind (atomically Silent.recoverExpired) fun _ => ?_
  refine bind query fun expires => ?_
  exact atomically Silent.claimJobTx

theorem prepareRefresh {args : RefreshArgs} : Silently (NanFung.prepareRefresh env args clock) := by
  refine bind query fun _ => ?_
  refine bind (atomically Silent.syncRegistry) fun _ => ?_
  refine bind query fun definition => ?_
  refine bind query fun resolved => ?_
  match resolved with
  | (some step, _) => exact pure _
  | (none, pending) =>
    refine bind (atomically Silent.onspdRefreshConfirmation) fun answer => ?_
    match answer with
    | some result => exact pure _
    | none =>
      refine bind enqueue fun queued => ?_
      exact bind query fun _ => pure _

theorem submitAgentRefresh {args : RefreshArgs} :
    Silently (NanFung.submitAgentRefresh env args clock) := by
  refine bind prepareRefresh fun step => ?_
  split
  · exact pure _
  · exact atomically Silent.recordRefreshRequest

theorem tickSlots {s : ScheduleRow} {definition : DatasourceDefinition} {limit : Option Nat}
    {slots : List Time} {writes accepted deduplicated : Nat} :
    Silently (NanFung.tickSlots env s definition clock limit slots writes accepted deduplicated) := by
  induction slots generalizing writes accepted deduplicated with
  | nil => exact pure _
  | cons slot slots ih =>
    unfold NanFung.tickSlots
    split
    · exact pure _
    refine bind (tryCatch enqueue.reply fun e => ?_) fun result => ?_
    · split
      · exact pure _
      · exact throw _
    split
    · exact pure _
    · split
      · exact ih
      · exact ih

theorem tickSchedule {limit : Option Nat} {t : Tick} {s : ScheduleRow} :
    Silently (NanFung.tickSchedule env now clock limit t s) := by
  have hschedules : ∀ {schedules : Db → List ScheduleRow},
      Silently (Proc.atomically fun db => .ok ((), { db with schedules := schedules db })) := fun {_} =>
    atomically fun h => by
      cases h
      exact .of_runs rfl rfl
  unfold NanFung.tickSchedule
  split
  · exact pure _
  refine bind query fun definition => ?_
  split
  · exact pure _
  split
  · split
    · split
      · exact pure _
      · exact hschedules.reply
    · exact throw _
  · refine bind tickSlots fun result => ?_
    obtain ⟨writes, outcome⟩ := result
    cases outcome with
    | stopped | failed => exact pure _
    | done accepted deduplicated =>
      refine bind query fun nextDue => ?_
      split
      · exact pure _
      · exact hschedules.reply

theorem schedulerTick {limit : Option Nat} : Silently (NanFung.schedulerTick env now clock limit) := by
  refine bind (atomically Silent.syncRegistry) fun _ => ?_
  refine bind (atomically Silent.recoverExpired) fun _ => ?_
  refine bind query fun schedules => ?_
  exact foldlM (fun _ _ => tickSchedule) _

theorem captureManualEvidence {run : RunHandle} {args : EvidenceArgs} :
    Silently (NanFung.captureManualEvidence env run args clock) := by
  refine tryCatch (atomically Silent.persistEvidence) fun error => ?_
  refine bind (tryCatch (atomically Silent.finishRun) fun e => ?_) fun _ => throw _
  split
  · exact pure _
  · exact throw _

theorem reviewManualImport {run : RunHandle} {definition : DatasourceDefinition} {evidenceId : String}
    {attestation : Option String} :
    Silently (NanFung.reviewManualImport env run definition evidenceId attestation now) := by
  unfold NanFung.reviewManualImport
  split
  · exact (atomically Silent.openReview).reply
  · exact pure _

end Silently

end NanFung
