import NanFung.Spec.Leases

/-!
# Record operations as chains of effects

Evidence, observations and the end of a run; full snapshots are in a module of their own.
-/

namespace NanFung

open Table

variable {env : Env} {G : Guard} {db db' : Db} {now : Time} {run : RunHandle}

/-! ## The running-run check -/

/-- What passes `_require_running_run`. -/
theorem requireRunningRun_ok {j : JobRow} {policy : Json}
    (h : requireRunningRun run now db = .ok (j, policy)) :
    (j ∈ db.jobs ∧ j.leasedBy run.jobId run.claimToken .running now = true) ∧
      ∃ a ∈ db.attempts, a.attemptId = run.attemptId ∧ a.jobId = j.jobId ∧ a.status = .running := by
  simp only [requireRunningRun, orThrow_ok, Option.bind_eq_bind, Option.bind_eq_some_iff,
    Option.some.injEq, Prod.mk.injEq] at h
  obtain ⟨j', hj, d, -, a, ha, rfl, -⟩ := h
  have hp := List.find?_some ha
  simp only [decide_eq_true_eq] at hp
  exact ⟨⟨List.mem_of_find?_eq_some hj, List.find?_some hj⟩, a, List.mem_of_find?_eq_some ha, hp⟩

/-- The rows of a handle that passes the check are open. -/
theorem requireRunningRun_active (hinv : db.Leases) (hok : RunOk db run) {j : JobRow} {policy : Json}
    (h : requireRunningRun run now db = .ok (j, policy)) : ∃ a r, db.Active run j a r := by
  obtain ⟨⟨hj, hleased⟩, a, ha, haa, haj, has⟩ := requireRunningRun_ok h
  obtain ⟨hjid, -, hjs, -⟩ := JobRow.leasedBy_iff.mp hleased
  obtain ⟨r, hr, h₁, h₂, h₃, h₄, h₅, h₆⟩ := hok
  obtain ⟨b, hb, hbr, -, hbs⟩ := hinv.run_attempt r hr
  have hba : b = a := hinv.attempts_keyed.eq_of_mem hb ha (hbr.trans (h₂.trans haa.symm))
  exact ⟨a, r, hj, ha, hr, hjid, hjs, haa, haj.trans hjid, has, h₁, h₂, h₄, h₅, h₆,
    by rw [← hbs, hba, has]⟩

/-- Effects that leave the open rows alone keep them open. -/
theorem Db.Active.of_eq {j : JobRow} {a : AttemptRow} {r : RunRow} (h : db.Active run j a r)
    (hjobs : db'.jobs = db.jobs) (hattempts : db'.attempts = db.attempts)
    (hruns : r ∈ db'.runs) : db'.Active run j a r :=
  { h with job := hjobs ▸ h.job, attempt := hattempts ▸ h.attempt, run := hruns }

/-! ## Evidence -/

theorem persistEvidence_effects (hG : G.clock now) (hinv : StoreInv env db) (hok : RunOk db run)
    {args : EvidenceArgs} {e : PersistedEvidence}
    (h : persistEvidence env run args now db = .ok (e, db')) : Effects env G db db' := by
  simp only [persistEvidence, bind_ok] at h
  obtain ⟨⟨definition, binding, retention⟩, -, mediaType, -, artifact, -, h⟩ := h
  simp only [persistEvidenceTx, bind_ok, require_ok, Except.ok.injEq, Prod.mk.injEq] at h
  obtain ⟨⟨j, policy⟩, hrun, request, -, response, -, -, hnew, -, -, -, rfl⟩ := h
  obtain ⟨a, r, hactive⟩ := requireRunningRun_active hinv.leases hok hrun
  exact Effects.one hG (.evidence db run j a r _ _ hactive rfl rfl hnew)

/-! ## Observations -/

theorem insertRevision_ok {o : RevisionRow} (h : insertRevision o db = .ok db') :
    (∀ q ∈ db.revisions, q.observationId ≠ o.observationId) ∧
      (db.definition? o.stream.datasourceId o.definitionVersion).isSome ∧
      db' = { db with revisions := db.revisions ++ [o] } := by
  simp only [insertRevision, bind_ok, require_ok, Except.ok.injEq] at h
  obtain ⟨-, hid, -, -, -, hdef, rfl⟩ := h
  exact ⟨hid, hdef, rfl⟩

/-- A fresh revision is linked to no run yet. -/
theorem RefInv.not_linked (h : RefInv env db) {o : RevisionRow} {runId : String}
    (hnew : ∀ q ∈ db.revisions, q.observationId ≠ o.observationId) :
    (⟨runId, o.observationId⟩ : RunObservationRow) ∉ db.runObservations := by
  intro hl
  obtain ⟨q, hq, hqo⟩ := h.observation_revision _ hl
  exact hnew q hq hqo

/-- The result of `reviseStream`: the head is reused, or a revision extends the stream. -/
theorem reviseStream_ok {definition : DatasourceDefinition} {args : ObservationArgs}
    {stream : StreamKey} {recordHash : String} {scopeHash : Option String} {id : String}
    (h : reviseStream env run definition args stream recordHash scopeHash now db = .ok (id, db')) :
    (db' = db ∧ ∃ g ∈ db.heads.find? (fun g => g.stream = stream), g.observationId = id ∧
        g.recordHash = recordHash ∧ g.revisionAction = .upsert) ∨
      ∃ o : RevisionRow, o.stream = stream ∧ o.observationId = id ∧ o.recordHash = recordHash ∧
        o.definitionVersion = run.definitionVersion ∧ o.revisionAction = .upsert ∧
        o.snapshotScopeHash = scopeHash ∧ Extends db.heads o ∧
        (∀ q ∈ db.revisions, q.observationId ≠ o.observationId) ∧
        (db.definition? o.stream.datasourceId o.definitionVersion).isSome ∧
        db' = { db with
          revisions := db.revisions ++ [o]
          heads := upsertHead (headOf o now) db.heads
          drawn := db.drawn + 1 } := by
  unfold reviseStream at h
  simp only at h
  split at h
  · next g hg =>
    cases h
    rw [Option.filter_eq_some_iff] at hg
    obtain ⟨hfind, hp⟩ := hg
    simp only [decide_eq_true_eq] at hp
    exact Or.inl ⟨rfl, g, hfind, rfl, hp⟩
  · next hnone =>
    simp only [bind_ok, Except.ok.injEq, Prod.mk.injEq] at h
    obtain ⟨key, -, payload, -, limitations, -, db₁, hins, rfl, rfl⟩ := h
    obtain ⟨hnew, hdef, rfl⟩ := insertRevision_ok hins
    refine Or.inr ⟨_, rfl, rfl, rfl, rfl, rfl, rfl, ⟨rfl, rfl, fun _ g hg hsame => ?_, fun ht => by cases ht⟩,
      hnew, hdef, rfl⟩
    exact Option.filter_eq_none_iff.mp hnone g hg (decide_eq_true hsame)

/-- A new link is counted on the run it belongs to, which stays open. -/
theorem linkObservation_new (hinv : db.Leases) {j : JobRow} {a : AttemptRow} {r : RunRow}
    {id : String} (hactive : db.Active run j a r) (hnew : ⟨run.runId, id⟩ ∉ db.runObservations) :
    linkObservation run.runId id db = { db with
      runObservations := db.runObservations ++ [⟨run.runId, id⟩]
      runs := updateWhere (fun s => s.runId = run.runId) (fun s => { s with
        recordCount := s.recordCount + 1
        acceptedRecordCount := s.acceptedRecordCount + 1 }) db.runs } := by
  rw [linkObservation, if_neg hnew, hinv.runs_keyed.updateWhere_eq_key hactive.run
    (by simp [hactive.runId, hactive.runRunning]) (by simp +contextual [hactive.runId]) rfl,
    hactive.runId]

/-- Changing only the counters and the snapshot columns of an open run keeps it open. -/
theorem Db.Active.updateRun {j : JobRow} {a : AttemptRow} {r : RunRow} {f : RunRow → RunRow}
    (h : db.Active run j a r) (hjobs : db'.jobs = db.jobs) (hattempts : db'.attempts = db.attempts)
    (hruns : db'.runs = updateWhere (fun s => s.runId = run.runId) f db.runs)
    (hid : (f r).runId = r.runId ∧ (f r).attemptId = r.attemptId ∧
      (f r).datasourceId = r.datasourceId ∧ (f r).definitionVersion = r.definitionVersion ∧
      (f r).lane = r.lane ∧ (f r).status = r.status) : db'.Active run j a (f r) := by
  obtain ⟨h₁, h₂, h₃, h₄, h₅, h₆⟩ := hid
  refine { h with
    job := hjobs ▸ h.job
    attempt := hattempts ▸ h.attempt
    run := ?_
    runId := h₁.trans h.runId
    runAttempt := h₂.trans h.runAttempt
    runDatasource := h₃.trans h.runDatasource
    runVersion := h₄.trans h.runVersion
    runLane := h₅.trans h.runLane
    runRunning := h₆.trans h.runRunning }
  rw [hruns]
  exact mem_updateWhere.mpr (Or.inl ⟨r, h.run, decide_eq_true h.runId, rfl⟩)

/-- Linking an observation of the stream of an open run. -/
theorem linkObservation_effects (hG : G.clock now) {j : JobRow} {a : AttemptRow} {r : RunRow}
    {o : RevisionRow} (hinv : db.Leases) (hactive : db.Active run j a r)
    (ho : o ∈ db.revisions) (hds : o.stream.datasourceId = run.datasourceId)
    (hlane : o.stream.lane = run.lane)
    (hversion : env.keyVersion run.datasourceId run.definitionVersion o.stream.recordKeyVersion)
    (hhead : ∃ g ∈ db.heads, g.stream = o.stream ∧ g.observationId = o.observationId ∧
      g.revisionAction = .upsert) :
    Effects env G db (linkObservation run.runId o.observationId db) ∧
      ∃ r', (linkObservation run.runId o.observationId db).Active run j a r' := by
  by_cases hnew : ⟨run.runId, o.observationId⟩ ∈ db.runObservations
  · rw [linkObservation, if_pos hnew]
    exact ⟨Relation.ReflTransGen.refl, r, hactive⟩
  · rw [linkObservation_new hinv hactive hnew]
    have hlink := @Effect.link env G now db run j a r o hactive ho hds hlane hnew hversion
      hhead
    refine ⟨(Effects.one hG hlink).then hG (.count _ run j a r 1 ?_), _,
      hactive.updateRun rfl rfl rfl ⟨rfl, rfl, rfl, rfl, rfl, rfl⟩⟩
    exact hactive.of_eq rfl rfl hactive.run

/-- Linking the evidence of an observation. -/
theorem linkEvidence_effects (hG : G.clock now) {j : JobRow} {a : AttemptRow} {r : RunRow}
    {id : String} {locator : Option (List (String × Json))} {items : List PersistedEvidence}
    (hactive : db.Active run j a r)
    (hitems : ∀ item ∈ items, ∃ e ∈ db.evidence, e.evidenceId = item.evidenceId)
    (h : items.foldlM (linkEvidence env run.runId id locator) db = .ok db') :
    Effects env G db db' := by
  refine (foldlM_ok_rel (R := Effects env G)
    (I := fun s => s.Active run j a r ∧ s.evidence = db.evidence) ?_ ⟨hactive, rfl⟩ h).1
  rintro item hitem s s' ⟨hs, hev⟩ hstep
  simp only [linkEvidence, bind_ok] at hstep
  obtain ⟨value, -, hash, -, hstep⟩ := hstep
  split at hstep
  · cases hstep
    exact ⟨Relation.ReflTransGen.refl, hs, hev⟩
  · cases hstep
    refine ⟨Effects.one hG (.linkEvidence s run j a r _ hs rfl ?_), hs.of_eq rfl rfl hs.run, hev⟩
    rw [hev]
    exact hitems item hitem

/-- The scope a running run has declared. -/
theorem Db.Active.scope {j : JobRow} {a : AttemptRow} {r : RunRow} (h : db.Active run j a r)
    (hinv : db.Leases) :
    db.runs.find? (fun r => r.runId = run.runId) = some r :=
  hinv.runs_keyed.find?_eq_some.mpr ⟨h.run, h.runId⟩

/-- The definition a run looks up is the registered one of its key. -/
theorem Env.fullSnapshot_iff {definition : DatasourceDefinition}
    (h : env.registry.lookup env.platform run.datasourceId (some run.definitionVersion) =
      .ok definition) :
    env.fullSnapshot run.datasourceId run.definitionVersion ↔
      definition.snapshotMode = .fullSnapshot := by
  obtain ⟨hd, hkey⟩ := DatasourceRegistry.lookup_key h
  constructor
  · rintro ⟨d, hdmem, hdkey, hfull⟩
    rwa [← env.registry.definitions_keyed.eq_of_mem hdmem hd (hdkey.trans hkey.symm)]
  · exact fun hfull => ⟨definition, hd, hkey, hfull⟩

/-- The streams a run writes have the key version of its definition. -/
theorem Env.keyVersion_streamOf {definition : DatasourceDefinition} {keyHash : String}
    (h : env.registry.lookup env.platform run.datasourceId (some run.definitionVersion) =
      .ok definition) :
    env.keyVersion run.datasourceId run.definitionVersion
      (streamOf run definition keyHash).recordKeyVersion := by
  obtain ⟨hd, hkey⟩ := DatasourceRegistry.lookup_key h
  exact ⟨definition, hd, hkey, rfl⟩

/-- The revised stream is linked to the run. -/
theorem reviseLink_effects (hG : G.clock now) (hinv : StoreInv env db) {j : JobRow} {a : AttemptRow}
    {r : RunRow} {definition : DatasourceDefinition} {args : ObservationArgs} {keyHash recordHash : String}
    {id : String} {db₁ : Db} (hactive : db.Active run j a r)
    (hlookup : env.registry.lookup env.platform run.datasourceId (some run.definitionVersion) =
      .ok definition)
    (hdeclared : env.fullSnapshot run.datasourceId run.definitionVersion →
      r.snapshotScopeHash.isSome)
    (h : reviseStream env run definition args (streamOf run definition keyHash) recordHash
      r.snapshotScopeHash now db = .ok (id, db₁)) :
    Effects env G db (linkObservation run.runId id db₁) ∧
      (∃ r', (linkObservation run.runId id db₁).Active run j a r') ∧
      (linkObservation run.runId id db₁).evidence = db.evidence := by
  have hevidence : (linkObservation run.runId id db₁).evidence = db₁.evidence := by
    unfold linkObservation
    split <;> rfl
  rw [hevidence]
  rcases reviseStream_ok h with ⟨rfl, g, hg, rfl, -, hupsert⟩ |
    ⟨o, hstream, rfl, -, -, haction, hscope, hext, hnew, hdef, rfl⟩
  · -- the head's revision is linked again
    have hgs : g.stream = streamOf run definition keyHash := by simpa using List.find?_some hg
    obtain ⟨o, ho, hoid, hos⟩ := hinv.references.head_revision g (List.mem_of_find?_eq_some hg)
    rw [← hoid]
    obtain ⟨hes, hactive'⟩ := linkObservation_effects hG hinv.leases hactive ho
      (by rw [hos, hgs]; rfl) (by rw [hos, hgs]; rfl)
      (by rw [hos, hgs]; exact Env.keyVersion_streamOf hlookup)
      ⟨g, List.mem_of_find?_eq_some hg, hos.symm, hoid.symm, hupsert⟩
    exact ⟨hes, hactive', rfl⟩
  · have hrevise := @Effect.revise env G now db run j a r o hactive
      (by rw [hstream]; rfl) (by rw [hstream]; rfl) hscope hdeclared hext
      (fun ht => nomatch haction.symm.trans ht) hnew hdef
      (by rw [hstream]; exact Env.keyVersion_streamOf hlookup)
    have hactive₁ : ({ db with
        revisions := db.revisions ++ [o]
        heads := upsertHead (headOf o now) db.heads
        drawn := db.drawn + 1 } : Db).Active run j a r := hactive.of_eq rfl rfl hactive.run
    have hleases₁ : ({ db with
        revisions := db.revisions ++ [o]
        heads := upsertHead (headOf o now) db.heads
        drawn := db.drawn + 1 } : Db).Leases := hinv.leases
    rw [linkObservation_new hleases₁ hactive₁ (hinv.references.not_linked hnew)]
    refine ⟨(Effects.one hG hrevise).then hG (.count _ run j a r 1 ?_),
      ⟨_, hactive₁.updateRun rfl rfl rfl ⟨rfl, rfl, rfl, rfl, rfl, rfl⟩⟩, rfl⟩
    exact hactive.of_eq rfl rfl hactive.run

theorem persistObservation_effects (hG : G.clock now) (hinv : StoreInv env db) (hok : RunOk db run)
    {args : ObservationArgs} {id : String}
    (h : persistObservation env run args now db = .ok (id, db')) : Effects env G db db' := by
  simp only [persistObservation, bind_ok] at h
  obtain ⟨definition, hlookup, -, -, keyHash, -, recordHash, -, h⟩ := h
  simp only [persistObservationTx, bind_ok, require_ok] at h
  obtain ⟨⟨j, policy⟩, hrun, -, hattached, -, hscope, ⟨id₁, db₁⟩, hrevise, db₂, hlinks, h⟩ := h
  simp only [Except.ok.injEq, Prod.mk.injEq] at h
  obtain ⟨rfl, rfl⟩ := h
  obtain ⟨a, r, hactive⟩ := requireRunningRun_active hinv.leases hok hrun
  rw [hactive.scope hinv.leases] at hrevise hscope
  have hdeclared : env.fullSnapshot run.datasourceId run.definitionVersion →
      r.snapshotScopeHash.isSome := fun hfull => by
    obtain ⟨scope, hsome, -⟩ := hscope ((Env.fullSnapshot_iff hlookup).mp hfull)
    exact Option.isSome_iff_exists.mpr ⟨scope, hsome⟩
  obtain ⟨hes, ⟨r', hactive'⟩, hevidence⟩ :=
    reviseLink_effects (G := G) hG hinv hactive hlookup hdeclared hrevise
  refine hes.trans (linkEvidence_effects hG hactive' (fun item hitem => ?_) hlinks)
  obtain ⟨e, he, -, heid⟩ := hattached item hitem
  rw [hevidence, ← heid]
  exact hinv.references.run_evidence e he

/-! ## The end of a run -/

theorem finishedJobState_idle {j : JobRow} {status : AttemptStatus} {retryable : Bool} :
    finishedJobState j status retryable ≠ .claimed ∧ finishedJobState j status retryable ≠ .running := by
  unfold finishedJobState
  repeat' split
  all_goals simp

/-- A run's job waits for another attempt only while it has one left. -/
theorem finishedJobState_retried {j : JobRow} {status : AttemptStatus} {retryable : Bool}
    (h : (finishedJobState j status retryable).terminal = false) :
    j.attemptCount < j.maxAttempts := by
  unfold finishedJobState at h
  repeat' split at h
  all_goals first
    | assumption
    | exact nomatch h

/-- Closing the rows of an open run, as the update `close` makes. -/
theorem closeRun_eq (hinv : db.Leases) {j : JobRow} {a : AttemptRow} {r : RunRow}
    (hactive : db.Active run j a r) (htoken : j.claimToken = some run.claimToken)
    (status : AttemptStatus) (state : JobState) (retryAt : Time) (error : Option Json) :
    ∃ completedAt availableAt, completedAt.isSome = state.terminal ∧
      closeRun run status state retryAt error now db = { db with
      jobs := updateWhere (fun i => i.jobId = j.jobId)
        (JobRow.release state completedAt availableAt (some now) error) db.jobs
      attempts := updateWhere (fun b => b.attemptId = a.attemptId)
        (AttemptRow.close status now error) db.attempts
      runs := updateWhere (fun s => s.attemptId = a.attemptId) (RunRow.close status now) db.runs } := by
  have hjobs : updateWhere
      (fun i => i.jobId = run.jobId ∧ i.claimToken = some run.claimToken ∧ i.state = .running)
      (fun i => i.release state (if state.terminal then some now else none)
        (if state = .retryWait then retryAt else i.availableAt) (some now) error) db.jobs =
      updateWhere (fun i => i.jobId = j.jobId)
        (JobRow.release state (if state.terminal then some now else none)
          (if state = .retryWait then retryAt else j.availableAt) (some now) error) db.jobs :=
    hinv.jobs_keyed.updateWhere_eq_key hactive.job
      (by simp [hactive.jobId, htoken, hactive.jobRunning]) (by simp +contextual [hactive.jobId]) rfl
  have hattempts : updateWhere (fun b => b.attemptId = run.attemptId ∧ b.status = .running)
      (AttemptRow.close status now error) db.attempts =
      updateWhere (fun b => b.attemptId = a.attemptId) (AttemptRow.close status now error)
        db.attempts :=
    hinv.attempts_keyed.updateWhere_eq_key hactive.attempt
      (by simp [hactive.attemptId, hactive.attemptRunning])
      (by simp +contextual [hactive.attemptId]) rfl
  have hruns : updateWhere (fun s => s.runId = run.runId) (RunRow.close status now) db.runs =
      updateWhere (fun s => s.attemptId = a.attemptId) (RunRow.close status now) db.runs := by
    refine updateWhere_congr fun s hs => decide_eq_decide.mpr ?_
    rw [← hactive.runId, hactive.attemptId, ← hactive.runAttempt]
    exact ⟨fun h => by rw [hinv.runs_keyed.eq_of_mem hs hactive.run h],
      fun h => by rw [hinv.runs_attempt_keyed.eq_of_mem hs hactive.run h]⟩
  refine ⟨if state.terminal then some now else none,
    if state = .retryWait then retryAt else j.availableAt, by split <;> simp_all, ?_⟩
  unfold closeRun
  rw [hjobs, hattempts, hruns]

theorem insertPromotion_ok {runId : String} {decision : PromotionDecision} {mode : ApprovalMode}
    {actorType actorId : String} {reason : Option String} {details : Json} {id : String}
    (h : insertPromotion env runId decision mode actorType actorId reason details now db =
      .ok (id, db')) :
    ∃ p : PromotionRow, p.promotionId = id ∧ p.runId = runId ∧ p.decision = decision ∧
      p.decisionAt = now ∧ (∀ q ∈ db.promotions, q.promotionId ≠ id) ∧
      db' = { db with promotions := db.promotions ++ [p], drawn := db.drawn + 1 } := by
  simp only [insertPromotion, bind_ok, require_ok, Except.ok.injEq, Prod.mk.injEq] at h
  obtain ⟨-, hnew, rfl, rfl⟩ := h
  exact ⟨_, rfl, rfl, rfl, rfl, hnew, rfl⟩

theorem finishRun_effects (hG : G.clock now) (hinv : StoreInv env db) (hok : RunOk db run)
    {args : FinishArgs} {u : Unit} (h : finishRun env run args now db = .ok (u, db')) :
    Effects env G db db' := by
  simp only [finishRun, bind_ok, require_ok] at h
  obtain ⟨-, hstatus, -, -, definition, hlookup, -, hpromote, -, hpolicy, ⟨j, policy⟩, hrun, retryAt,
    -, error, -, h⟩ := h
  obtain ⟨a, r, hactive⟩ := requireRunningRun_active hinv.leases hok hrun
  have htoken := (JobRow.leasedBy_iff.mp (requireRunningRun_ok hrun).1.2).2.1
  obtain ⟨completedAt, availableAt, hcompleted, hclosed⟩ := closeRun_eq hinv.leases hactive htoken args.status
    (finishedJobState j args.status args.retryable)
    ((args.retryAt.map (max retryAt)).getD retryAt) error
  rw [hclosed] at h
  have hclose := @Effect.close env G now db j a args.status
    (finishedJobState j args.status args.retryable) completedAt availableAt (some now) error
  split at h
  · next hp =>
    simp only [promoteFinished, bind_ok, require_ok, Except.ok.injEq, Prod.mk.injEq] at h
    obtain ⟨db₁, ⟨-, hcomplete, ⟨id, db₂⟩, hins, rfl⟩, -, rfl⟩ := h
    obtain ⟨p, -, hpr, hpd, hpt, -, rfl⟩ := insertPromotion_ok hins
    obtain ⟨hsucceeded, hlane⟩ := hpromote hp
    refine Effects.one hG (hclose (some p) (db.drawn + 1) hactive.job hactive.jobRunning
      hactive.attempt (hactive.attemptJob.trans hactive.jobId.symm) hactive.attemptRunning hstatus
      finishedJobState_idle (Nat.le_succ _) ?_ hcompleted finishedJobState_retried)
    rintro q ⟨⟩
    obtain ⟨hd, hkey⟩ := DatasourceRegistry.lookup_key hlookup
    refine ⟨hpd, hpt, hsucceeded, r, hactive.run, hactive.runId.trans hpr.symm,
      hactive.runAttempt.trans hactive.attemptId.symm, hactive.runLane.trans hlane, definition, hd,
      ?_, hpolicy hp, fun hfull => ?_⟩
    · rw [hkey, hactive.runDatasource, hactive.runVersion]
    · -- the completeness read after the rows are closed is that of the run before
      have hkeyed : Keyed RunRow.runId (updateWhere (fun s => s.attemptId = a.attemptId)
          (RunRow.close args.status now) db.runs) := by
        refine hinv.leases.runs_keyed.updateWhere ?_
        exact fun _ => rfl
      have hclosed : r.close args.status now ∈ updateWhere (fun s => s.attemptId = a.attemptId)
          (RunRow.close args.status now) db.runs :=
        mem_updateWhere.mpr (Or.inl ⟨r, hactive.run,
          decide_eq_true (hactive.runAttempt.trans hactive.attemptId.symm), rfl⟩)
      have := hcomplete hfull
      rw [hkeyed.find?_eq_some.mpr ⟨hclosed, hactive.runId⟩] at this
      exact Option.some.inj this
  · cases h
    have e := hclose none db.drawn hactive.job hactive.jobRunning hactive.attempt
      (hactive.attemptJob.trans hactive.jobId.symm) hactive.attemptRunning hstatus
      finishedJobState_idle le_rfl (fun _ hp => by cases hp) hcompleted finishedJobState_retried
    rw [Option.toList_none, List.append_nil] at e
    exact Effects.one hG e

end NanFung
