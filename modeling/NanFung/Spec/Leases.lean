import NanFung.Spec.Jobs

/-!
# Lease operations as chains of effects

Recovery, claims, the start of attempts, heartbeats, completion of system jobs and cancellation.
-/

namespace NanFung

open Table

variable {env : Env} {G : Guard} {db db' : Db} {now : Time}

/-! ## Conditions on rows -/

theorem JobRow.leasedBy_iff {jobId token : String} {state : JobState} {j : JobRow} :
    j.leasedBy jobId token state now = true ↔ j.jobId = jobId ∧ j.claimToken = some token ∧
      j.state = state ∧ ∃ e ∈ j.leaseExpiresAt, now < e := by
  simp [JobRow.leasedBy]

theorem rowcount_eq_one {α : Type} {p : α → Bool} {t : List α} (h : rowcount p t = 1) :
    ∃ r ∈ t, p r = true := by
  obtain ⟨r, hr⟩ := List.length_eq_one_iff.mp h
  exact ⟨r, List.mem_filter.mp (hr ▸ List.mem_singleton_self r : r ∈ t.filter p)⟩

/-! ## Recovery -/

theorem runningAttempt?_mem {jobId : String} {a : AttemptRow} (h : db.runningAttempt? jobId = some a) :
    a ∈ db.attempts ∧ a.jobId = jobId ∧ a.status = .running := by
  have hmem := List.mem_of_head? h
  rw [List.mem_insertionSort, List.mem_filter] at hmem
  simpa using hmem

theorem runningAttempt?_isSome {jobId : String} {a : AttemptRow} (ha : a ∈ db.attempts)
    (hj : a.jobId = jobId) (hs : a.status = .running) : (db.runningAttempt? jobId).isSome := by
  unfold Db.runningAttempt?
  rw [Option.isSome_iff_ne_none, ne_eq, List.head?_eq_none_iff]
  intro hnil
  have : a ∈ (db.attempts.filter fun a => a.jobId = jobId ∧ a.status = .running).insertionSort
      fun a b => b.attemptNo ≤ a.attemptNo := by
    rw [List.mem_insertionSort, List.mem_filter]
    exact ⟨ha, by simp [hj, hs]⟩
  rw [hnil] at this
  exact nomatch this

theorem recoveredState_ok {row : JobRow} {policy : Json} {state : JobState} {availableAt : Time}
    (h : recoveredState row policy now = .ok (state, availableAt)) :
    (row.state = .claimed ∧ state = .queued) ∨
      (row.state ≠ .claimed ∧ ((state = .retryWait ∧ row.attemptCount < row.maxAttempts) ∨
        state = .deadLetter)) := by
  unfold recoveredState at h
  split at h
  · next hc =>
    cases h
    exact Or.inl ⟨hc, rfl⟩
  · next hc =>
    split at h
    · next hbudget =>
      simp only [bind_ok, Except.ok.injEq, Prod.mk.injEq] at h
      obtain ⟨_, -, rfl, -⟩ := h
      exact Or.inr ⟨hc, Or.inl ⟨rfl, hbudget⟩⟩
    · cases h
      exact Or.inr ⟨hc, Or.inr rfl⟩

/-- Failing the running attempt of a running job, as the update by attempt that `close` makes. -/
theorem failRunningAttempt_eq (hinv : db.Leases) {j : JobRow} (hj : j ∈ db.jobs)
    (hrun : j.state = .running) (error : Json) (now : Time) :
    ∃ a ∈ db.attempts, a.jobId = j.jobId ∧ a.status = .running ∧
      failRunningAttempt j.jobId now error db = { db with
        attempts := updateWhere (fun b => b.attemptId = a.attemptId)
          (AttemptRow.close .failed now (some error)) db.attempts
        runs := updateWhere (fun r => r.attemptId = a.attemptId) (RunRow.close .failed now) db.runs } := by
  obtain ⟨b, hb, hbj, hbs⟩ := hinv.job_running j hj hrun
  obtain ⟨a, hsome⟩ := Option.isSome_iff_exists.mp (runningAttempt?_isSome hb hbj hbs)
  obtain ⟨ha, haj, has⟩ := runningAttempt?_mem hsome
  refine ⟨a, ha, haj, has, ?_⟩
  have hattempts : updateWhere (fun b => b.attemptId = a.attemptId ∧ b.status = .running)
      (AttemptRow.close .failed now (some error)) db.attempts =
      updateWhere (fun b => b.attemptId = a.attemptId)
        (AttemptRow.close .failed now (some error)) db.attempts :=
    hinv.attempts_keyed.updateWhere_eq_key ha (by simp [has]) (by simp +contextual) rfl
  have hruns : updateWhere (fun r => r.attemptId = a.attemptId ∧ r.status = .running)
      (RunRow.close .failed now) db.runs =
      updateWhere (fun r => r.attemptId = a.attemptId) (RunRow.close .failed now) db.runs := by
    refine updateWhere_congr fun r hr => ?_
    obtain ⟨c, hc, hca, -, hcs⟩ := hinv.run_attempt r hr
    by_cases hra : r.attemptId = a.attemptId
    · rw [hinv.attempts_keyed.eq_of_mem hc ha (hca.trans hra), has] at hcs
      simp [hra, ← hcs]
    · simp [hra]
  unfold failRunningAttempt
  rw [hsome]
  simp only [hattempts, hruns]

/-- One iteration of the recovery loop, on a row that is still in the table. -/
theorem recoverRow_effects (hG : G.clock now) (hinv : db.Leases) {j : JobRow} {policy : Json}
    (hj : j ∈ db.jobs) (hstate : j.state = .claimed ∨ j.state = .running)
    (h : recoverRow env now db (j, policy) = .ok db') :
    Effects env G db db' ∧ ∀ i ∈ db.jobs, i.jobId ≠ j.jobId → i ∈ db'.jobs := by
  simp only [recoverRow, bind_ok] at h
  obtain ⟨error, -, ⟨state, availableAt⟩, hnext, h⟩ := h
  simp only [Except.ok.injEq] at h
  obtain ⟨token, htoken⟩ := Option.ne_none_iff_exists'.mp (hinv.leased j hj hstate)
  have hjobs : ∀ f : JobRow → JobRow, updateWhere
      (fun i => i.jobId = j.jobId ∧ ∃ token ∈ j.claimToken, i.claimToken = some token) f db.jobs =
      updateWhere (fun i => i.jobId = j.jobId) f db.jobs := fun f =>
    hinv.jobs_keyed.updateWhere_eq_key hj (by simp [htoken]) (by simp +contextual) rfl
  have hkeep : ∀ (f : JobRow → JobRow) (i : JobRow), i ∈ db.jobs → i.jobId ≠ j.jobId →
      i ∈ updateWhere (fun i => i.jobId = j.jobId) f db.jobs := fun f i hi hne =>
    (hinv.jobs_keyed.mem_updateWhere_key hj).mpr (Or.inr ⟨hi, hne⟩)
  rcases recoveredState_ok hnext with ⟨hc, rfl⟩ | ⟨hc, hs⟩
  · rw [if_pos hc, hjobs] at h
    subst h
    exact ⟨Effects.one hG (.requeue db j availableAt (some error) hj hc), hkeep _⟩
  · have hrun := hstate.resolve_left hc
    obtain ⟨a, ha, haj, has, hfail⟩ := failRunningAttempt_eq hinv hj hrun error now
    rw [if_neg hc, hfail, hjobs] at h
    subst h
    refine ⟨?_, hkeep _⟩
    have hretried : state.terminal = false → j.attemptCount < j.maxAttempts := by
      rcases hs with ⟨-, hbudget⟩ | rfl
      · exact fun _ => hbudget
      · exact fun hs => by cases hs
    have e := @Effect.close env G now db j a .failed state
      (if state = .deadLetter then some now else none) availableAt none (some error) none db.drawn
      hj hrun ha haj has (by simp) (by rcases hs with ⟨rfl, -⟩ | rfl <;> simp) le_rfl
      (fun _ hp => by cases hp) (by rcases hs with ⟨rfl, -⟩ | rfl <;> rfl) hretried
    rw [Option.toList_none, List.append_nil] at e
    exact Effects.one hG e

theorem JobRow.leaseExpired_state {j : JobRow} (h : j.leaseExpired now = true) :
    j.state = .claimed ∨ j.state = .running := by
  simp only [JobRow.leaseExpired, decide_eq_true_eq] at h
  exact h.1

/-- The recovery loop over distinct rows of the table. -/
theorem recoverRows_effects (hG : G.clock now) {rows : List (JobRow × Json)} (hinv : StoreInv env db)
    (hmem : ∀ r ∈ rows, r.1 ∈ db.jobs ∧ (r.1.state = .claimed ∨ r.1.state = .running))
    (hdistinct : rows.Pairwise fun r s => r.1.jobId ≠ s.1.jobId)
    (h : rows.foldlM (recoverRow env now) db = .ok db') : Effects env G db db' := by
  induction rows generalizing db with
  | nil =>
    simp only [List.foldlM_nil, pure_ok] at h
    exact h ▸ Relation.ReflTransGen.refl
  | cons r rows ih =>
    simp only [List.foldlM_cons, bind_ok] at h
    obtain ⟨db₁, h₁, h⟩ := h
    obtain ⟨hr, hstate⟩ := hmem r (by simp)
    obtain ⟨hrest, hdistinct⟩ := List.pairwise_cons.mp hdistinct
    obtain ⟨he, hkeep⟩ := recoverRow_effects hG hinv.leases hr hstate h₁
    refine he.trans (ih (he.storeInv hinv) (fun s hs => ?_) hdistinct h)
    exact ⟨hkeep s.1 (hmem s (by simp [hs])).1 (hrest s hs).symm, (hmem s (by simp [hs])).2⟩

theorem recoverExpired_effects (hG : G.clock now) (hinv : StoreInv env db) {ids : List String}
    (h : recoverExpired env now db = .ok (ids, db')) : Effects env G db db' := by
  simp only [recoverExpired, bind_ok, Except.ok.injEq, Prod.mk.injEq] at h
  obtain ⟨db₁, h, -, rfl⟩ := h
  refine recoverRows_effects hG hinv ?_ ?_ h
  · intro r hr
    obtain ⟨j, hj, rfl⟩ := List.mem_map.mp hr
    obtain ⟨hj, hexp⟩ := List.mem_filter.mp hj
    exact ⟨hj, JobRow.leaseExpired_state hexp⟩
  · rw [List.pairwise_map]
    exact (List.pairwise_map.mp hinv.leases.jobs_keyed).filter _

/-! ## Claims -/

theorem claimRow_effects (hG : G.clock now) (hinv : StoreInv env db) {j : JobRow} {workerId : String}
    {expires : Time} {c : Option ClaimedJob} (hj : j ∈ db.jobs)
    (hdue : j.state = .queued ∨ j.state = .retryWait)
    (h : claimRow env j workerId now expires db = .ok (c, db')) :
    Effects env G db db' ∧ ∀ c' ∈ c, ClaimOk env db' c' ∧ c'.jobId = j.jobId ∧
      c'.datasourceId = j.datasourceId ∧ c'.definitionVersion = j.definitionVersion := by
  simp only [claimRow, bind_ok, require_ok] at h
  obtain ⟨-, -, h⟩ := h
  have hjobs := hinv.leases.jobs_keyed.updateWhere_eq_key
    (f := JobRow.claim (env.newId "claim" db.drawn) workerId now expires) hj
    (p := fun i => i.jobId = j.jobId ∧ (i.state = .queued ∨ i.state = .retryWait))
    (by simp [hdue]) (by simp +contextual) rfl
  rw [hjobs] at h
  have he := Effects.one hG (@Effect.claim env G now db j workerId expires hj hdue)
  split at h
  · simp only [Except.ok.injEq, Prod.mk.injEq] at h
    obtain ⟨rfl, rfl⟩ := h
    refine ⟨he, ?_⟩
    rintro c' ⟨⟩
    refine ⟨⟨⟨_, (hinv.leases.jobs_keyed.mem_updateWhere_key hj).mpr (Or.inl rfl), ?_⟩, ?_⟩, ?_⟩
    · exact ⟨rfl, rfl, rfl, rfl⟩
    · exact ⟨db.drawn, Nat.lt_succ_self _, rfl⟩
    · exact ⟨rfl, rfl, rfl⟩
  · simp only [Except.ok.injEq, Prod.mk.injEq] at h
    obtain ⟨rfl, rfl⟩ := h
    exact ⟨he, fun _ hc => by cases hc⟩

theorem JobRow.due_state {j : JobRow} (h : j.due now = true) :
    j.state = .queued ∨ j.state = .retryWait := by
  simp only [JobRow.due, decide_eq_true_eq] at h
  exact h.1

theorem claimNextTx_effects (hG : G.clock now) (hinv : StoreInv env db) {workerId : String}
    {expires : Time} {c : Option ClaimedJob}
    (h : claimNextTx env workerId now expires db = .ok (c, db')) :
    Effects env G db db' ∧ ∀ c' ∈ c, ClaimOk env db' c' := by
  unfold claimNextTx at h
  split at h
  · cases h
    exact ⟨Relation.ReflTransGen.refl, fun _ hc => nomatch hc⟩
  · next j hj =>
    have hmem := List.mem_of_head? hj
    rw [List.mem_insertionSort, List.mem_filter] at hmem
    obtain ⟨he, hc⟩ := claimRow_effects hG hinv hmem.1 (JobRow.due_state hmem.2) h
    exact ⟨he, fun c' hc' => (hc c' hc').1⟩

theorem claimJobTx_effects (hG : G.clock now) (hinv : StoreInv env db) {jobId workerId : String}
    {expires : Time} {c : Option ClaimedJob}
    (h : claimJobTx env jobId workerId now expires db = .ok (c, db')) :
    Effects env G db db' ∧ ∀ c' ∈ c, ClaimOk env db' c' ∧
      ∃ j ∈ db.jobs, j.jobId = jobId ∧ c'.datasourceId = j.datasourceId ∧
        c'.definitionVersion = j.definitionVersion := by
  unfold claimJobTx at h
  split at h
  · cases h
    exact ⟨Relation.ReflTransGen.refl, fun _ hc => nomatch hc⟩
  · next j hj =>
    have hmem := List.mem_of_find?_eq_some hj
    have hp := List.find?_some hj
    simp only [decide_eq_true_eq] at hp
    obtain ⟨he, hc⟩ := claimRow_effects hG hinv hmem (JobRow.due_state hp.2) h
    refine ⟨he, fun c' hc' => ?_⟩
    obtain ⟨hok, -, hds, hv⟩ := hc c' hc'
    exact ⟨hok, j, hmem, hp.1, hds, hv⟩

/-! ## Attempts -/

theorem insertAttempt_ok {attemptId jobId workerId : String} {attemptNo : Nat}
    (h : insertAttempt attemptId jobId attemptNo workerId now db = .ok db') :
    (∀ a ∈ db.attempts, a.attemptId ≠ attemptId) ∧ db' = { db with
      attempts := db.attempts ++ [{
        attemptId, jobId, attemptNo, status := .running, workerId, error := none, startedAt := now
        heartbeatAt := now, completedAt := none }] } := by
  simp only [insertAttempt, bind_ok, require_ok, Except.ok.injEq] at h
  obtain ⟨-, hid, -, -, rfl⟩ := h
  exact ⟨hid, rfl⟩

theorem insertRun_ok {handle : RunHandle} {hash : String} {trigger : Trigger}
    (h : insertRun handle hash trigger now db = .ok db') :
    (∀ r ∈ db.runs, r.runId ≠ handle.runId) ∧ (∀ r ∈ db.runs, r.attemptId ≠ handle.attemptId) ∧
      ∃ r : RunRow, r.runId = handle.runId ∧ r.attemptId = handle.attemptId ∧
        r.jobId = handle.jobId ∧ r.datasourceId = handle.datasourceId ∧
        r.definitionVersion = handle.definitionVersion ∧ r.lane = handle.lane ∧
        r.status = .running ∧ r.snapshotScopeHash = none ∧
        db' = { db with runs := db.runs ++ [r] } := by
  simp only [insertRun, bind_ok, require_ok, Except.ok.injEq] at h
  obtain ⟨-, hid, -, hattempt, -, -, rfl⟩ := h
  exact ⟨hid, hattempt, _, rfl, rfl, rfl, rfl, rfl, rfl, rfl, rfl, rfl⟩

/-- The one job a lease condition selects. -/
theorem leasedBy_find {jobId token : String} {state : JobState} {j : JobRow}
    (h : db.jobs.find? (JobRow.leasedBy jobId token state now) = some j) :
    j ∈ db.jobs ∧ j.jobId = jobId ∧ j.claimToken = some token ∧ j.state = state := by
  obtain ⟨h₁, h₂, h₃, -⟩ := JobRow.leasedBy_iff.mp (List.find?_some h)
  exact ⟨List.mem_of_find?_eq_some h, h₁, h₂, h₃⟩

/-- Updating by a lease condition is updating by the key of the job it selects. -/
theorem updateWhere_leasedBy (hinv : db.Leases) {jobId token : String} {state : JobState}
    {j : JobRow} {f : JobRow → JobRow} (hj : j ∈ db.jobs)
    (hleased : j.leasedBy jobId token state now = true) :
    updateWhere (JobRow.leasedBy jobId token state now) f db.jobs =
      updateWhere (fun i => i.jobId = j.jobId) f db.jobs := by
  refine hinv.jobs_keyed.updateWhere_eq_key hj hleased (fun i hi => ?_) rfl
  exact (JobRow.leasedBy_iff.mp hi).1.trans (JobRow.leasedBy_iff.mp hleased).1.symm

/-- Releasing a job under a condition that selects it: the row released is that job, whose own
availability the release may keep. -/
theorem updateWhere_release (hinv : db.Leases) {j : JobRow} (hj : j ∈ db.jobs) {p : JobRow → Bool}
    (hp : p j = true) (hkey : ∀ i, p i = true → i.jobId = j.jobId) {state : JobState}
    {completedAt heartbeatAt : Option Time} {error : Option Json} {availableAt : JobRow → Time} :
    updateWhere p (fun i => i.release state completedAt (availableAt i) heartbeatAt error) db.jobs =
      updateWhere (fun i => i.jobId = j.jobId)
        (JobRow.release state completedAt (availableAt j) heartbeatAt error) db.jobs :=
  hinv.jobs_keyed.updateWhere_eq_key hj hp hkey rfl

theorem startRun_effects (hG : G.clock now) (hinv : StoreInv env db) {claim : ClaimedJob}
    {workerId : String} {handle : RunHandle} (hclaim : ClaimOk env db claim)
    (h : startRun env claim workerId now db = .ok (handle, db')) :
    Effects env G db db' ∧ RunOk db' handle ∧ claim.datasourceId = some handle.datasourceId ∧
      claim.definitionVersion = some handle.definitionVersion := by
  unfold startRun at h
  split at h
  · next datasourceId definitionVersion lane hds hv hlane =>
    simp only [bind_ok, require_ok, orThrow_ok, Except.ok.injEq, Prod.mk.injEq] at h
    obtain ⟨j, hfind, -, hbudget, -, -, db₁, hattempt, hash, -, db₂, hrun, rfl, rfl⟩ := h
    obtain ⟨hj, hjid, -, hjs⟩ := leasedBy_find hfind
    obtain ⟨hnewAttempt, rfl⟩ := insertAttempt_ok hattempt
    obtain ⟨hnewRun, hnewRunAttempt, r, hr₁, hr₂, hr₃, hr₄, hr₅, hr₆, hr₇, hr₈, rfl⟩ :=
      insertRun_ok hrun
    obtain ⟨i, hi, hiid, hids, hiv, -⟩ := hclaim.job
    have hij : i = j := hinv.leases.jobs_keyed.eq_of_mem hi hj (hiid.trans hjid.symm)
    subst hij
    refine ⟨?_, ⟨r, by simp, hr₁, hr₂, hr₃, hr₄, hr₅, hr₆⟩, hds, hv⟩
    have e := @Effect.start env G now db i
      { attemptId := env.newId "attempt" db.drawn, jobId := claim.jobId
        attemptNo := i.attemptCount + 1, status := .running, workerId, error := none
        startedAt := now, heartbeatAt := now, completedAt := none } r hi hjs
      (hids.trans (hds.trans (congrArg some hr₄.symm)))
      (hiv.trans (hv.trans (congrArg some hr₅.symm))) hjid.symm rfl hnewAttempt hr₂
      (hr₃.trans hjid.symm) hr₇ hr₈ (fun s hs => hr₁ ▸ hnewRun s hs)
      (fun s hs => hnewRunAttempt s hs) rfl hbudget
    rw [updateWhere_leasedBy hinv.leases hj (List.find?_some hfind)]
    exact ((Effects.one hG e).then hG (.draw _)).then hG (.draw _)
  · cases h

theorem startSystemJob_effects (hG : G.clock now) (hinv : StoreInv env db) {claim : ClaimedJob}
    {workerId : String} {handle : SystemJobHandle} (hclaim : ClaimOk env db claim)
    (h : startSystemJob env claim workerId now db = .ok (handle, db')) :
    Effects env G db db' ∧ SysOk env db' handle := by
  simp only [startSystemJob, bind_ok, require_ok, orThrow_ok, Except.ok.injEq, Prod.mk.injEq] at h
  obtain ⟨-, ⟨hnone, -⟩, -, -, j, hfind, -, hbudget, -, -, db₁, hattempt, rfl, rfl⟩ := h
  obtain ⟨hj, hjid, htoken, hjs⟩ := leasedBy_find hfind
  obtain ⟨hnewAttempt, rfl⟩ := insertAttempt_ok hattempt
  obtain ⟨i, hi, hiid, hids, -⟩ := hclaim.job
  have hij : i = j := hinv.leases.jobs_keyed.eq_of_mem hi hj (hiid.trans hjid.symm)
  subst hij
  rw [updateWhere_leasedBy hinv.leases hj (List.find?_some hfind)]
  refine ⟨?_, ⟨⟨_, List.mem_append_right _ (List.mem_singleton_self _), rfl, rfl, ?_⟩, ?_, ?_⟩⟩
  · exact (Effects.one hG (.startSystem db i _ hi hjs (hids.trans hnone) hjid.symm rfl
      hnewAttempt rfl hbudget)).then hG (.draw _)
  · intro k hk hkid _
    rcases (hinv.leases.jobs_keyed.mem_updateWhere_key hi).mp hk with rfl | ⟨-, hne⟩
    · exact ⟨rfl, rfl⟩
    · exact absurd (hkid.trans hjid.symm) hne
  · exact ⟨_, (hinv.leases.jobs_keyed.mem_updateWhere_key hi).mpr (Or.inl rfl), hjid,
      hids.trans hnone⟩
  · obtain ⟨n, hn, hc⟩ := hclaim.issued
    exact ⟨n, Nat.lt_succ_of_lt hn, hc⟩

/-- A system attempt's terminal status leaves its job idle. -/
theorem systemJobState_idle {j : JobRow} {status : AttemptStatus} :
    systemJobState j status ≠ .claimed ∧ systemJobState j status ≠ .running := by
  unfold systemJobState
  repeat' split
  all_goals simp

/-- A system job waits for another attempt only while it has one left, and is otherwise complete. -/
theorem systemJobState_next {j : JobRow} {status : AttemptStatus} :
    (systemJobState j status = .retryWait ∧ j.attemptCount < j.maxAttempts) ∨
      (systemJobState j status).terminal = true := by
  unfold systemJobState
  split
  · exact Or.inr rfl
  · exact Or.inr rfl
  · split
    · next hbudget => exact Or.inl ⟨rfl, hbudget⟩
    · exact Or.inr rfl

/-- The attempt of a system job has no run. -/
theorem no_run_of_system (hinv : db.Leases) {j : JobRow} {a : AttemptRow} (hj : j ∈ db.jobs)
    (hsystem : j.datasourceId = none) (ha : a ∈ db.attempts) (haj : a.jobId = j.jobId) :
    ∀ r ∈ db.runs, r.attemptId ≠ a.attemptId := by
  intro r hr hra
  obtain ⟨b, hb, hbr, hbj, -⟩ := hinv.run_attempt r hr
  have hba : b = a := hinv.attempts_keyed.eq_of_mem hb ha (hbr.trans hra)
  exact hinv.run_job r hr j hj (by rw [← hbj, hba, haj]) hsystem

theorem finishSystemJob_effects (hG : G.clock now) (hinv : StoreInv env db)
    {handle : SystemJobHandle} {status : AttemptStatus} {error : Option (List (String × Json))}
    {u : Unit} (hok : SysOk env db handle)
    (h : finishSystemJob env handle status error now db = .ok (u, db')) : Effects env G db db' := by
  simp only [finishSystemJob, bind_ok, require_ok, orThrow_ok, Except.ok.injEq, Prod.mk.injEq] at h
  obtain ⟨-, hstatus, j, hfind, retryAt, -, err, -, -, rfl⟩ := h
  obtain ⟨hj, hjid, htoken, hjs⟩ := leasedBy_find hfind
  obtain ⟨a, ha, haa, haj, hall⟩ := hok.holds
  obtain ⟨-, has⟩ := hall j hj hjid htoken
  obtain ⟨k, hk, hkid, hsystem⟩ := hok.system
  rw [hinv.leases.jobs_keyed.eq_of_mem hk hj (hkid.trans hjid.symm)] at hsystem
  have hajob : a.jobId = j.jobId := haj.trans hjid.symm
  have hcompleted : (if systemJobState j status = .retryWait then none else some now).isSome =
      (systemJobState j status).terminal := by
    rcases systemJobState_next with ⟨hs, -⟩ | hs
    · rw [hs]
      rfl
    · rw [hs, if_neg fun hwait => by rw [hwait] at hs; cases hs]
      rfl
  have hretried : (systemJobState j status).terminal = false → j.attemptCount < j.maxAttempts := by
    rcases systemJobState_next with ⟨-, hbudget⟩ | hs
    · exact fun _ => hbudget
    · exact fun hwait => by rw [hs] at hwait; cases hwait
  have e := @Effect.close env G now db j a status (systemJobState j status)
    (if systemJobState j status = .retryWait then none else some now)
    (if systemJobState j status = .retryWait then retryAt else j.availableAt) (some now) err none
    db.drawn hj hjs ha hajob has (by rcases hstatus with rfl | rfl | rfl <;> simp)
    systemJobState_idle le_rfl (fun _ hp => by cases hp) hcompleted hretried
  rw [Option.toList_none, List.append_nil, updateWhere_eq_self (f := RunRow.close status now)
    (fun r hr => by simpa using no_run_of_system hinv.leases hj hsystem ha hajob r hr)] at e
  rw [updateWhere_release hinv.leases hj (by simp [hjid, htoken, hjs]) (by simp +contextual [hjid]),
    hinv.leases.attempts_keyed.updateWhere_eq_key ha (by simp [haa, has])
      (by simp +contextual [haa]) rfl]
  exact Effects.one hG e

/-! ## Heartbeat and cancellation -/

theorem heartbeat_effects (hG : G.clock now) (hinv : StoreInv env db) {run : RunHandle}
    {leaseSeconds : Int} {u : Unit} (h : heartbeat run now leaseSeconds db = .ok (u, db')) :
    Effects env G db db' := by
  simp only [heartbeat, bind_ok, require_ok, Except.ok.injEq, Prod.mk.injEq] at h
  obtain ⟨expires, -, -, hcount, -, rfl⟩ := h
  obtain ⟨j, hj, hleased⟩ := rowcount_eq_one hcount
  rw [updateWhere_leasedBy hinv.leases hj hleased]
  exact Effects.one hG (.heartbeat db j run.attemptId expires hj (JobRow.leasedBy_iff.mp hleased).2.2.1)

theorem cancel_effects (hG : G.clock now) (hinv : StoreInv env db) {jobId actorId : String}
    {b : Bool} (hpermitted : ∀ j ∈ db.jobs, j.jobId = jobId → G.cancellable j)
    (h : cancel jobId actorId now db = .ok (b, db')) : Effects env G db db' := by
  simp only [cancel, Except.ok.injEq, Prod.mk.injEq] at h
  obtain ⟨-, rfl⟩ := h
  by_cases hex : ∃ j ∈ db.jobs,
      j.jobId = jobId ∧ (j.state = .queued ∨ j.state = .retryWait ∨ j.state = .claimed)
  · obtain ⟨j, hj, hjid, hstate⟩ := hex
    rw [hinv.leases.jobs_keyed.updateWhere_eq_key hj (by simp [hjid, hstate])
      (by simp +contextual [hjid]) rfl]
    exact Effects.one hG (.cancel db j actorId hj hstate (hpermitted j hj hjid))
  · rw [updateWhere_eq_self]
    · exact Relation.ReflTransGen.refl
    · intro j hj
      have : ¬ (j.jobId = jobId ∧ (j.state = .queued ∨ j.state = .retryWait ∨ j.state = .claimed)) :=
        fun hc => hex ⟨j, hj, hc⟩
      simpa using this

end NanFung
