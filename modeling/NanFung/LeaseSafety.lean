import NanFung.Sample

/-!
# Lease safety

Any number of workers, any mixture of current and stale handles, any clocks: a job has at most one
running attempt, it is running exactly when that attempt (and, for a datasource job, that attempt's
run) is, and a call under a lease that is gone fails without writing.
-/

namespace NanFung

open Table

variable {env : Env} {db db' : Db}

/-! ## Attempts and runs of a job -/

/-- The running attempts of a job. -/
def Db.runningAttempts (db : Db) (j : JobRow) : List AttemptRow :=
  db.attempts.filter fun a => a.jobId = j.jobId ∧ a.status = .running

/-- The running ingestion runs of a job. -/
def Db.runningRuns (db : Db) (j : JobRow) : List RunRow :=
  db.runs.filter fun r => r.jobId = j.jobId ∧ r.status = .running

/-- Jobs, attempts and runs agree on who is working. -/
structure LeaseSafe (db : Db) : Prop where
  at_most_one : ∀ j ∈ db.jobs, (db.runningAttempts j).length ≤ 1
  running_iff : ∀ j ∈ db.jobs, j.state = .running ↔
    ∃ a, db.runningAttempts j = [a] ∧
      (j.datasourceId ≠ none → ∃ r, db.runningRuns j = [r] ∧ r.attemptId = a.attemptId)

theorem mem_runningAttempts {j : JobRow} {a : AttemptRow} :
    a ∈ db.runningAttempts j ↔ a ∈ db.attempts ∧ a.jobId = j.jobId ∧ a.status = .running := by
  simp [Db.runningAttempts]

theorem mem_runningRuns {j : JobRow} {r : RunRow} :
    r ∈ db.runningRuns j ↔ r ∈ db.runs ∧ r.jobId = j.jobId ∧ r.status = .running := by
  simp [Db.runningRuns]

/-- A running attempt of a job is its only one. -/
theorem Db.Leases.runningAttempts_eq (h : db.Leases) {j : JobRow} {a : AttemptRow}
    (ha : a ∈ db.runningAttempts j) : db.runningAttempts j = [a] := by
  have hmem := mem_runningAttempts.mp ha
  refine h.attempts_keyed.filter_eq_singleton hmem.1 (by simp [hmem.2]) fun b hb hp => ?_
  simp only [decide_eq_true_eq] at hp
  exact h.running_unique b hb a hmem.1 hp.2 hmem.2.2 (hp.1.trans hmem.2.1.symm)

/-- The run of the running attempt is the job's only running run. -/
theorem Db.Leases.runningRuns_eq (h : db.Leases) {j : JobRow} (hj : j ∈ db.jobs) {a : AttemptRow}
    (ha : a ∈ db.runningAttempts j) (hds : j.datasourceId ≠ none) :
    ∃ r, db.runningRuns j = [r] ∧ r.attemptId = a.attemptId := by
  obtain ⟨hamem, haj, has⟩ := mem_runningAttempts.mp ha
  -- a running run's attempt is running, hence the one at hand
  have hrun : ∀ s ∈ db.runs, s.jobId = j.jobId → s.status = .running → s.attemptId = a.attemptId := by
    intro s hs hsj hss
    obtain ⟨b, hb, hbs, hbj, hbst⟩ := h.run_attempt s hs
    rw [← hbs, h.running_unique b hb a hamem (hbst.trans hss) has
      ((hbj.trans hsj).trans haj.symm)]
  obtain ⟨r, hr, hra⟩ := h.attempt_run a hamem j hj haj.symm hds
  obtain ⟨b, hb, hbr, hbj, hbs⟩ := h.run_attempt r hr
  obtain rfl : b = a := h.attempts_keyed.eq_of_mem hb hamem (hbr.trans hra)
  refine ⟨r, h.runs_keyed.filter_eq_singleton hr ?_ fun s hs hp => ?_, hra⟩
  · simp [← hbj, haj, ← hbs, has]
  · simp only [decide_eq_true_eq] at hp
    exact h.runs_attempt_keyed.eq_of_mem hs hr ((hrun s hs hp.1 hp.2).trans hra.symm)

theorem Db.Leases.leaseSafe (h : db.Leases) : LeaseSafe db := by
  refine ⟨fun j _ => ?_, fun j hj => ⟨fun hs => ?_, ?_⟩⟩
  · cases hall : db.runningAttempts j with
    | nil => simp
    | cons a rest =>
      have ha : a ∈ db.runningAttempts j := by simp [hall]
      rw [← hall, h.runningAttempts_eq ha]
      exact le_rfl
  · obtain ⟨a, ha, haj, has⟩ := h.job_running j hj hs
    have hmem := mem_runningAttempts.mpr ⟨ha, haj, has⟩
    exact ⟨a, h.runningAttempts_eq hmem, h.runningRuns_eq hj hmem⟩
  · rintro ⟨a, hall, -⟩
    obtain ⟨ha, haj, has⟩ := mem_runningAttempts.mp (by simp [hall] : a ∈ db.runningAttempts j)
    exact h.attempt_running a ha has j hj haj.symm

/-! ## Calls under a lease that is gone -/

/-- The job, the claim token and the instant a worker's call is made under. -/
def Op.lease : Op → Option (String × String × Time)
  | .heartbeat h now _ | .persistEvidence h _ now | .persistObservation h _ now
  | .beginFullSnapshot h _ now | .finalizeFullSnapshot h _ now | .finishRun h _ now =>
    some (h.jobId, h.claimToken, now)
  | .finishSystemJob h _ _ now => some (h.jobId, h.claimToken, now)
  | _ => none

/-- The token is no longer the job's, or its lease has expired. -/
def Db.LeaseGone (db : Db) (jobId claimToken : String) (now : Time) : Prop :=
  ∀ j ∈ db.jobs, j.jobId = jobId → j.claimToken = some claimToken →
    ∀ expires ∈ j.leaseExpiresAt, expires ≤ now

theorem Db.LeaseGone.not_leased {jobId claimToken : String} {state : JobState} {now : Time}
    (h : db.LeaseGone jobId claimToken now) {j : JobRow} (hj : j ∈ db.jobs) :
    ¬ j.leasedBy jobId claimToken state now = true := by
  intro hleased
  obtain ⟨hid, htoken, -, expires, he, hlt⟩ := JobRow.leasedBy_iff.mp hleased
  exact absurd hlt (not_lt_of_ge (h j hj hid htoken expires he))

theorem Db.LeaseGone.not_running {run : RunHandle} {now : Time}
    (h : db.LeaseGone run.jobId run.claimToken now) {j : JobRow} {policy : Json} :
    requireRunningRun run now db ≠ .ok (j, policy) := fun hrun =>
  have hleased := (requireRunningRun_ok hrun).1
  h.not_leased hleased.1 hleased.2

/-- A transaction that cannot commit raises and writes nothing. -/
theorem rejected {α : Type} {t : Db → Except StoreError (α × Db)} {f : α → Reply}
    (h : ∀ r, t db ≠ .ok r) :
    ∃ e, (Proc.atomically t >>= fun a => pure (f a)).run db = (.error e, db) := by
  cases ht : t db with
  | ok r => exact absurd ht (h r)
  | error e => exact ⟨e, Proc.run_bind_of_error (Proc.run_atomically_of_error ht)⟩

/-- A worker's call under a lease that is gone raises and leaves the store unchanged. -/
theorem Op.rejected_of_leaseGone {op : Op} {jobId claimToken : String} {now : Time}
    (hlease : op.lease = some (jobId, claimToken, now)) (hgone : db.LeaseGone jobId claimToken now) :
    ∃ e, (op.exec env).run db = (.error e, db) := by
  cases op with
  | heartbeat run t leaseSeconds =>
    cases hlease
    refine rejected (f := fun _ => .done) fun r h => ?_
    simp only [NanFung.heartbeat, bind_ok, require_ok] at h
    obtain ⟨-, -, -, hcount, -⟩ := h
    obtain ⟨j, hj, hleased⟩ := rowcount_eq_one hcount
    exact hgone.not_leased hj hleased
  | persistEvidence run args t =>
    cases hlease
    refine rejected (f := .evidence) fun r h => ?_
    simp only [NanFung.persistEvidence, bind_ok] at h
    obtain ⟨_, -, _, -, _, -, h⟩ := h
    simp only [persistEvidenceTx, bind_ok] at h
    obtain ⟨_, hrun, -⟩ := h
    exact hgone.not_running hrun
  | persistObservation run args t =>
    cases hlease
    refine rejected (f := .observation) fun r h => ?_
    simp only [NanFung.persistObservation, bind_ok] at h
    obtain ⟨_, -, _, -, _, -, _, -, h⟩ := h
    simp only [persistObservationTx, bind_ok] at h
    obtain ⟨_, hrun, -⟩ := h
    exact hgone.not_running hrun
  | beginFullSnapshot run scope t =>
    cases hlease
    refine rejected (f := .scope) fun r h => ?_
    simp only [NanFung.beginFullSnapshot, bind_ok] at h
    obtain ⟨_, -, _, -, _, -, _, hrun, -⟩ := h
    exact hgone.not_running hrun
  | finalizeFullSnapshot run proof t =>
    cases hlease
    refine rejected (f := .tombstones) fun r h => ?_
    simp only [NanFung.finalizeFullSnapshot, bind_ok] at h
    obtain ⟨_, -, _, -, _, -, _, hrun, -⟩ := h
    exact hgone.not_running hrun
  | finishRun run args t =>
    cases hlease
    refine rejected (f := fun _ => .done) fun r h => ?_
    simp only [NanFung.finishRun, bind_ok] at h
    obtain ⟨_, -, _, -, _, -, _, -, _, -, _, hrun, -⟩ := h
    exact hgone.not_running hrun
  | finishSystemJob handle status error t =>
    cases hlease
    refine rejected (f := fun _ => .done) fun r h => ?_
    simp only [NanFung.finishSystemJob, bind_ok, orThrow_ok] at h
    obtain ⟨-, -, j, hfind, -⟩ := h
    exact hgone.not_leased (List.mem_of_find?_eq_some hfind) (List.find?_some hfind)
  | _ => cases hlease

/-! ## The theorem -/

/-- Lease safety: in every reachable store jobs, attempts and runs agree, and a worker's call whose
token is no longer the job's or whose lease has expired raises and leaves the store unchanged. -/
theorem lease_safety (hu : Function.Injective env.platform.uuid) {w : World}
    (h : Reachable env anyCall w) :
    LeaseSafe w.db ∧
      ∀ (op : Op) jobId claimToken now, op.lease = some (jobId, claimToken, now) →
        w.db.LeaseGone jobId claimToken now → ∃ e, (op.exec env).run w.db = (.error e, w.db) :=
  ⟨(h.sound hu).store.leases.leaseSafe, fun _ _ _ _ hlease hgone =>
    Op.rejected_of_leaseGone hlease hgone⟩

/-- On a store with a running job. -/
theorem lease_safety_started : LeaseSafe Sample.started.db ∧
    ∀ (op : Op) jobId claimToken now, op.lease = some (jobId, claimToken, now) →
      Sample.started.db.LeaseGone jobId claimToken now →
        ∃ e, (op.exec Sample.env).run Sample.started.db = (.error e, Sample.started.db) :=
  lease_safety Sample.uuid_injective Sample.started_reachable

end NanFung
