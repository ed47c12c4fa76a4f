import NanFung.Reference

/-!
# Handles

What a handle says about the store stays true for as long as a worker keeps it, however stale it
becomes: a claim and a run handle name rows that are never removed, and a system handle's attempt is
running whenever its token is still the job's. The last needs fresh claim tokens to be new, which is
where distinct identifier draws are used.
-/

namespace NanFung

open Table

variable {env : Env} {G : Guard} {t : Time} {db db' : Db}

/-! ## Claims -/

/-- A claim token drawn earlier. -/
def Issued (env : Env) (db : Db) (token : String) : Prop :=
  ∃ n < db.drawn, token = env.newId "claim" n

/-- What a `ClaimedJob` says about the store. -/
structure ClaimOk (env : Env) (db : Db) (c : ClaimedJob) : Prop where
  job : ∃ j ∈ db.jobs, j.jobId = c.jobId ∧ j.datasourceId = c.datasourceId ∧
    j.definitionVersion = c.definitionVersion ∧ j.lane = c.lane
  issued : Issued env db c.claimToken

/-- What a `RunHandle` says about the store. -/
def RunOk (db : Db) (h : RunHandle) : Prop :=
  ∃ r ∈ db.runs, r.runId = h.runId ∧ r.attemptId = h.attemptId ∧ r.jobId = h.jobId ∧
    r.datasourceId = h.datasourceId ∧ r.definitionVersion = h.definitionVersion ∧ r.lane = h.lane

/-- The attempt of a token is running whenever the token is still the job's. -/
def Holds (jobs : List JobRow) (attempts : List AttemptRow) (jobId token attemptId : String) :
    Prop :=
  ∃ a ∈ attempts, a.attemptId = attemptId ∧ a.jobId = jobId ∧
    ∀ j ∈ jobs, j.jobId = jobId → j.claimToken = some token →
      j.state = .running ∧ a.status = .running

/-- What a `SystemJobHandle` says about the store. -/
structure SysOk (env : Env) (db : Db) (h : SystemJobHandle) : Prop where
  holds : Holds db.jobs db.attempts h.jobId h.claimToken h.attemptId
  system : ∃ j ∈ db.jobs, j.jobId = h.jobId ∧ j.datasourceId = none
  issued : Issued env db h.claimToken

theorem Effect.drawn_le (e : Effect env G t db db') : db.drawn ≤ db'.drawn := by
  cases e with
  | close => assumption
  | draw | claim | evidence | revise | openReview | decideReview | promoteReview | revoke =>
    exact Nat.le_succ _
  | _ => exact le_rfl

theorem Effect.issued (e : Effect env G t db db') {token : String} (h : Issued env db token) :
    Issued env db' token := by
  obtain ⟨n, hn, rfl⟩ := h
  exact ⟨n, lt_of_lt_of_le hn e.drawn_le, rfl⟩

/-- A job row keeps its identity. -/
theorem Effect.mem_jobs (e : Effect env G t db db') {j : JobRow} (hj : j ∈ db.jobs) :
    ∃ i ∈ db'.jobs, i.jobId = j.jobId ∧ i.dedupeKey = j.dedupeKey ∧
      i.datasourceId = j.datasourceId ∧ i.definitionVersion = j.definitionVersion ∧
      i.lane = j.lane := by
  cases e with
  | enqueue => exact ⟨j, List.mem_append_left _ hj, rfl, rfl, rfl, rfl, rfl⟩
  | claim | start | startSystem | heartbeat | requeue | cancel | close =>
    refine ⟨_, mem_updateWhere_of_mem hj, ?_⟩
    split <;> exact ⟨rfl, rfl, rfl, rfl, rfl⟩
  | _ => exact ⟨j, hj, rfl, rfl, rfl, rfl, rfl⟩

/-- A run row keeps its identity. -/
theorem Effect.mem_runs (e : Effect env G t db db') {r : RunRow} (hr : r ∈ db.runs) :
    ∃ s ∈ db'.runs, s.runId = r.runId ∧ s.attemptId = r.attemptId ∧ s.jobId = r.jobId ∧
      s.datasourceId = r.datasourceId ∧ s.definitionVersion = r.definitionVersion ∧
      s.lane = r.lane := by
  cases e with
  | start => exact ⟨r, List.mem_append_left _ hr, rfl, rfl, rfl, rfl, rfl, rfl⟩
  | close | count | declareScope | completeSnapshot =>
    refine ⟨_, mem_updateWhere_of_mem hr, ?_⟩
    split <;> exact ⟨rfl, rfl, rfl, rfl, rfl, rfl⟩
  | _ => exact ⟨r, hr, rfl, rfl, rfl, rfl, rfl, rfl⟩

theorem Effect.claimOk (e : Effect env G t db db') {c : ClaimedJob} (h : ClaimOk env db c) :
    ClaimOk env db' c := by
  obtain ⟨j, hj, hid, hds, hv, hl⟩ := h.job
  obtain ⟨i, hi, hii, -, hid', hiv, hil⟩ := e.mem_jobs hj
  exact ⟨⟨i, hi, hii.trans hid, hid'.trans hds, hiv.trans hv, hil.trans hl⟩, e.issued h.issued⟩

theorem Effect.runOk (e : Effect env G t db db') {h : RunHandle} (hok : RunOk db h) :
    RunOk db' h := by
  obtain ⟨r, hr, h₁, h₂, h₃, h₄, h₅, h₆⟩ := hok
  obtain ⟨s, hs, g₁, g₂, g₃, g₄, g₅, g₆⟩ := e.mem_runs hr
  exact ⟨s, hs, g₁.trans h₁, g₂.trans h₂, g₃.trans h₃, g₄.trans h₄, g₅.trans h₅, g₆.trans h₆⟩

/-! ## System handles -/

section System

variable {jobs : List JobRow} {attempts : List AttemptRow} {jobId token attemptId : String}

/-- A job whose token is another one, or whose state stays, does not disturb a holder. -/
theorem Holds.updateJob (h : Holds jobs attempts jobId token attemptId) {p : JobRow → Bool}
    {f : JobRow → JobRow} (hid : ∀ i, (f i).jobId = i.jobId)
    (hf : ∀ i ∈ jobs, p i = true → (f i).claimToken = some token →
      i.claimToken = some token ∧ (i.state = .running → (f i).state = .running)) :
    Holds (updateWhere p f jobs) attempts jobId token attemptId := by
  obtain ⟨a, ha, haa, haj, hall⟩ := h
  refine ⟨a, ha, haa, haj, fun j hj hji htok => ?_⟩
  rcases mem_updateWhere.mp hj with ⟨i, hi, hp, rfl⟩ | ⟨hj, -⟩
  · obtain ⟨hit, hs⟩ := hf i hi hp htok
    obtain ⟨hrun, harun⟩ := hall i hi ((hid i).symm.trans hji) hit
    exact ⟨hs hrun, harun⟩
  · exact hall j hj hji htok

theorem Holds.updateAttempts (h : Holds jobs attempts jobId token attemptId)
    {p : AttemptRow → Bool} {f : AttemptRow → AttemptRow}
    (hid : ∀ a, (f a).attemptId = a.attemptId) (hjob : ∀ a, (f a).jobId = a.jobId)
    (hstatus : ∀ a ∈ attempts, p a = true → (f a).status = a.status ∨
      ∀ j ∈ jobs, j.jobId = a.jobId → j.claimToken ≠ some token) :
    Holds jobs (updateWhere p f attempts) jobId token attemptId := by
  obtain ⟨a, ha, haa, haj, hall⟩ := h
  refine ⟨_, mem_updateWhere_of_mem ha, ?_⟩
  split
  · next hp =>
    refine ⟨(hid a).trans haa, (hjob a).trans haj, fun j hj hji htok => ?_⟩
    obtain ⟨hrun, harun⟩ := hall j hj hji htok
    rcases hstatus a ha hp with hs | hn
    · exact ⟨hrun, hs.trans harun⟩
    · exact absurd htok (hn j hj (hji.trans haj.symm))
  · exact ⟨haa, haj, hall⟩

theorem Holds.appendAttempt (h : Holds jobs attempts jobId token attemptId) (a : AttemptRow) :
    Holds jobs (attempts ++ [a]) jobId token attemptId := by
  obtain ⟨b, hb, hrest⟩ := h
  exact ⟨b, List.mem_append_left _ hb, hrest⟩

theorem Holds.appendJob (h : Holds jobs attempts jobId token attemptId) {j : JobRow}
    (hj : j.claimToken = none) : Holds (jobs ++ [j]) attempts jobId token attemptId := by
  obtain ⟨a, ha, haa, haj, hall⟩ := h
  refine ⟨a, ha, haa, haj, fun i hi hii htok => ?_⟩
  rcases List.mem_append.mp hi with hi | hi
  · exact hall i hi hii htok
  · rw [List.mem_singleton.mp hi, hj] at htok
    exact nomatch htok

end System

theorem Effect.sysOk (hu : Function.Injective env.platform.uuid) (e : Effect env G t db db')
    (hleases : db.Leases) {h : SystemJobHandle} (hok : SysOk env db h) : SysOk env db' h := by
  obtain ⟨hholds, ⟨k, hk, hkid, hknone⟩, hissued⟩ := hok
  obtain ⟨k', hk', hkid', -, hknone', -⟩ := e.mem_jobs hk
  refine ⟨?_, ⟨k', hk', hkid'.trans hkid, hknone'.trans hknone⟩, e.issued hissued⟩
  obtain ⟨n, hn, htoken⟩ := hissued
  cases e with
  | enqueue j queued => exact hholds.appendJob queued.claimToken
  | claim j workerId expires job state =>
    refine hholds.updateJob (fun _ => rfl) fun i _ _ htok => ?_
    -- the token just drawn is none that was issued before
    have heq : env.newId "claim" db.drawn = env.newId "claim" n :=
      (Option.some.inj htok).trans htoken
    exact absurd (env.platform.newId_injective hu "claim" heq) (Nat.ne_of_gt hn)
  | start j a r job state | startSystem j a job state =>
    refine Holds.appendAttempt (hholds.updateJob ?_ ?_) a
    · exact fun _ => rfl
    · exact fun i _ _ htok => ⟨htok, fun _ => rfl⟩
  | heartbeat j attemptId expires job state =>
    refine Holds.updateAttempts (hholds.updateJob ?_ ?_) ?_ ?_ ?_
    · exact fun _ => rfl
    · exact fun i _ _ htok => ⟨htok, id⟩
    · exact fun _ => rfl
    · exact fun _ => rfl
    · exact fun _ _ _ => Or.inl rfl
  | requeue =>
    exact hholds.updateJob (fun _ => rfl) fun i _ _ htok => nomatch htok
  | cancel j actorId job state =>
    refine hholds.updateJob (fun _ => rfl) fun i hi hp htok => ⟨htok, fun hrun => ?_⟩
    have hij : i = j := hleases.jobs_keyed.eq_of_mem hi job (by simpa using hp)
    rw [hij] at hrun
    rcases state with hs | hs | hs <;> exact nomatch hs.symm.trans hrun
  | close j a status state completedAt availableAt heartbeatAt error promotion drawn job jobRunning
      attempt attemptJob =>
    refine Holds.updateAttempts (hholds.updateJob ?_ ?_) ?_ ?_ ?_
    · exact fun _ => rfl
    · exact fun i _ _ htok => nomatch htok
    · exact fun _ => rfl
    · exact fun _ => rfl
    · refine fun b hb hp => Or.inr fun i hi hib htok => ?_
      -- the job of the closed attempt has just lost its token
      rcases (hleases.jobs_keyed.mem_updateWhere_key job).mp hi with rfl | ⟨-, hne⟩
      · exact nomatch htok
      · have hba : b = a := hleases.attempts_keyed.eq_of_mem hb attempt (by simpa using hp)
        exact hne (hib.trans (hba ▸ attemptJob))
  | _ => exact hholds

end NanFung
