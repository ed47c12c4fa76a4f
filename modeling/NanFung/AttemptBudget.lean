import NanFung.JobRows

/-!
# The attempt budget

A job counts its attempts when they start and compares the count with its budget when they end. The
counter, the numbers of the attempt rows and the budget agree in every state, so that the checks at
the start of an attempt never fail, and a job that has reached a terminal state keeps it.
-/

namespace NanFung

open Table

variable {env : Env} {G : Guard} {t : Time} {db db' : Db}

/-! ## The counter and the budget -/

/-- A job waiting for a worker has an attempt left. -/
structure JobRow.InBudget (j : JobRow) : Prop where
  waiting : j.state = .queued ∨ j.state = .retryWait ∨ j.state = .claimed →
    j.attemptCount < j.maxAttempts
  bounded : j.attemptCount ≤ j.maxAttempts

theorem JobRow.Queued.inBudget {j : JobRow} (h : j.Queued) : j.InBudget := by
  have := h.budget
  constructor
  · intro _
    rw [h.attemptCount]
    exact this
  · rw [h.attemptCount]
    omega

theorem JobRow.Step.inBudget {j i : JobRow} (hs : j.Step G t i) (h : j.InBudget) :
    i.InBudget := by
  cases hs with
  | same => exact h
  | claim token workerId expires state =>
    have hwait := h.waiting (by tauto)
    exact ⟨fun _ => hwait, h.bounded⟩
  | start state budget => exact ⟨fun hs => by simp [JobRow.start] at hs, budget⟩
  | heartbeat expires state => exact ⟨h.waiting, h.bounded⟩
  | requeue availableAt error state =>
    have hwait := h.waiting (by tauto)
    exact ⟨fun _ => hwait, h.bounded⟩
  | cancel actorId state permitted => exact ⟨fun hs => by simp at hs, h.bounded⟩
  | close state completedAt availableAt heartbeatAt error running released completed retried =>
    refine ⟨?_, h.bounded⟩
    intro hwait
    apply retried
    change state = _ ∨ state = _ ∨ state = _ at hwait
    rcases hwait with rfl | rfl | rfl <;> rfl

/-! ## The attempt rows -/

/-- The attempts of each job are numbered from 1 up to the job's counter, in the order they were
started, and all but the last are closed. -/
structure Numbered (jobs : List JobRow) (attempts : List AttemptRow) : Prop where
  numbers : ∀ j ∈ jobs, (attempts.filter fun a => a.jobId = j.jobId).map (·.attemptNo) =
    List.range' 1 j.attemptCount
  closed : ∀ j ∈ jobs, ∀ a ∈ attempts, a.jobId = j.jobId → a.attemptNo < j.attemptCount →
    a.status ≠ .running

namespace Numbered

variable {jobs jobs' : List JobRow} {attempts : List AttemptRow}

/-- Change jobs without starting an attempt. -/
theorem mapJobs (h : Numbered jobs attempts)
    (hsrc : ∀ i ∈ jobs', ∃ j ∈ jobs, j.jobId = i.jobId ∧ j.attemptCount = i.attemptCount) :
    Numbered jobs' attempts := by
  constructor
  · intro i hi
    obtain ⟨j, hj, hid, hcount⟩ := hsrc i hi
    rw [← hid, ← hcount]
    exact h.numbers j hj
  · intro i hi a ha haj hlt
    obtain ⟨j, hj, hid, hcount⟩ := hsrc i hi
    rw [← hid] at haj
    rw [← hcount] at hlt
    exact h.closed j hj a ha haj hlt

/-- Change attempts without renumbering or reopening one. -/
theorem updateAttempts (h : Numbered jobs attempts) {p : AttemptRow → Bool}
    {f : AttemptRow → AttemptRow} (hjob : ∀ a, (f a).jobId = a.jobId)
    (hnumber : ∀ a, (f a).attemptNo = a.attemptNo)
    (hstatus : ∀ a, (f a).status = .running → a.status = .running) :
    Numbered jobs (updateWhere p f attempts) := by
  constructor
  · intro j hj
    rw [map_filter_updateWhere hjob hnumber fun k => decide (k = j.jobId)]
    exact h.numbers j hj
  · intro j hj a ha haj hlt hrun
    rcases mem_updateWhere.mp ha with ⟨b, hb, -, rfl⟩ | ⟨ha, -⟩
    · rw [hjob] at haj
      rw [hnumber] at hlt
      exact h.closed j hj b hb haj hlt (hstatus b hrun)
    · exact h.closed j hj a ha haj hlt hrun

/-- Insert a job that has no attempt. -/
theorem insertJob (h : Numbered jobs attempts) {j : JobRow} (hcount : j.attemptCount = 0)
    (hnone : ∀ a ∈ attempts, a.jobId ≠ j.jobId) : Numbered (jobs ++ [j]) attempts := by
  constructor
  · intro i hi
    rcases List.mem_append.mp hi with hi | hi
    · exact h.numbers i hi
    · rw [List.mem_singleton] at hi
      subst hi
      rw [List.filter_eq_nil_iff.mpr fun a ha => by simpa using hnone a ha, hcount]
      rfl
  · intro i hi a ha hai
    rcases List.mem_append.mp hi with hi | hi
    · exact h.closed i hi a ha hai
    · rw [List.mem_singleton] at hi
      subst hi
      exact absurd hai (hnone a ha)

/-- Start the next attempt of a job none of whose attempts is running. -/
theorem startAttempt (h : Numbered jobs attempts) (hkeyed : Keyed JobRow.jobId jobs) {j : JobRow}
    {a : AttemptRow} {f : JobRow → JobRow} (hj : j ∈ jobs) (hid : (f j).jobId = j.jobId)
    (hcount : (f j).attemptCount = j.attemptCount + 1) (haj : a.jobId = j.jobId)
    (hnumber : a.attemptNo = j.attemptCount + 1)
    (hidle : ∀ b ∈ attempts, b.jobId = j.jobId → b.status ≠ .running) :
    Numbered (updateWhere (fun i => i.jobId = j.jobId) f jobs) (attempts ++ [a]) := by
  have hmem : ∀ i, i ∈ updateWhere (fun i => i.jobId = j.jobId) f jobs ↔
      i = f j ∨ (i ∈ jobs ∧ i.jobId ≠ j.jobId) := fun i => hkeyed.mem_updateWhere_key hj
  constructor
  · intro i hi
    rw [List.filter_append, List.map_append]
    rcases (hmem i).mp hi with rfl | ⟨hi, hne⟩
    · rw [hid, hcount, h.numbers j hj, List.range'_1_concat, List.filter_singleton,
        decide_eq_true haj, cond_true, List.map_singleton, hnumber, Nat.add_comm 1]
    · rw [h.numbers i hi, List.filter_singleton,
        decide_eq_false fun h => hne (h.symm.trans haj), cond_false, List.map_nil, List.append_nil]
  · intro i hi b hb hbi hlt
    rcases (hmem i).mp hi with rfl | ⟨hi, hne⟩
    · rcases List.mem_append.mp hb with hb | hb
      · exact hidle b hb (hbi.trans hid)
      · rw [List.mem_singleton] at hb
        subst hb
        rw [hcount, hnumber] at hlt
        omega
    · rcases List.mem_append.mp hb with hb | hb
      · exact h.closed i hi b hb hbi hlt
      · rw [List.mem_singleton] at hb
        subst hb
        exact absurd (hbi.symm.trans haj) hne

end Numbered

/-- An update of one job that keeps its counter. -/
theorem counts_updateWhere {jobs : List JobRow} {p : JobRow → Bool} {f : JobRow → JobRow}
    (hid : ∀ j, (f j).jobId = j.jobId) (hcount : ∀ j, (f j).attemptCount = j.attemptCount) :
    ∀ i ∈ updateWhere p f jobs, ∃ j ∈ jobs, j.jobId = i.jobId ∧
      j.attemptCount = i.attemptCount := by
  intro i hi
  rcases mem_updateWhere.mp hi with ⟨j, hj, -, rfl⟩ | ⟨hi, -⟩
  · exact ⟨j, hj, (hid j).symm, (hcount j).symm⟩
  · exact ⟨i, hi, rfl, rfl⟩

/-- The attempts of a claimed job are closed. -/
theorem LeaseInv.idle_of_claimed (h : db.Leases) {j : JobRow} (hj : j ∈ db.jobs)
    (hclaimed : j.state = .claimed) :
    ∀ a ∈ db.attempts, a.jobId = j.jobId → a.status ≠ .running := by
  intro a ha haj hrun
  have hrunning := h.attempt_running a ha hrun j hj haj.symm
  rw [hclaimed] at hrunning
  exact nomatch hrunning

theorem Effect.numbered (e : Effect env G t db db') (hinv : db.Leases)
    (h : Numbered db.jobs db.attempts) : Numbered db'.jobs db'.attempts := by
  cases e with
  | enqueue j queued newId newKey =>
    apply h.insertJob queued.attemptCount
    intro a ha haj
    obtain ⟨i, hi, hia⟩ := hinv.attempt_job a ha
    exact newId i hi (hia.trans haj)
  | start j a r job state datasource version attemptJob attemptRunning newAttempt runAttempt runJob
      runRunning runScope newRun newRunAttempt number budget =>
    exact h.startAttempt hinv.jobs_keyed job rfl rfl attemptJob number
      (LeaseInv.idle_of_claimed hinv job state)
  | startSystem j a job state system attemptJob attemptRunning newAttempt number budget =>
    exact h.startAttempt hinv.jobs_keyed job rfl rfl attemptJob number
      (LeaseInv.idle_of_claimed hinv job state)
  | heartbeat =>
    refine (h.mapJobs (counts_updateWhere ?_ ?_)).updateAttempts ?_ ?_ ?_
    · exact fun _ => rfl
    · exact fun _ => rfl
    · exact fun _ => rfl
    · exact fun _ => rfl
    · exact fun _ hrun => hrun
  | close j a status state completedAt availableAt heartbeatAt error promotion drawn job jobRunning
      attempt attemptJob attemptRunning closed =>
    refine (h.mapJobs (counts_updateWhere ?_ ?_)).updateAttempts ?_ ?_ ?_
    · exact fun _ => rfl
    · exact fun _ => rfl
    · exact fun _ => rfl
    · exact fun _ => rfl
    · exact fun _ hrun => absurd hrun closed
  | claim | requeue | cancel =>
    refine h.mapJobs (counts_updateWhere ?_ ?_)
    · exact fun _ => rfl
    · exact fun _ => rfl
  | _ => exact h

/-! ## Terminal states -/

/-- A terminal row stays as it is. -/
theorem JobRow.Step.eq_of_terminal {j i : JobRow} (hs : j.Step G t i)
    (h : j.state.terminal = true) : i = j := by
  cases hs with
  | same => rfl
  | claim token workerId expires state => rcases state with hs | hs <;> simp [hs, JobState.terminal] at h
  | start state => simp [state, JobState.terminal] at h
  | heartbeat expires state => simp [state, JobState.terminal] at h
  | requeue availableAt error state => simp [state, JobState.terminal] at h
  | cancel actorId state => rcases state with hs | hs | hs <;> simp [hs, JobState.terminal] at h
  | close state completedAt availableAt heartbeatAt error running =>
    simp [running, JobState.terminal] at h

theorem Effect.mem_of_terminal (e : Effect env G t db db') (hinv : db.Leases) {j : JobRow}
    (hj : j ∈ db.jobs) (h : j.state.terminal = true) : j ∈ db'.jobs := by
  obtain ⟨i, hi, hij, -⟩ := e.mem_jobs hj
  rcases e.job_step hinv hi with ⟨-, hnew⟩ | ⟨k, hk, hki, hstep⟩
  · exact absurd hij.symm (hnew j hj)
  · have hkj : k = j := hinv.jobs_keyed.eq_of_mem hk hj (hki.trans hij)
    subst hkj
    exact hstep.eq_of_terminal h ▸ hi

/-! ## The starts that cannot fail -/

/-- Starting an attempt of a job in its budget does not exhaust the budget. -/
theorem startRun_budget (h : ∀ j ∈ db.jobs, j.InBudget) (claim : ClaimedJob) (workerId : String)
    (now : Time) : startRun env claim workerId now db ≠
      .error (.operational "job has exhausted its attempt budget") := by
  unfold startRun
  split
  · apply bind_ne (orThrow_ne (by simp))
    intro j hfind
    obtain ⟨hj, -, -, hstate⟩ := leasedBy_find (orThrow_ok.mp hfind)
    apply bind_ne (require_ne (Or.inl ((h j hj).waiting (Or.inr (Or.inr hstate)))))
    intro _ _
    apply bind_ne (require_ne (Or.inr (by simp)))
    intro _ _
    apply bind_ne
    · unfold insertAttempt
      apply bind_ne (require_ne (Or.inr (by simp)))
      intro _ _
      apply bind_ne (require_ne (Or.inr (by simp)))
      intro _ _
      simp
    · intro _ _
      apply bind_ne (orThrow_ne (by simp))
      intro _ _
      apply bind_ne
      · unfold insertRun
        apply bind_ne (require_ne (Or.inr (by simp)))
        intro _ _
        apply bind_ne (require_ne (Or.inr (by simp)))
        intro _ _
        apply bind_ne (require_ne (Or.inr (by simp)))
        intro _ _
        simp
      · intro _ _
        simp
  · simp

theorem startSystemJob_budget (h : ∀ j ∈ db.jobs, j.InBudget) (claim : ClaimedJob)
    (workerId : String) (now : Time) : startSystemJob env claim workerId now db ≠
      .error (.operational "system job exhausted its attempt budget") := by
  unfold startSystemJob
  apply bind_ne (require_ne (Or.inr (by simp)))
  intro _ _
  apply bind_ne (require_ne (Or.inr (by simp)))
  intro _ _
  apply bind_ne (orThrow_ne (by simp))
  intro j hfind
  obtain ⟨hj, -, -, hstate⟩ := leasedBy_find (orThrow_ok.mp hfind)
  apply bind_ne (require_ne (Or.inl ((h j hj).waiting (Or.inr (Or.inr hstate)))))
  intro _ _
  apply bind_ne (require_ne (Or.inr (by simp)))
  intro _ _
  apply bind_ne
  · unfold insertAttempt
    apply bind_ne (require_ne (Or.inr (by simp)))
    intro _ _
    apply bind_ne (require_ne (Or.inr (by simp)))
    intro _ _
    simp
  · intro _ _
    simp

/-! ## Every history -/

/-- The attempts of a job, in the order they were started. -/
def Db.attemptsOf (db : Db) (jobId : String) : List AttemptRow :=
  db.attempts.filter fun a => a.jobId = jobId

/-- Attempts are counted, numbered and bounded. -/
structure AttemptBudget (env : Env) (db : Db) : Prop where
  waiting : ∀ j ∈ db.jobs, j.state = .queued ∨ j.state = .retryWait ∨ j.state = .claimed →
    j.attemptCount < j.maxAttempts
  numbers : ∀ j ∈ db.jobs,
    (db.attemptsOf j.jobId).map (·.attemptNo) = List.range' 1 j.attemptCount
  closed : ∀ j ∈ db.jobs, ∀ a ∈ db.attemptsOf j.jobId, a.attemptNo < j.attemptCount →
    a.status ≠ .running
  bounded : ∀ j ∈ db.jobs, (db.attemptsOf j.jobId).length ≤ j.maxAttempts
  startRun : ∀ claim workerId now, NanFung.startRun env claim workerId now db ≠
    .error (.operational "job has exhausted its attempt budget")
  startSystemJob : ∀ claim workerId now, NanFung.startSystemJob env claim workerId now db ≠
    .error (.operational "system job exhausted its attempt budget")

/-- A job in a terminal state keeps it. -/
def TerminalKept (db db' : Db) : Prop :=
  ∀ j ∈ db.jobs, j.state.terminal = true → ∀ i ∈ db'.jobs, i.jobId = j.jobId → i.state = j.state

theorem Continues.terminalKept (hu : Function.Injective env.platform.uuid)
    {allowed : World → Op → Prop} {v w : World} (h : Continues env allowed v w)
    (hv : v.Sound env) : TerminalKept v.db w.db := by
  intro j hj hterminal i hi hij
  have he : Effects env Guard.any v.db w.db :=
    (h.mono fun _ op _ => Op.respects_any op _).effects hu hv
  have hkept := he.preserve (I := fun s => StoreInv env s ∧ j ∈ s.jobs)
    (fun _ e hI => ⟨e.storeInv hI.1, e.mem_of_terminal hI.1.leases hI.2 hterminal⟩) ⟨hv.store, hj⟩
  rw [hkept.1.leases.jobs_keyed.eq_of_mem hi hkept.2 hij]

/-- In every reachable state the attempts of every job are within its budget, and its terminal jobs
stay terminal in every state reached from it. -/
theorem attempt_budget (hu : Function.Injective env.platform.uuid) {w : World}
    (h : Reachable env anyCall w) :
    AttemptBudget env w.db ∧ ∀ v, Continues env anyCall w v → TerminalKept w.db v.db := by
  have hsound := h.sound hu
  have he : Effects env Guard.any {} w.db :=
    (h.mono fun _ op _ => Op.respects_any op _).effects hu (World.Sound.init env)
  have hbudget : ∀ j ∈ w.db.jobs, j.InBudget := by
    apply he.all_jobs (fun _ hq => hq.inBudget) (fun _ _ _ hs hj => hs.inBudget hj)
      (StoreInv.empty env)
    intro j hj
    exact nomatch hj
  have hnumbered : Numbered w.db.jobs w.db.attempts := by
    refine (he.preserve (I := fun s => StoreInv env s ∧ Numbered s.jobs s.attempts)
      (fun _ e hI => ⟨e.storeInv hI.1, e.numbered hI.1.leases hI.2⟩) ⟨StoreInv.empty env, ?_⟩).2
    constructor <;> simp
  refine ⟨⟨fun j hj => (hbudget j hj).waiting, hnumbered.numbers, ?_, ?_, ?_, ?_⟩,
    fun v hv => hv.terminalKept hu hsound⟩
  · intro j hj a ha
    obtain ⟨ha, haj⟩ := List.mem_filter.mp ha
    exact hnumbered.closed j hj a ha (of_decide_eq_true haj)
  · intro j hj
    have hlength := congrArg List.length (hnumbered.numbers j hj)
    rw [List.length_map, List.length_range'] at hlength
    exact hlength.le.trans (hbudget j hj).bounded
  · exact startRun_budget hbudget
  · exact startSystemJob_budget hbudget

theorem attempt_budget_started : AttemptBudget Sample.env Sample.started.db ∧
    ∀ v, Continues Sample.env anyCall Sample.started v → TerminalKept Sample.started.db v.db :=
  attempt_budget Sample.uuid_injective Sample.started_reachable

end NanFung
