import NanFung.Effect

/-!
# The lease invariant

Jobs, attempts and runs agree on who is working: a job is running exactly while one attempt of it is,
a datasource job's attempts have one run each with the same status, and a job that is claimed or
running has a claim token. Every effect preserves this.
-/

namespace NanFung

open Table

/-- The lease invariant, on the three tables it is about. -/
structure LeaseInv (jobs : List JobRow) (attempts : List AttemptRow) (runs : List RunRow) : Prop where
  jobs_keyed : Keyed JobRow.jobId jobs
  attempts_keyed : Keyed AttemptRow.attemptId attempts
  runs_keyed : Keyed RunRow.runId runs
  runs_attempt_keyed : Keyed RunRow.attemptId runs
  attempt_job : ∀ a ∈ attempts, ∃ j ∈ jobs, j.jobId = a.jobId
  run_attempt : ∀ r ∈ runs,
    ∃ a ∈ attempts, a.attemptId = r.attemptId ∧ a.jobId = r.jobId ∧ a.status = r.status
  run_job : ∀ r ∈ runs, ∀ j ∈ jobs, j.jobId = r.jobId → j.datasourceId ≠ none
  attempt_run : ∀ a ∈ attempts, ∀ j ∈ jobs, j.jobId = a.jobId → j.datasourceId ≠ none →
    ∃ r ∈ runs, r.attemptId = a.attemptId
  job_running : ∀ j ∈ jobs, j.state = .running →
    ∃ a ∈ attempts, a.jobId = j.jobId ∧ a.status = .running
  attempt_running : ∀ a ∈ attempts, a.status = .running → ∀ j ∈ jobs, j.jobId = a.jobId →
    j.state = .running
  running_unique : ∀ a ∈ attempts, ∀ b ∈ attempts, a.status = .running → b.status = .running →
    a.jobId = b.jobId → a = b
  leased : ∀ j ∈ jobs, j.state = .claimed ∨ j.state = .running → j.claimToken ≠ none

namespace LeaseInv

variable {jobs : List JobRow} {attempts : List AttemptRow} {runs : List RunRow}

theorem empty : LeaseInv [] [] [] := by
  constructor <;> simp

/-! ## Changes of one job -/

/-- Insert a job that is neither claimed nor running. -/
theorem insertJob (h : LeaseInv jobs attempts runs) {j : JobRow} (hstate : j.state = .queued)
    (hnew : ∀ i ∈ jobs, i.jobId ≠ j.jobId) : LeaseInv (jobs ++ [j]) attempts runs := by
  have hattempt : ∀ a ∈ attempts, a.jobId ≠ j.jobId := by
    intro a ha hja
    obtain ⟨i, hi, hia⟩ := h.attempt_job a ha
    exact hnew i hi (hia.trans hja)
  refine ⟨h.jobs_keyed.append hnew, h.attempts_keyed, h.runs_keyed, h.runs_attempt_keyed, ?_,
    h.run_attempt, ?_, ?_, ?_, ?_, h.running_unique, ?_⟩
  · intro a ha
    obtain ⟨i, hi, hia⟩ := h.attempt_job a ha
    exact ⟨i, List.mem_append_left _ hi, hia⟩
  · intro r hr i hi hir
    obtain ⟨a, ha, -, haj, -⟩ := h.run_attempt r hr
    rcases List.mem_append.mp hi with hi | hi
    · exact h.run_job r hr i hi hir
    · rw [List.mem_singleton] at hi
      exact absurd (haj.trans (hir.symm.trans (congrArg _ hi))) (hattempt a ha)
  · intro a ha i hi hia
    rcases List.mem_append.mp hi with hi | hi
    · exact h.attempt_run a ha i hi hia
    · rw [List.mem_singleton] at hi
      exact absurd (hia.symm.trans (congrArg _ hi)) (hattempt a ha)
  · intro i hi hrun
    rcases List.mem_append.mp hi with hi | hi
    · exact h.job_running i hi hrun
    · rw [List.mem_singleton] at hi
      rw [hi, hstate] at hrun
      exact nomatch hrun
  · intro a ha hrun i hi hia
    rcases List.mem_append.mp hi with hi | hi
    · exact h.attempt_running a ha hrun i hi hia
    · rw [List.mem_singleton] at hi
      exact absurd (hia.symm.trans (congrArg _ hi)) (hattempt a ha)
  · intro i hi hs
    rcases List.mem_append.mp hi with hi | hi
    · exact h.leased i hi hs
    · rw [List.mem_singleton] at hi
      rw [hi, hstate] at hs
      exact absurd hs (by simp)

/-- Change a job that is not running, and does not become so. -/
theorem updateIdleJob (h : LeaseInv jobs attempts runs) {j : JobRow} {f : JobRow → JobRow}
    (hj : j ∈ jobs) (hid : ∀ i, (f i).jobId = i.jobId)
    (hds : ∀ i, (f i).datasourceId = i.datasourceId) (hbefore : j.state ≠ .running)
    (hafter : ∀ i, (f i).state ≠ .running)
    (hclaimed : ∀ i, (f i).state = .claimed → (f i).claimToken ≠ none) :
    LeaseInv (updateWhere (fun i => i.jobId = j.jobId) f jobs) attempts runs := by
  have hmem : ∀ i, i ∈ updateWhere (fun i => i.jobId = j.jobId) f jobs ↔
      i = f j ∨ (i ∈ jobs ∧ i.jobId ≠ j.jobId) := fun i =>
    h.jobs_keyed.mem_updateWhere_key hj
  have hsrc : ∀ i ∈ updateWhere (fun i => i.jobId = j.jobId) f jobs, ∃ k ∈ jobs,
      k.jobId = i.jobId ∧ k.datasourceId = i.datasourceId := by
    intro i hi
    rcases (hmem i).mp hi with rfl | ⟨hi, -⟩
    · exact ⟨j, hj, (hid j).symm, (hds j).symm⟩
    · exact ⟨i, hi, rfl, rfl⟩
  have hnone : ∀ a ∈ attempts, a.status = .running → a.jobId ≠ j.jobId := fun a ha hrun haj =>
    hbefore (h.attempt_running a ha hrun j hj haj.symm)
  refine ⟨h.jobs_keyed.updateWhere hid, h.attempts_keyed, h.runs_keyed, h.runs_attempt_keyed, ?_,
    h.run_attempt, ?_, ?_, ?_, ?_, h.running_unique, ?_⟩
  · intro a ha
    obtain ⟨i, hi, hia⟩ := h.attempt_job a ha
    by_cases hk : i.jobId = j.jobId
    · exact ⟨f j, (hmem _).mpr (Or.inl rfl), (hid j).trans (hk.symm.trans hia)⟩
    · exact ⟨i, (hmem _).mpr (Or.inr ⟨hi, hk⟩), hia⟩
  · intro r hr i hi hir
    obtain ⟨k, hk, hki, hkd⟩ := hsrc i hi
    exact hkd ▸ h.run_job r hr k hk (hki.trans hir)
  · intro a ha i hi hia hd
    obtain ⟨k, hk, hki, hkd⟩ := hsrc i hi
    exact h.attempt_run a ha k hk (hki.trans hia) (hkd ▸ hd)
  · intro i hi hrun
    rcases (hmem i).mp hi with rfl | ⟨hi, -⟩
    · exact absurd hrun (hafter j)
    · exact h.job_running i hi hrun
  · intro a ha hrun i hi hia
    rcases (hmem i).mp hi with rfl | ⟨hi, -⟩
    · exact absurd (hia.symm.trans (hid j)) (hnone a ha hrun)
    · exact h.attempt_running a ha hrun i hi hia
  · intro i hi hs
    rcases (hmem i).mp hi with rfl | ⟨hi, -⟩
    · exact hclaimed j (hs.resolve_right (hafter j))
    · exact h.leased i hi hs

/-! ## Changes that touch no status -/

/-- Change columns of runs that the invariant does not mention. -/
theorem updateRuns (h : LeaseInv jobs attempts runs) {p : RunRow → Bool} {f : RunRow → RunRow}
    (hid : ∀ r, (f r).runId = r.runId) (hattempt : ∀ r, (f r).attemptId = r.attemptId)
    (hjob : ∀ r, (f r).jobId = r.jobId) (hstatus : ∀ r, (f r).status = r.status) :
    LeaseInv jobs attempts (updateWhere p f runs) := by
  have hsrc : ∀ r ∈ updateWhere p f runs, ∃ s ∈ runs,
      s.attemptId = r.attemptId ∧ s.jobId = r.jobId ∧ s.status = r.status := by
    intro r hr
    rcases mem_updateWhere.mp hr with ⟨s, hs, -, rfl⟩ | ⟨hr, -⟩
    · exact ⟨s, hs, (hattempt s).symm, (hjob s).symm, (hstatus s).symm⟩
    · exact ⟨r, hr, rfl, rfl, rfl⟩
  refine ⟨h.jobs_keyed, h.attempts_keyed, h.runs_keyed.updateWhere hid,
    h.runs_attempt_keyed.updateWhere hattempt, h.attempt_job, ?_, ?_, ?_, h.job_running,
    h.attempt_running, h.running_unique, h.leased⟩
  · intro r hr
    obtain ⟨s, hs, hsa, hsj, hss⟩ := hsrc r hr
    obtain ⟨a, ha, haa, haj, has⟩ := h.run_attempt s hs
    exact ⟨a, ha, haa.trans hsa, haj.trans hsj, has.trans hss⟩
  · intro r hr j hj hjr
    obtain ⟨s, hs, -, hsj, -⟩ := hsrc r hr
    exact h.run_job s hs j hj (hjr.trans hsj.symm)
  · intro a ha j hj hja hd
    obtain ⟨r, hr, hra⟩ := h.attempt_run a ha j hj hja hd
    refine ⟨_, mem_updateWhere_of_mem hr, ?_⟩
    split
    · exact (hattempt r).trans hra
    · exact hra

/-- Change columns of attempts that the invariant does not mention. -/
theorem updateAttempts (h : LeaseInv jobs attempts runs) {p : AttemptRow → Bool}
    {f : AttemptRow → AttemptRow} (hid : ∀ a, (f a).attemptId = a.attemptId)
    (hjob : ∀ a, (f a).jobId = a.jobId) (hstatus : ∀ a, (f a).status = a.status) :
    LeaseInv jobs (updateWhere p f attempts) runs := by
  have hsrc : ∀ a ∈ updateWhere p f attempts, ∃ b ∈ attempts,
      b.attemptId = a.attemptId ∧ b.jobId = a.jobId ∧ b.status = a.status := by
    intro a ha
    rcases mem_updateWhere.mp ha with ⟨b, hb, -, rfl⟩ | ⟨ha, -⟩
    · exact ⟨b, hb, (hid b).symm, (hjob b).symm, (hstatus b).symm⟩
    · exact ⟨a, ha, rfl, rfl, rfl⟩
  have htgt : ∀ a ∈ attempts, ∃ b ∈ updateWhere p f attempts,
      b.attemptId = a.attemptId ∧ b.jobId = a.jobId ∧ b.status = a.status := by
    intro a ha
    refine ⟨_, mem_updateWhere_of_mem ha, ?_⟩
    split
    · exact ⟨hid a, hjob a, hstatus a⟩
    · exact ⟨rfl, rfl, rfl⟩
  have hkeyed := h.attempts_keyed.updateWhere (p := p) hid
  refine ⟨h.jobs_keyed, hkeyed, h.runs_keyed, h.runs_attempt_keyed, ?_, ?_, h.run_job, ?_, ?_, ?_,
    ?_, h.leased⟩
  · intro a ha
    obtain ⟨b, hb, -, hbj, -⟩ := hsrc a ha
    exact hbj ▸ h.attempt_job b hb
  · intro r hr
    obtain ⟨a, ha, haa, haj, has⟩ := h.run_attempt r hr
    obtain ⟨b, hb, hba, hbj, hbs⟩ := htgt a ha
    exact ⟨b, hb, hba.trans haa, hbj.trans haj, hbs.trans has⟩
  · intro a ha j hj hja hd
    obtain ⟨b, hb, hba, hbj, -⟩ := hsrc a ha
    obtain ⟨r, hr, hra⟩ := h.attempt_run b hb j hj (hja.trans hbj.symm) hd
    exact ⟨r, hr, hra.trans hba⟩
  · intro j hj hrun
    obtain ⟨a, ha, haj, has⟩ := h.job_running j hj hrun
    obtain ⟨b, hb, -, hbj, hbs⟩ := htgt a ha
    exact ⟨b, hb, hbj.trans haj, hbs.trans has⟩
  · intro a ha hrun j hj hja
    obtain ⟨b, hb, -, hbj, hbs⟩ := hsrc a ha
    exact h.attempt_running b hb (hbs.trans hrun) j hj (hja.trans hbj.symm)
  · intro a ha b hb hra hrb hab
    obtain ⟨a₀, ha₀, haa, haj, has⟩ := hsrc a ha
    obtain ⟨b₀, hb₀, hba, hbj, hbs⟩ := hsrc b hb
    have heq := h.running_unique a₀ ha₀ b₀ hb₀ (has.trans hra) (hbs.trans hrb)
      (haj.trans (hab.trans hbj.symm))
    exact hkeyed.eq_of_mem ha hb (haa.symm.trans (heq ▸ hba))

/-- Extend the lease of a running job. -/
theorem extendLease (h : LeaseInv jobs attempts runs) {p : JobRow → Bool} {f : JobRow → JobRow}
    (hid : ∀ i, (f i).jobId = i.jobId) (hds : ∀ i, (f i).datasourceId = i.datasourceId)
    (hstate : ∀ i, (f i).state = i.state) (htoken : ∀ i, (f i).claimToken = i.claimToken) :
    LeaseInv (updateWhere p f jobs) attempts runs := by
  have hsrc : ∀ i ∈ updateWhere p f jobs, ∃ j ∈ jobs, j.jobId = i.jobId ∧
      j.datasourceId = i.datasourceId ∧ j.state = i.state ∧ j.claimToken = i.claimToken := by
    intro i hi
    rcases mem_updateWhere.mp hi with ⟨j, hj, -, rfl⟩ | ⟨hi, -⟩
    · exact ⟨j, hj, (hid j).symm, (hds j).symm, (hstate j).symm, (htoken j).symm⟩
    · exact ⟨i, hi, rfl, rfl, rfl, rfl⟩
  refine ⟨h.jobs_keyed.updateWhere hid, h.attempts_keyed, h.runs_keyed, h.runs_attempt_keyed, ?_,
    h.run_attempt, ?_, ?_, ?_, ?_, h.running_unique, ?_⟩
  · intro a ha
    obtain ⟨j, hj, hja⟩ := h.attempt_job a ha
    refine ⟨_, mem_updateWhere_of_mem hj, ?_⟩
    split
    · exact (hid j).trans hja
    · exact hja
  · intro r hr i hi hir
    obtain ⟨j, hj, hji, hjd, -, -⟩ := hsrc i hi
    exact hjd ▸ h.run_job r hr j hj (hji.trans hir)
  · intro a ha i hi hia hd
    obtain ⟨j, hj, hji, hjd, -, -⟩ := hsrc i hi
    exact h.attempt_run a ha j hj (hji.trans hia) (hjd ▸ hd)
  · intro i hi hrun
    obtain ⟨j, hj, hji, -, hjs, -⟩ := hsrc i hi
    exact hji ▸ h.job_running j hj (hjs.trans hrun)
  · intro a ha hrun i hi hia
    obtain ⟨j, hj, hji, -, hjs, -⟩ := hsrc i hi
    exact hjs ▸ h.attempt_running a ha hrun j hj (hji.trans hia)
  · intro i hi hs
    obtain ⟨j, hj, -, -, hjs, hjt⟩ := hsrc i hi
    exact hjt ▸ h.leased j hj (hjs ▸ hs)

/-! ## Opening and closing an attempt -/

/-- Open an attempt of a claimed job, with a run exactly if it is a datasource job. -/
theorem openAttempt (h : LeaseInv jobs attempts runs) {j : JobRow} {f : JobRow → JobRow}
    {a : AttemptRow} {q : Option RunRow} (hj : j ∈ jobs) (hclaimed : j.state = .claimed)
    (hid : ∀ i, (f i).jobId = i.jobId) (hds : ∀ i, (f i).datasourceId = i.datasourceId)
    (hafter : ∀ i, (f i).state = .running) (htoken : ∀ i, (f i).claimToken = i.claimToken)
    (haj : a.jobId = j.jobId) (harun : a.status = .running)
    (hnew : ∀ b ∈ attempts, b.attemptId ≠ a.attemptId) (hrun : q.isSome ↔ j.datasourceId ≠ none)
    (hrow : ∀ r ∈ q, r.attemptId = a.attemptId ∧ r.jobId = j.jobId ∧ r.status = .running)
    (hnewRun : ∀ r ∈ q, ∀ s ∈ runs, s.runId ≠ r.runId) :
    LeaseInv (updateWhere (fun i => i.jobId = j.jobId) f jobs) (attempts ++ [a])
      (runs ++ q.toList) := by
  have hmem : ∀ i, i ∈ updateWhere (fun i => i.jobId = j.jobId) f jobs ↔
      i = f j ∨ (i ∈ jobs ∧ i.jobId ≠ j.jobId) := fun i => h.jobs_keyed.mem_updateWhere_key hj
  have hnone : ∀ b ∈ attempts, b.status = .running → b.jobId ≠ j.jobId := by
    intro b hb hbrun hbj
    have := h.attempt_running b hb hbrun j hj hbj.symm
    rw [hclaimed] at this
    exact nomatch this
  have hnewAttempt : ∀ r ∈ runs, r.attemptId ≠ a.attemptId := by
    intro r hr hra
    obtain ⟨b, hb, hba, -, -⟩ := h.run_attempt r hr
    exact hnew b hb (hba.trans hra)
  have hruns : Keyed RunRow.runId (runs ++ q.toList) ∧
      Keyed RunRow.attemptId (runs ++ q.toList) := by
    cases q with
    | none => simpa using ⟨h.runs_keyed, h.runs_attempt_keyed⟩
    | some r =>
      obtain ⟨hra, -, -⟩ := hrow r rfl
      exact ⟨h.runs_keyed.append (hnewRun r rfl),
        h.runs_attempt_keyed.append fun s hs => hra ▸ hnewAttempt s hs⟩
  refine ⟨h.jobs_keyed.updateWhere hid, h.attempts_keyed.append hnew, hruns.1, hruns.2, ?_, ?_, ?_,
    ?_, ?_, ?_, ?_, ?_⟩
  · intro b hb
    rcases List.mem_append.mp hb with hb | hb
    · obtain ⟨i, hi, hib⟩ := h.attempt_job b hb
      by_cases hk : i.jobId = j.jobId
      · exact ⟨f j, (hmem _).mpr (Or.inl rfl), (hid j).trans (hk.symm.trans hib)⟩
      · exact ⟨i, (hmem _).mpr (Or.inr ⟨hi, hk⟩), hib⟩
    · rw [List.mem_singleton] at hb
      exact ⟨f j, (hmem _).mpr (Or.inl rfl), by rw [hid, hb, haj]⟩
  · intro r hr
    rcases List.mem_append.mp hr with hr | hr
    · obtain ⟨b, hb, hbr⟩ := h.run_attempt r hr
      exact ⟨b, List.mem_append_left _ hb, hbr⟩
    · obtain ⟨hra, hrj, hrs⟩ := hrow r (Option.mem_toList.mp hr)
      exact ⟨a, by simp, hra.symm, haj.trans hrj.symm, harun.trans hrs.symm⟩
  · intro r hr i hi hir
    rcases List.mem_append.mp hr with hr | hr
    · rcases (hmem i).mp hi with rfl | ⟨hi, -⟩
      · rw [hds]
        exact h.run_job r hr j hj ((hid j).symm.trans hir)
      · exact h.run_job r hr i hi hir
    · obtain ⟨-, hrj, -⟩ := hrow r (Option.mem_toList.mp hr)
      rcases (hmem i).mp hi with rfl | ⟨-, hne⟩
      · rw [hds]
        exact hrun.mp (Option.isSome_of_mem (Option.mem_toList.mp hr))
      · exact absurd (hir.trans hrj) hne
  · intro b hb i hi hib hd
    rcases List.mem_append.mp hb with hb | hb
    · have hold : ∃ r ∈ runs, r.attemptId = b.attemptId := by
        rcases (hmem i).mp hi with rfl | ⟨hi, -⟩
        · exact h.attempt_run b hb j hj ((hid j).symm.trans hib) (hds j ▸ hd)
        · exact h.attempt_run b hb i hi hib hd
      obtain ⟨r, hr, hrb⟩ := hold
      exact ⟨r, List.mem_append_left _ hr, hrb⟩
    · rw [List.mem_singleton] at hb
      subst hb
      rcases (hmem i).mp hi with rfl | ⟨-, hne⟩
      · obtain ⟨r, hr⟩ := Option.isSome_iff_exists.mp (hrun.mpr (hds j ▸ hd))
        exact ⟨r, List.mem_append_right _ (Option.mem_toList.mpr hr), (hrow r hr).1⟩
      · exact absurd (hib.trans haj) hne
  · intro i hi hirun
    rcases (hmem i).mp hi with rfl | ⟨hi, -⟩
    · exact ⟨a, by simp, haj.trans (hid j).symm, harun⟩
    · obtain ⟨b, hb, hbi⟩ := h.job_running i hi hirun
      exact ⟨b, List.mem_append_left _ hb, hbi⟩
  · intro b hb hbrun i hi hib
    rcases (hmem i).mp hi with rfl | ⟨hi, hne⟩
    · exact hafter j
    · rcases List.mem_append.mp hb with hb | hb
      · exact h.attempt_running b hb hbrun i hi hib
      · rw [List.mem_singleton] at hb
        exact absurd (hib.trans (hb ▸ haj)) hne
  · intro b hb c hc hbrun hcrun hbc
    rcases List.mem_append.mp hb with hb | hb <;> rcases List.mem_append.mp hc with hc | hc
    · exact h.running_unique b hb c hc hbrun hcrun hbc
    · rw [List.mem_singleton] at hc
      exact absurd (hbc.trans (hc ▸ haj)) (hnone b hb hbrun)
    · rw [List.mem_singleton] at hb
      exact absurd (hbc.symm.trans (hb ▸ haj)) (hnone c hc hcrun)
    · rw [List.mem_singleton] at hb hc
      rw [hb, hc]
  · intro i hi hs
    rcases (hmem i).mp hi with rfl | ⟨hi, -⟩
    · rw [htoken]
      exact h.leased j hj (Or.inl hclaimed)
    · exact h.leased i hi hs

/-- Close the running attempt of a job, its run if it has one, and release the job. -/
theorem closeAttempt (h : LeaseInv jobs attempts runs) {j : JobRow} {a : AttemptRow}
    {f : JobRow → JobRow} {g : AttemptRow → AttemptRow} {k : RunRow → RunRow}
    {status : AttemptStatus} (hj : j ∈ jobs) (ha : a ∈ attempts) (haj : a.jobId = j.jobId)
    (harun : a.status = .running) (hid : ∀ i, (f i).jobId = i.jobId)
    (hds : ∀ i, (f i).datasourceId = i.datasourceId)
    (hafter : ∀ i, (f i).state ≠ .running ∧ (f i).state ≠ .claimed)
    (hgid : ∀ b, (g b).attemptId = b.attemptId) (hgj : ∀ b, (g b).jobId = b.jobId)
    (hgs : ∀ b, (g b).status = status) (hstatus : status ≠ .running)
    (hkid : ∀ r, (k r).runId = r.runId) (hka : ∀ r, (k r).attemptId = r.attemptId)
    (hkj : ∀ r, (k r).jobId = r.jobId) (hks : ∀ r, (k r).status = status) :
    LeaseInv (updateWhere (fun i => i.jobId = j.jobId) f jobs)
      (updateWhere (fun b => b.attemptId = a.attemptId) g attempts)
      (updateWhere (fun r => r.attemptId = a.attemptId) k runs) := by
  have hmem : ∀ i, i ∈ updateWhere (fun i => i.jobId = j.jobId) f jobs ↔
      i = f j ∨ (i ∈ jobs ∧ i.jobId ≠ j.jobId) := fun i => h.jobs_keyed.mem_updateWhere_key hj
  have hamem : ∀ b, b ∈ updateWhere (fun b => b.attemptId = a.attemptId) g attempts ↔
      b = g a ∨ (b ∈ attempts ∧ b.attemptId ≠ a.attemptId) := fun b =>
    h.attempts_keyed.mem_updateWhere_key ha
  have hsrc : ∀ i ∈ updateWhere (fun i => i.jobId = j.jobId) f jobs, ∃ i₀ ∈ jobs,
      i₀.jobId = i.jobId ∧ i₀.datasourceId = i.datasourceId := by
    intro i hi
    rcases (hmem i).mp hi with rfl | ⟨hi, -⟩
    · exact ⟨j, hj, (hid j).symm, (hds j).symm⟩
    · exact ⟨i, hi, rfl, rfl⟩
  have hasrc : ∀ b ∈ updateWhere (fun b => b.attemptId = a.attemptId) g attempts, ∃ b₀ ∈ attempts,
      b₀.attemptId = b.attemptId ∧ b₀.jobId = b.jobId := by
    intro b hb
    rcases (hamem b).mp hb with rfl | ⟨hb, -⟩
    · exact ⟨a, ha, (hgid a).symm, (hgj a).symm⟩
    · exact ⟨b, hb, rfl, rfl⟩
  -- the attempts still running are the old ones of other jobs
  have hstill : ∀ b ∈ updateWhere (fun b => b.attemptId = a.attemptId) g attempts,
      b.status = .running → b ∈ attempts ∧ b.jobId ≠ j.jobId := by
    intro b hb hbrun
    rcases (hamem b).mp hb with rfl | ⟨hb, hne⟩
    · exact absurd ((hgs a).symm.trans hbrun) hstatus
    · refine ⟨hb, fun hbj => hne ?_⟩
      rw [h.running_unique b hb a ha hbrun harun (hbj.trans haj.symm)]
  refine ⟨h.jobs_keyed.updateWhere hid, h.attempts_keyed.updateWhere hgid,
    h.runs_keyed.updateWhere hkid, h.runs_attempt_keyed.updateWhere hka, ?_, ?_, ?_, ?_, ?_, ?_, ?_,
    ?_⟩
  · intro b hb
    obtain ⟨b₀, hb₀, -, hbj⟩ := hasrc b hb
    obtain ⟨i, hi, hib⟩ := h.attempt_job b₀ hb₀
    by_cases hk : i.jobId = j.jobId
    · exact ⟨f j, (hmem _).mpr (Or.inl rfl), by rw [hid, ← hk, hib, hbj]⟩
    · exact ⟨i, (hmem _).mpr (Or.inr ⟨hi, hk⟩), hib.trans hbj⟩
  · intro r hr
    rcases mem_updateWhere.mp hr with ⟨r₀, hr₀, hra, rfl⟩ | ⟨hr, hra⟩
    · obtain ⟨b, hb, hbr, hbj, -⟩ := h.run_attempt r₀ hr₀
      have hba : b = a := h.attempts_keyed.eq_of_mem hb ha (hbr.trans (by simpa using hra))
      subst hba
      exact ⟨g b, (hamem _).mpr (Or.inl rfl), by rw [hgid, hka, hbr], by rw [hgj, hkj, hbj],
        by rw [hgs, hks]⟩
    · obtain ⟨b, hb, hbr, hbj⟩ := h.run_attempt r hr
      have hne : b.attemptId ≠ a.attemptId := by
        rw [hbr]
        simpa using hra
      exact ⟨b, (hamem _).mpr (Or.inr ⟨hb, hne⟩), hbr, hbj⟩
  · intro r hr i hi hir
    obtain ⟨i₀, hi₀, hii, hid₀⟩ := hsrc i hi
    rcases mem_updateWhere.mp hr with ⟨r₀, hr₀, -, rfl⟩ | ⟨hr, -⟩
    · exact hid₀ ▸ h.run_job r₀ hr₀ i₀ hi₀ (hii.trans (hir.trans (hkj r₀)))
    · exact hid₀ ▸ h.run_job r hr i₀ hi₀ (hii.trans hir)
  · intro b hb i hi hib hd
    obtain ⟨b₀, hb₀, hba, hbj⟩ := hasrc b hb
    obtain ⟨i₀, hi₀, hii, hid₀⟩ := hsrc i hi
    obtain ⟨r, hr, hrb⟩ := h.attempt_run b₀ hb₀ i₀ hi₀ (hii.trans (hib.trans hbj.symm)) (hid₀ ▸ hd)
    refine ⟨_, mem_updateWhere_of_mem hr, ?_⟩
    split
    · exact (hka r).trans (hrb.trans hba)
    · exact hrb.trans hba
  · intro i hi hirun
    rcases (hmem i).mp hi with rfl | ⟨hi, hne⟩
    · exact absurd hirun (hafter j).1
    · obtain ⟨b, hb, hbi, hbrun⟩ := h.job_running i hi hirun
      refine ⟨b, (hamem b).mpr (Or.inr ⟨hb, fun hba => hne ?_⟩), hbi, hbrun⟩
      rw [h.attempts_keyed.eq_of_mem hb ha hba] at hbi
      exact hbi.symm.trans haj
  · intro b hb hbrun i hi hib
    obtain ⟨hb, hne⟩ := hstill b hb hbrun
    rcases (hmem i).mp hi with rfl | ⟨hi, -⟩
    · exact absurd (hib.symm.trans (hid j)) hne
    · exact h.attempt_running b hb hbrun i hi hib
  · intro b hb c hc hbrun hcrun hbc
    exact h.running_unique b (hstill b hb hbrun).1 c (hstill c hc hcrun).1 hbrun hcrun hbc
  · intro i hi hs
    rcases (hmem i).mp hi with rfl | ⟨hi, -⟩
    · exact absurd hs (not_or.mpr ⟨(hafter j).2, (hafter j).1⟩)
    · exact h.leased i hi hs

end LeaseInv

/-- The lease invariant of a database. -/
def Db.Leases (db : Db) : Prop := LeaseInv db.jobs db.attempts db.runs

/-- Every effect preserves the lease invariant. -/
theorem Effect.leases {env : Env} {G : Guard} {t : Time} {db db' : Db} (e : Effect env G t db db')
    (h : db.Leases) : db'.Leases := by
  cases e with
  | enqueue j queued newId newKey => exact h.insertJob queued.state newId
  | claim j workerId expires job state =>
    refine h.updateIdleJob job (fun _ => rfl) (fun _ => rfl) ?_ (fun _ => ?_) (fun _ _ => ?_)
    · rcases state with hs | hs <;> simp [hs]
    · simp [JobRow.claim]
    · simp [JobRow.claim]
  | start j a r job state datasource version attemptJob attemptRunning newAttempt runAttempt runJob
      runRunning runScope newRun newRunAttempt =>
    refine h.openAttempt (q := some r) job state (fun _ => rfl) (fun _ => rfl) (fun _ => rfl)
      (fun _ => rfl) attemptJob attemptRunning newAttempt ?_ ?_ ?_
    · simp [datasource]
    · rintro s ⟨⟩
      exact ⟨runAttempt, runJob, runRunning⟩
    · rintro s ⟨⟩
      exact newRun
  | startSystem j a job state system attemptJob attemptRunning newAttempt =>
    have := h.openAttempt (f := JobRow.start (j.attemptCount + 1) t) (q := none) job state
      (fun _ => rfl) (fun _ => rfl) (fun _ => rfl) (fun _ => rfl) attemptJob attemptRunning newAttempt
      (by simp [system]) (fun _ hr => nomatch hr) (fun _ hr => nomatch hr)
    rw [Option.toList_none, List.append_nil] at this
    exact this
  | heartbeat j attemptId expires job state =>
    show LeaseInv _ _ _
    refine LeaseInv.updateAttempts (h.extendLease ?_ ?_ ?_ ?_) ?_ ?_ ?_
    all_goals exact fun _ => rfl
  | requeue j availableAt error job state =>
    refine h.updateIdleJob job (fun _ => rfl) (fun _ => rfl) (by simp [state]) (fun _ => ?_)
      (fun _ hs => ?_)
    · simp [JobRow.release]
    · exact nomatch hs
  | cancel j actorId job state =>
    refine h.updateIdleJob job (fun _ => rfl) (fun _ => rfl) ?_ (fun _ => by simp)
      (fun _ hs => nomatch hs)
    rcases state with hs | hs | hs <;> simp [hs]
  | close j a status state completedAt availableAt heartbeatAt error promotion drawn job jobRunning
      attempt attemptJob attemptRunning closed released later promoted =>
    exact h.closeAttempt job attempt attemptJob attemptRunning (fun _ => rfl) (fun _ => rfl)
      (fun _ => ⟨released.2, released.1⟩) (fun _ => rfl) (fun _ => rfl) (fun _ => rfl) closed
      (fun _ => rfl) (fun _ => rfl) (fun _ => rfl) (fun _ => rfl)
  | count | declareScope | completeSnapshot =>
    exact h.updateRuns (fun _ => rfl) (fun _ => rfl) (fun _ => rfl) (fun _ => rfl)
  | _ => exact h

end NanFung
