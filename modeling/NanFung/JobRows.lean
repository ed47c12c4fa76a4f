import NanFung.Sample

/-!
# Job rows

What each statement of the store may do to the row of a job, said once. From it: a row satisfies the
conditions `WorkflowJob.__post_init__` asks of the reference model for as long as nobody cancels a
job that a worker has claimed, and a job never leaves a terminal state.
-/

namespace NanFung

open Table

/-- Whether a job is in the hands of a worker. -/
def JobState.leased : JobState → Bool
  | .claimed | .running => true
  | _ => false

/-- What an effect may do to the row of a job. -/
inductive JobRow.Step (G : Guard) (t : Time) (j : JobRow) : JobRow → Prop
  | same : JobRow.Step G t j j
  | claim (token workerId : String) (expires : Time)
      (state : j.state = .queued ∨ j.state = .retryWait) :
      JobRow.Step G t j (j.claim token workerId t expires)
  | start (state : j.state = .claimed) (budget : j.attemptCount < j.maxAttempts) :
      JobRow.Step G t j (j.start (j.attemptCount + 1) t)
  | heartbeat (expires : Time) (state : j.state = .running) :
      JobRow.Step G t j { j with heartbeatAt := some t, leaseExpiresAt := some expires }
  | requeue (availableAt : Time) (error : Option Json) (state : j.state = .claimed) :
      JobRow.Step G t j (j.release .queued none availableAt none error)
  | cancel (actorId : String)
      (state : j.state = .queued ∨ j.state = .retryWait ∨ j.state = .claimed)
      (permitted : G.cancellable j) :
      JobRow.Step G t j { j with
        state := .cancelled
        completedAt := some t
        cancelRequestedAt := some t
        cancelRequestedBy := some actorId }
  | close (state : JobState) (completedAt : Option Time) (availableAt : Time)
      (heartbeatAt : Option Time) (error : Option Json) (running : j.state = .running)
      (released : state ≠ .claimed ∧ state ≠ .running)
      (completed : completedAt.isSome = state.terminal)
      (retried : state.terminal = false → j.attemptCount < j.maxAttempts) :
      JobRow.Step G t j (j.release state completedAt availableAt heartbeatAt error)

variable {env : Env} {G : Guard} {t : Time} {db db' : Db}

/-- A row after an update of one job. -/
theorem LeaseInv.step_of_mem {jobs : List JobRow} {attempts : List AttemptRow} {runs : List RunRow}
    (h : LeaseInv jobs attempts runs) {j i : JobRow} {f : JobRow → JobRow} (hj : j ∈ jobs)
    (hid : (f j).jobId = j.jobId) (hf : j.Step G t (f j))
    (hi : i ∈ updateWhere (fun k => k.jobId = j.jobId) f jobs) :
    ∃ k ∈ jobs, k.jobId = i.jobId ∧ k.Step G t i := by
  rcases (h.jobs_keyed.mem_updateWhere_key hj).mp hi with rfl | ⟨hi, -⟩
  · exact ⟨j, hj, hid.symm, hf⟩
  · exact ⟨i, hi, rfl, .same⟩

/-- Where a job row comes from: it is new, or the row of the same job before. -/
theorem Effect.job_step (e : Effect env G t db db') (h : db.Leases) {i : JobRow}
    (hi : i ∈ db'.jobs) :
    (i.Queued ∧ ∀ j ∈ db.jobs, j.jobId ≠ i.jobId) ∨
      ∃ j ∈ db.jobs, j.jobId = i.jobId ∧ j.Step G t i := by
  cases e with
  | enqueue j queued newId newKey =>
    rcases List.mem_append.mp hi with hi | hi
    · exact Or.inr ⟨i, hi, rfl, .same⟩
    · rw [List.mem_singleton] at hi
      subst hi
      exact Or.inl ⟨queued, newId⟩
  | claim j workerId expires job state =>
    exact Or.inr (h.step_of_mem job rfl (.claim _ workerId expires state) hi)
  | start j a r job state datasource version attemptJob attemptRunning newAttempt runAttempt runJob
      runRunning runScope newRun newRunAttempt number budget =>
    exact Or.inr (h.step_of_mem job rfl (.start state budget) hi)
  | startSystem j a job state system attemptJob attemptRunning newAttempt number budget =>
    exact Or.inr (h.step_of_mem job rfl (.start state budget) hi)
  | heartbeat j attemptId expires job state =>
    exact Or.inr (LeaseInv.step_of_mem (G := G) (t := t)
      (f := fun i => { i with heartbeatAt := some t, leaseExpiresAt := some expires }) h job rfl
      (.heartbeat expires state) hi)
  | requeue j availableAt error job state =>
    exact Or.inr (h.step_of_mem job rfl (.requeue availableAt error state) hi)
  | cancel j actorId job state permitted =>
    refine Or.inr (h.step_of_mem job ?_ ?_ hi)
    · rfl
    · exact .cancel actorId state permitted
  | close j a status state completedAt availableAt heartbeatAt error promotion drawn job jobRunning
      attempt attemptJob attemptRunning closed released later promoted completed retried =>
    exact Or.inr (h.step_of_mem job rfl
      (.close state completedAt availableAt heartbeatAt error jobRunning released completed retried) hi)
  | _ => exact Or.inr ⟨i, hi, rfl, .same⟩

/-- A property of rows that queued rows have and every step keeps holds of every row. -/
theorem Effects.all_jobs {P : JobRow → Prop} (hqueued : ∀ j : JobRow, j.Queued → P j)
    (hstep : ∀ (t : Time) (j i : JobRow), j.Step G t i → P j → P i) (es : Effects env G db db')
    (hinv : StoreInv env db) (h : ∀ j ∈ db.jobs, P j) : ∀ j ∈ db'.jobs, P j := by
  refine (es.preserve (I := fun s => StoreInv env s ∧ ∀ j ∈ s.jobs, P j) ?_ ⟨hinv, h⟩).2
  intro _ _ _ _ e hI
  refine ⟨e.storeInv hI.1, ?_⟩
  intro i hi
  rcases e.job_step hI.1.leases hi with ⟨hq, -⟩ | ⟨j, hj, -, hji⟩
  · exact hqueued i hq
  · exact hstep _ j i hji (hI.2 j hj)

/-! ## The representation invariant -/

/-- The conditions of `WorkflowJob.__post_init__` on claims and completion. -/
structure JobRow.Represents (j : JobRow) : Prop where
  claimToken : j.claimToken.isSome = j.state.leased
  claimedBy : j.claimedBy.isSome = j.state.leased
  claimedAt : j.claimedAt.isSome = j.state.leased
  leaseExpiresAt : j.leaseExpiresAt.isSome = j.state.leased
  completedAt : j.completedAt.isSome = j.state.terminal

instance (j : JobRow) : Decidable j.Represents :=
  decidable_of_iff (j.claimToken.isSome = j.state.leased ∧ j.claimedBy.isSome = j.state.leased ∧
      j.claimedAt.isSome = j.state.leased ∧ j.leaseExpiresAt.isSome = j.state.leased ∧
      j.completedAt.isSome = j.state.terminal)
    ⟨fun ⟨h₁, h₂, h₃, h₄, h₅⟩ => ⟨h₁, h₂, h₃, h₄, h₅⟩,
      fun ⟨h₁, h₂, h₃, h₄, h₅⟩ => ⟨h₁, h₂, h₃, h₄, h₅⟩⟩

/-- Jobs may be cancelled unless they are claimed. -/
def Guard.unclaimed : Guard := ⟨fun _ => True, fun _ _ => True, False, fun j => j.state ≠ .claimed⟩

theorem JobRow.Queued.represents {j : JobRow} (h : j.Queued) : j.Represents := by
  constructor
  · rw [h.claimToken, h.state]
    rfl
  · rw [h.claimedBy, h.state]
    rfl
  · rw [h.claimedAt, h.state]
    rfl
  · rw [h.leaseExpiresAt, h.state]
    rfl
  · rw [h.completedAt, h.state]
    rfl

/-- A released row has no claim column and, being neither claimed nor running, needs none. -/
theorem JobRow.represents_release {j : JobRow} {state : JobState} {completedAt : Option Time}
    (hreleased : state ≠ .claimed ∧ state ≠ .running)
    (hcompleted : completedAt.isSome = state.terminal) (availableAt : Time)
    (heartbeatAt : Option Time) (error : Option Json) :
    (j.release state completedAt availableAt heartbeatAt error).Represents := by
  have hidle : false = state.leased := by
    obtain ⟨hclaimed, hrunning⟩ := hreleased
    cases state <;> simp_all [JobState.leased]
  exact ⟨hidle, hidle, hidle, hidle, hcompleted⟩

/-- Every statement but a cancellation restores the conditions, and so does that of a job that is
not claimed. -/
theorem JobRow.Step.represents {j i : JobRow} (hs : j.Step Guard.unclaimed t i)
    (h : j.Represents) : i.Represents := by
  cases hs with
  | same => exact h
  | claim token workerId expires state =>
    have hopen : j.completedAt.isSome = false := by
      rw [h.completedAt]
      rcases state with hs | hs <;> rw [hs] <;> rfl
    exact ⟨rfl, rfl, rfl, rfl, hopen⟩
  | start state budget =>
    obtain ⟨h₁, h₂, h₃, h₄, h₅⟩ := h
    rw [state] at h₁ h₂ h₃ h₄ h₅
    exact ⟨h₁, h₂, h₃, h₄, h₅⟩
  | heartbeat expires state =>
    obtain ⟨h₁, h₂, h₃, h₄, h₅⟩ := h
    refine ⟨h₁, h₂, h₃, ?_, h₅⟩
    show true = j.state.leased
    rw [state]
    rfl
  | requeue availableAt error state => exact represents_release (by simp) rfl _ _ _
  | cancel actorId state permitted =>
    have hidle : j.state.leased = false := by
      rcases state with hs | hs | hs
      · rw [hs]
        rfl
      · rw [hs]
        rfl
      · exact absurd hs permitted
    obtain ⟨h₁, h₂, h₃, h₄, -⟩ := h
    rw [hidle] at h₁ h₂ h₃ h₄
    exact ⟨h₁, h₂, h₃, h₄, rfl⟩
  | close state completedAt availableAt heartbeatAt error running released completed retried =>
    exact represents_release released completed _ _ _

/-- The calls of a history in which nobody cancels a job while a worker has it claimed. -/
def cancelsUnclaimed (w : World) : Op → Prop
  | .cancel jobId _ _ => ∀ j ∈ w.db.jobs, j.jobId = jobId → j.state ≠ .claimed
  | _ => True

theorem cancelsUnclaimed.respects {w : World} {op : Op} (h : cancelsUnclaimed w op) :
    op.Respects env Guard.unclaimed w.db := by
  cases op with
  | cancel jobId => exact ⟨trivial, h⟩
  | _ => simp [Op.Respects, Guard.unclaimed]

/-- In every state of such a history every job row is what the job model asks for. -/
theorem jobs_represented (hu : Function.Injective env.platform.uuid) {w : World}
    (h : Reachable env cancelsUnclaimed w) : ∀ j ∈ w.db.jobs, j.Represents := by
  have he : Effects env Guard.unclaimed {} w.db :=
    (h.mono fun _ _ hcall => hcall.respects).effects hu (World.Sound.init env)
  refine he.all_jobs (fun _ hq => hq.represents) (fun _ _ _ hs hj => hs.represents hj)
    (StoreInv.empty env) ?_
  intro j hj
  exact nomatch hj

/-! ## A job that is started, and one that is abandoned -/

namespace Sample

theorem started_cancelsUnclaimed : Reachable Sample.env cancelsUnclaimed started := by
  have hclaimed : Reachable Sample.env cancelsUnclaimed claimed :=
    Continues.refl.calls (by simp [Op.Held, cancelsUnclaimed])
  exact hclaimed.callWith fun _ h => ⟨returned_claim h, trivial⟩

/-- The worker has claimed the job when an operator cancels it. -/
def abandoned : World :=
  claimed.callWith Sample.env claimReply fun c => .cancel c.jobId "operator" (tick 3)

theorem abandoned_reachable : Reachable Sample.env anyCall abandoned :=
  claimed_reachable.callWith fun _ _ => ⟨trivial, trivial⟩

/-- The cancelled job still has its claim token. -/
theorem abandoned_claimed : ∃ j ∈ abandoned.db.jobs, j.state = .cancelled ∧ j.claimToken.isSome := by
  decide +kernel

end Sample

theorem jobs_represented_started : Sample.started.db.jobs.map (·.state) = [.running] ∧
    ∀ j ∈ Sample.started.db.jobs, j.Represents :=
  ⟨by decide +kernel, jobs_represented Sample.uuid_injective Sample.started_cancelsUnclaimed⟩

/-- A cancelled job may keep the columns of its claim. -/
theorem not_jobs_represented : ¬ ∀ w, Reachable Sample.env anyCall w →
    ∀ j ∈ w.db.jobs, j.Represents := by
  intro hall
  obtain ⟨j, hj, hstate, htoken⟩ := Sample.abandoned_claimed
  have hclaim := (hall _ Sample.abandoned_reachable j hj).claimToken
  rw [hstate, htoken] at hclaim
  exact nomatch hclaim

end NanFung
