import NanFung.Spec.Snapshots

/-!
# Procedures as chains of effects

The methods made of several transactions. Whatever they return or raise, and wherever they stop, the
database has moved by a chain of effects; the postconditions say what the handles they return are
worth.
-/

namespace NanFung

open Table

variable {env : Env} {G : Guard} {db db' : Db} {clock : Nat → Time}

/-! ## Transactions and draws -/

/-- A transaction whose commits are chains of effects keeps the store's invariant. -/
theorem atomically_spec {α : Type} {t : Db → Except StoreError (α × Db)} {P : Db → Prop}
    {Q : α → Db → Prop} (hP : ∀ s, P s → StoreInv env s)
    (h : ∀ s a s', P s → t s = .ok (a, s') → Effects env G s s' ∧ Q a s') :
    Proc.Spec (Effects env G) P (Proc.atomically t) fun a s => StoreInv env s ∧ Q a s :=
  Proc.Spec.atomically fun s a s' hs ht =>
    ⟨(h s a s' hs ht).1, (h s a s' hs ht).1.storeInv (hP s hs), (h s a s' hs ht).2⟩

theorem draw_spec {kind : String} {t : Time} (ht : G.clock t) {P : Db → Prop} :
    Proc.Spec (Effects env G) P (env.draw kind) fun id s =>
      ∃ s₀, P s₀ ∧ id = env.newId kind s₀.drawn ∧ s = { s₀ with drawn := s₀.drawn + 1 } :=
  fun s hs => ⟨Effects.one ht (.draw s), fun id hid => by
    cases hid
    exact ⟨s, hs, rfl, rfl⟩⟩

/-- `sync_registry` touches definitions and schedules only. -/
theorem syncRegistry_frame {now : Time} {u : Unit} (h : syncRegistry env now db = .ok (u, db')) :
    ∃ definitions schedules, db' = { db with definitions := definitions, schedules := schedules } := by
  let R : Db → Db → Prop := fun s s' =>
    ∃ definitions schedules, s' = { s with definitions := definitions, schedules := schedules }
  have hrefl : Std.Refl R := ⟨fun s => ⟨s.definitions, s.schedules, rfl⟩⟩
  have htrans : IsTrans Db R := ⟨by
    rintro s _ _ ⟨ds, ss, rfl⟩ ⟨ds', ss', rfl⟩
    exact ⟨ds', ss', rfl⟩⟩
  simp only [syncRegistry, bind_ok, Except.ok.injEq, Prod.mk.injEq, true_and] at h
  obtain ⟨db₁, h, rfl⟩ := h
  refine (foldlM_ok_rel (R := R) (I := fun _ => True) (fun d _ s s' _ hs => ⟨?_, trivial⟩) trivial h).1
  simp only [syncDefinition, bind_ok] at hs
  obtain ⟨s₁, h₁, hs⟩ := hs
  have hdefinition : R s s₁ := by
    unfold insertDefinition at h₁
    split at h₁
    · simp only [bind_ok, require_ok, Except.ok.injEq] at h₁
      obtain ⟨-, -, rfl⟩ := h₁
      exact ⟨_, _, rfl⟩
    · simp only [bind_ok, require_ok, Except.ok.injEq] at h₁
      obtain ⟨-, -, rfl⟩ := h₁
      exact ⟨_, _, rfl⟩
  refine htrans.trans _ _ _ hdefinition (foldlM_ok_rel (R := R) (I := fun _ => True)
    (fun sch _ v v' _ hv => ⟨?_, trivial⟩) trivial hs).1
  simp only [insertSchedule, bind_ok] at hv
  obtain ⟨id, -, rule, -, hash, -, hv⟩ := hv
  split at hv
  · cases hv
    exact ⟨_, _, rfl⟩
  · cases hv
    exact ⟨_, _, rfl⟩

/-! ## Submission -/

/-- No job holds the dedupe key of a submission. -/
def FreshKey (env : Env) (args : EnqueueArgs) (clock : Nat → Time) (jobs : List JobRow) : Prop :=
  ∀ plan dedupe, enqueuePlan env args (clock 1) = .ok plan →
    dedupeKey env args plan args.requestInstanceId = .ok dedupe →
      ∀ j ∈ jobs, j.dedupeKey ≠ dedupe

/-- A job of a definition. -/
def Db.HasJob (db : Db) (jobId datasourceId : String) (definitionVersion : Nat) : Prop :=
  ∃ j ∈ db.jobs, j.jobId = jobId ∧ j.datasourceId = some datasourceId ∧
    j.definitionVersion = some definitionVersion

theorem Effects.hasJob (es : Effects env G db db') {jobId datasourceId : String} {version : Nat}
    (h : db.HasJob jobId datasourceId version) : db'.HasJob jobId datasourceId version := by
  refine es.preserve (I := fun s => s.HasJob jobId datasourceId version) ?_ h
  rintro t s s' _ he ⟨j, hj, hid, hds, hv⟩
  obtain ⟨i, hi, hii, -, hids, hiv, -⟩ := he.mem_jobs hj
  exact ⟨i, hi, hii.trans hid, hids.trans hds, hiv.trans hv⟩

/-- The job a submission returned is one of the definition it names. -/
def JobOf (env : Env) (args : EnqueueArgs) (r : EnqueueResult) (s : Db) : Prop :=
  ∃ d, env.registry.lookup env.platform args.datasourceId args.definitionVersion = .ok d ∧
    s.HasJob r.jobId args.datasourceId d.definitionVersion

/-- What a plan consists of. -/
theorem enqueuePlan_ok {args : EnqueueArgs} {now : Time} {plan : EnqueuePlan}
    (h : enqueuePlan env args now = .ok plan) :
    env.registry.lookup env.platform args.datasourceId args.definitionVersion =
        .ok plan.definition ∧
      Trigger.ofName? args.trigger = some plan.trigger ∧
      plan.payload =
        env.platform.redactMembers (requestOrDefault args.request plan.definition) ∧
      env.platform.requestHash (.obj plan.payload) = .ok plan.payloadHash ∧
      plan.now = args.scheduledFor.getD now := by
  simp only [enqueuePlan, bind_ok, orThrow_ok, registryAsOperational_ok, Except.ok.injEq] at h
  obtain ⟨definition, hd, lane, -, -, -, trigger, ht, kind, -, -, -, -, -, -, -, -, -, -, -, hash,
    hhash, rfl⟩ := h
  exact ⟨hd, ht, rfl, hhash, rfl⟩

theorem enqueueTx_jobOf {args : EnqueueArgs} {now : Time} {plan : EnqueuePlan} {dedupe : String}
    {r : EnqueueResult} (hplan : enqueuePlan env args now = .ok plan)
    (hfresh : ∀ j ∈ db.jobs, j.dedupeKey ≠ dedupe)
    (h : enqueueTx env args plan dedupe db = .ok (r, db')) : JobOf env args r db' := by
  rw [enqueueTx, find?_key_eq_none.mpr hfresh] at h
  obtain ⟨request, -, rfl, -, -, -, rfl⟩ := acceptJob_ok h
  exact ⟨plan.definition, (enqueuePlan_ok hplan).1, _,
    List.mem_append_right _ (List.mem_singleton_self _), rfl, rfl, rfl⟩

theorem enqueue_spec (hG : ∀ n, G.clock (clock n)) {args : EnqueueArgs} (A : Prop) :
    Proc.Spec (Effects env G) (fun s => StoreInv env s ∧ (A → FreshKey env args clock s.jobs))
      (enqueue env args clock) fun r s => StoreInv env s ∧ (A → JobOf env args r s) := by
  refine Proc.Spec.bind (atomically_spec (Q := fun _ s => A → FreshKey env args clock s.jobs)
    (fun s hs => hs.1) fun s _ s' hs h => ⟨syncRegistry_effects (hG 0) h, fun hA => ?_⟩) fun _ => ?_
  · obtain ⟨_, _, rfl⟩ := syncRegistry_frame h
    exact hs.2 hA
  refine Proc.Spec.bind (Q := fun plan s => (StoreInv env s ∧ (A → FreshKey env args clock s.jobs)) ∧
    enqueuePlan env args (clock 1) = .ok plan)
    (Proc.Spec.query fun s plan hs hplan => ⟨hs, hplan⟩) fun plan => ?_
  refine Proc.Spec.bind (Q := fun dedupe s => (StoreInv env s ∧ enqueuePlan env args (clock 1) = .ok plan) ∧
    (A → ∀ j ∈ s.jobs, j.dedupeKey ≠ dedupe))
    (Proc.Spec.query fun s dedupe hs hd => ⟨⟨hs.1.1, hs.2⟩, fun hA => hs.1.2 hA plan dedupe hs.2 hd⟩)
    fun dedupe => ?_
  exact atomically_spec (fun s hs => hs.1.1) fun s r s' hs h =>
    ⟨enqueueTx_effects (hG 1) h, fun hA => enqueueTx_jobOf hs.1.2 (hs.2 hA) h⟩

theorem enqueue_effects (hG : ∀ n, G.clock (clock n)) {args : EnqueueArgs} :
    Proc.Spec (Effects env G) (StoreInv env) (enqueue env args clock) fun _ => StoreInv env :=
  (enqueue_spec hG False).weaken (fun _ hs => ⟨hs, False.elim⟩) fun _ _ hs => hs.1

theorem enqueueBackfill_effects (hG : ∀ n, G.clock (clock n)) {datasourceId : String}
    {windowStart windowEnd : Time} {lane : Option String} :
    Proc.Spec (Effects env G) (StoreInv env)
      (enqueueBackfill env datasourceId windowStart windowEnd lane clock) fun _ => StoreInv env := by
  refine Proc.Spec.bind (Proc.Spec.query fun s _ hs _ => hs) fun _ => ?_
  refine Proc.Spec.bind ((draw_spec (hG 0)).and_rel fun s s' hs he => he.storeInv hs) fun id => ?_
  exact (enqueue_effects hG).weaken (fun s hs => hs.2) fun _ _ hs => hs

theorem retry_effects (hG : ∀ n, G.clock (clock n)) {jobId : String} :
    Proc.Spec (Effects env G) (StoreInv env) (retry env jobId clock) fun _ => StoreInv env := by
  refine Proc.Spec.bind (Proc.Spec.query fun s _ hs _ => hs) fun row => ?_
  refine Proc.Spec.bind (Proc.Spec.query fun s _ hs _ => hs) fun _ => ?_
  split
  · refine Proc.Spec.bind ((draw_spec (hG 0)).and_rel fun s s' hs he => he.storeInv hs) fun id => ?_
    exact (enqueue_effects hG).weaken (fun s hs => hs.2) fun _ _ hs => hs
  · exact Proc.Spec.throw _

/-! ## Claims -/

theorem recoverExpired_spec {now : Time} (hG : G.clock now) :
    Proc.Spec (Effects env G) (StoreInv env) (Proc.atomically (recoverExpired env now)) fun _ =>
      StoreInv env :=
  (atomically_spec (fun _ hs => hs) (Q := fun _ _ => True) fun _ _ _ hs h =>
    ⟨recoverExpired_effects hG hs h, trivial⟩).weaken (fun _ hs => hs) fun _ _ hs => hs.1

theorem claimNext_spec {now : Time} (hG : G.clock now) {workerId : String} {leaseSeconds : Int} :
    Proc.Spec (Effects env G) (StoreInv env) (claimNext env workerId now leaseSeconds) fun c s =>
      StoreInv env s ∧ ∀ c' ∈ c, ClaimOk env s c' := by
  refine Proc.Spec.bind (recoverExpired_spec hG) fun _ => ?_
  refine Proc.Spec.bind (Proc.Spec.query fun s _ hs _ => hs) fun expires => ?_
  exact atomically_spec (fun _ hs => hs) fun _ _ _ hs h => claimNextTx_effects hG hs h

/-- The job behind a claim, where it is known beforehand. -/
theorem claimJob_spec {now : Time} (hG : G.clock now) {jobId workerId : String} {leaseSeconds : Int}
    (A : Prop) (datasourceId : String) (version : Nat) :
    Proc.Spec (Effects env G) (fun s => StoreInv env s ∧ (A → s.HasJob jobId datasourceId version))
      (claimJob env jobId workerId now leaseSeconds) fun c s =>
      StoreInv env s ∧ ∀ c' ∈ c, ClaimOk env s c' ∧
        (A → c'.datasourceId = some datasourceId ∧ c'.definitionVersion = some version) := by
  refine Proc.Spec.bind (Q := fun _ s => StoreInv env s ∧ (A → s.HasJob jobId datasourceId version))
    ?_ fun _ => ?_
  · refine (((recoverExpired_spec hG).weaken (fun s hs => hs.1) fun _ _ hs => hs).and_rel
      fun s s' hs he hA => he.hasJob (hs.2 hA))
  refine Proc.Spec.bind (Proc.Spec.query fun s _ hs _ => hs) fun expires => ?_
  refine atomically_spec (fun _ hs => hs.1) fun s c s' hs h => ?_
  obtain ⟨he, hclaim⟩ := claimJobTx_effects hG hs.1 h
  refine ⟨he, fun c' hc' => ?_⟩
  obtain ⟨hok, j, hj, hjid, hds, hv⟩ := hclaim c' hc'
  refine ⟨hok, fun hA => ?_⟩
  obtain ⟨i, hi, hiid, hids, hiv⟩ := hs.2 hA
  obtain rfl : i = j := hs.1.leases.jobs_keyed.eq_of_mem hi hj (hiid.trans hjid.symm)
  exact ⟨hds.trans hids, hv.trans hiv⟩

end NanFung
