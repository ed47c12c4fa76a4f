import NanFung.AttemptBudget

/-!
# Default manual requests

An operator's `enqueue` without a request instance. Its dedupe key is held for good by the first job;
once that one is terminal each further request gets an instance of its own, without a look at the
instances stored before. At most one of the jobs of a request is active as long as nobody repeats the
request while the first job is terminal and a later one is active.
-/

namespace NanFung

open Table

section

variable {env : Env} {db db' : Db} {w : World}

/-- What a default manual request asks for. -/
structure ManualRequest where
  datasourceId : String
  definitionVersion : Nat
  definitionHash : String
  lane : Lane
  payload : List (String × Json)
  scheduleId : Option String
  parentJobId : Option String
  generation : Int
  jobKind : JobKind
  windowStart : Option Time
  windowEnd : Option Time

/-- The request of a call, if it is a default manual one. -/
def Op.manualRequest (env : Env) : Op → Option ManualRequest
  | .enqueue args clock =>
    if args.trigger = "manual" ∧ args.requestInstanceId = none then
      (enqueuePlan env args (clock 1)).toOption.map fun plan => {
        datasourceId := args.datasourceId
        definitionVersion := plan.definition.definitionVersion
        definitionHash := plan.definition.definitionHash
        lane := plan.lane
        payload := plan.payload
        scheduleId := args.scheduleId
        parentJobId := args.parentJobId
        generation := args.generation
        jobKind := plan.jobKind
        windowStart := args.windowStart
        windowEnd := args.windowEnd }
    else none
  | _ => none

/-- The dedupe key of a request. -/
def ManualRequest.key (env : Env) (r : ManualRequest) : Except StoreError String := do
  let payloadHash ← env.platform.requestHash (.obj r.payload)
  env.platform.requestHash (.obj [
    ("datasource_id", .str r.datasourceId),
    ("definition_version", .int r.definitionVersion),
    ("definition_hash", .str r.definitionHash),
    ("lane", .str r.lane.name),
    ("trigger", .str "manual"),
    ("request_hash", .str payloadHash),
    ("scheduled_for", .null),
    ("schedule_id", Platform.optStr r.scheduleId),
    ("parent_job_id", Platform.optStr r.parentJobId),
    ("generation", .int r.generation),
    ("request_instance_id", .null),
    ("job_kind", .str r.jobKind.name),
    ("window_start", optTime r.windowStart),
    ("window_end", optTime r.windowEnd)])

/-- The job was created for a default manual request. -/
def World.Created (env : Env) (w : World) (r : ManualRequest) (jobId : String) : Prop :=
  ∃ op result, (op, .ok (.job result)) ∈ w.history ∧ op.manualRequest env = some r ∧
    result.accepted = true ∧ result.jobId = jobId

/-! ## One request -/

/-- The plan of a default manual request, and the key it is looked up by. -/
theorem Op.manualRequest_some {args : EnqueueArgs} {clock : Nat → Time} {r : ManualRequest}
    (h : (Op.enqueue args clock).manualRequest env = some r) {plan : EnqueuePlan}
    (hplan : enqueuePlan env args (clock 1) = .ok plan) :
    plan.trigger = .manual ∧ args.requestInstanceId = none ∧
      dedupeKey env args plan none = r.key env := by
  simp only [Op.manualRequest] at h
  split at h
  · next hmanual =>
    rw [hplan] at h
    cases h
    obtain ⟨-, htrigger, -, hhash, -⟩ := enqueuePlan_ok hplan
    rw [hmanual.1] at htrigger
    have hname : Trigger.ofName? "manual" = some Trigger.manual := by decide +kernel
    have htrigger : plan.trigger = .manual := Option.some.inj (htrigger.symm.trans hname)
    refine ⟨htrigger, hmanual.2, ?_⟩
    unfold dedupeKey ManualRequest.key
    rw [hhash, htrigger]
    rfl
  · exact nomatch h

/-- What an accepted default manual request found and what it adds. -/
inductive Accepts (env : Env) (r : ManualRequest) (db : Db) (j : JobRow) : Prop where
  | first (key : r.key env = .ok j.dedupeKey) (free : ∀ i ∈ db.jobs, i.dedupeKey ≠ j.dedupeKey)
  | fallback {holder : JobRow} (mem : holder ∈ db.jobs) (key : r.key env = .ok holder.dedupeKey)
      (terminal : holder.state.terminal = true)

theorem enqueue_accepts {args : EnqueueArgs} {clock : Nat → Time} {r : ManualRequest}
    (h : (Op.enqueue args clock).manualRequest env = some r) {result : EnqueueResult}
    (hrun : (enqueue env args clock).run db = (.ok result, db')) (haccepted : result.accepted = true) :
    ∃ j, db'.jobs = db.jobs ++ [j] ∧ j.jobId = result.jobId ∧ (∀ i ∈ db.jobs, i.jobId ≠ j.jobId) ∧
      Accepts env r db j := by
  unfold enqueue at hrun
  cases hsync : syncRegistry env (clock 0) db with
  | error e =>
    rw [Proc.run_bind_of_error (Proc.run_atomically_of_error hsync)] at hrun
    cases hrun
  | ok synced =>
  obtain ⟨u, db₁⟩ := synced
  have hjobs : db₁.jobs = db.jobs := by
    obtain ⟨definitions, schedules, rfl⟩ := syncRegistry_frame hsync
    rfl
  rw [Proc.run_bind_of_ok (Proc.run_atomically_of_ok hsync)] at hrun
  cases hplan : enqueuePlan env args (clock 1) with
  | error e =>
    rw [Proc.run_bind, Proc.run_query, hplan] at hrun
    cases hrun
  | ok plan =>
  obtain ⟨htrigger, hinstance, hkey⟩ := Op.manualRequest_some h hplan
  rw [Proc.run_bind, Proc.run_query, hplan] at hrun
  change Proc.run (_ >>= _) db₁ = _ at hrun
  rw [Proc.run_bind, Proc.run_query, hinstance] at hrun
  cases hdedupe : dedupeKey env args plan none with
  | error e =>
    rw [hdedupe] at hrun
    cases hrun
  | ok dedupe =>
  rw [hdedupe] at hrun hkey
  change (Proc.atomically (enqueueTx env args plan dedupe)).run db₁ = _ at hrun
  cases htx : enqueueTx env args plan dedupe db₁ with
  | error e =>
    rw [Proc.run_atomically_of_error htx] at hrun
    cases hrun
  | ok committed =>
  obtain ⟨result', db₂⟩ := committed
  rw [Proc.run_atomically_of_ok htx] at hrun
  cases hrun
  unfold enqueueTx at htx
  split at htx
  · next hfree =>
    obtain ⟨request, -, rfl, hid, hkeys, -, rfl⟩ := acceptJob_ok htx
    refine ⟨_, congrArg (· ++ [_]) hjobs, rfl, hjobs ▸ hid, .first hkey.symm ?_⟩
    exact hjobs ▸ hkeys
  · next holder hholder =>
    have hmem : holder ∈ db.jobs := hjobs ▸ List.mem_of_find?_eq_some hholder
    have hheld : holder.dedupeKey = dedupe := by simpa using List.find?_some hholder
    split at htx
    · next hterminal =>
      simp only [bind_ok] at htx
      obtain ⟨dedupe', -, htx⟩ := htx
      obtain ⟨request, -, rfl, hid, -, -, rfl⟩ := acceptJob_ok htx
      refine ⟨_, congrArg (· ++ [_]) hjobs, rfl, hjobs ▸ hid, .fallback hmem ?_ hterminal.2.2⟩
      rw [hheld]
      exact hkey.symm
    · cases htx
      cases haccepted

/-! ## Rows over a call -/

/-- How the rows of jobs may change. -/
structure Db.JobsKept (db db' : Db) : Prop where
  old : ∀ j ∈ db.jobs, ∃ i ∈ db'.jobs, i.jobId = j.jobId ∧ i.dedupeKey = j.dedupeKey
  new : ∀ i ∈ db'.jobs, (∀ j ∈ db.jobs, j.jobId ≠ i.jobId) ∨
    ∃ j ∈ db.jobs, j.jobId = i.jobId ∧ (j.state.terminal = true → i.state.terminal = true)

theorem Effect.jobsKept {G : Guard} {t : Time} (e : Effect env G t db db') (h : db.Leases) :
    db.JobsKept db' where
  old j hj := by
    obtain ⟨i, hi, hid, hkey, -⟩ := e.mem_jobs hj
    exact ⟨i, hi, hid, hkey⟩
  new i hi := by
    rcases e.job_step h hi with ⟨-, hnew⟩ | ⟨j, hj, hid, hstep⟩
    · exact .inl hnew
    · refine .inr ⟨j, hj, hid, fun hterminal => ?_⟩
      rw [hstep.eq_of_terminal hterminal]
      exact hterminal

theorem Db.JobsKept.trans {db₁ db₂ db₃ : Db} (h : db₁.JobsKept db₂) (h' : db₂.JobsKept db₃) :
    db₁.JobsKept db₃ where
  old j hj := by
    obtain ⟨i, hi, hid, hkey⟩ := h.old j hj
    obtain ⟨k, hk, hid', hkey'⟩ := h'.old i hi
    exact ⟨k, hk, hid'.trans hid, hkey'.trans hkey⟩
  new k hk := by
    rcases h'.new k hk with hnew | ⟨i, hi, hid, hterminal⟩
    · refine .inl fun j hj hjk => ?_
      obtain ⟨i, hi, hij, -⟩ := h.old j hj
      exact hnew i hi (hij.trans hjk)
    · rcases h.new i hi with hnew | ⟨j, hj, hid', hterminal'⟩
      · exact .inl fun j hj hjk => hnew j hj (hjk.trans hid.symm)
      · exact .inr ⟨j, hj, hid'.trans hid, fun h => hterminal (hterminal' h)⟩

theorem Effects.jobsKept {G : Guard} (es : Effects env G db db') (h : StoreInv env db) :
    db.JobsKept db' := by
  refine (es.preserve (I := fun s => StoreInv env s ∧ db.JobsKept s) ?_ ⟨h, ?_⟩).2
  · intro _ _ _ _ e hI
    exact ⟨e.storeInv hI.1, hI.2.trans (e.jobsKept hI.1.leases)⟩
  · exact ⟨fun j hj => ⟨j, hj, rfl, rfl⟩, fun i hi => .inr ⟨i, hi, rfl, id⟩⟩

/-! ## Histories -/

/-- No default manual request is made while the job that holds its key is terminal and a later one is
active. -/
def exclusiveFallback (env : Env) (w : World) (op : Op) : Prop :=
  ∀ r, op.manualRequest env = some r → ∀ holder ∈ w.db.jobs, r.key env = .ok holder.dedupeKey →
    holder.state.terminal = true →
      ∀ j ∈ w.db.jobs, w.Created env r j.jobId → j.state.terminal = true

/-- The jobs of default manual requests: each request's key is held, and one of its jobs at most is
active. -/
structure ManualInv (env : Env) (w : World) : Prop where
  held : ∀ r jobId, w.Created env r jobId → (∃ j ∈ w.db.jobs, j.jobId = jobId) ∧
    ∃ holder ∈ w.db.jobs, r.key env = .ok holder.dedupeKey
  one : ∀ r, ∀ i ∈ w.db.jobs, ∀ j ∈ w.db.jobs, w.Created env r i.jobId → w.Created env r j.jobId →
    i.state.terminal = false → j.state.terminal = false → i = j

/-- A call creates the job of a request if it is the request, accepted. -/
theorem World.created_step {op : Op} {r : ManualRequest} {jobId : String} :
    (w.step env op).Created env r jobId ↔ w.Created env r jobId ∨
      ∃ result, ((op.exec env).run w.db).1 = .ok (.job result) ∧ op.manualRequest env = some r ∧
        result.accepted = true ∧ result.jobId = jobId := by
  constructor
  · rintro ⟨o, result, hmem, hrequest, haccepted, hid⟩
    rcases List.mem_append.mp hmem with hold | hnew
    · exact .inl ⟨o, result, hold, hrequest, haccepted, hid⟩
    · obtain ⟨rfl, hresult⟩ := Prod.mk.inj (List.mem_singleton.mp hnew)
      exact .inr ⟨result, hresult.symm, hrequest, haccepted, hid⟩
  · rintro (⟨o, result, hmem, hrest⟩ | ⟨result, hresult, hrest⟩)
    · exact ⟨o, result, List.mem_append_left _ hmem, hrest⟩
    · exact ⟨op, result, List.mem_append_right _ (by simp [hresult]), hrest⟩

/-- The accepted default manual request a call makes, with the job it adds. -/
theorem World.step_accepts {op : Op} {r : ManualRequest} {result : EnqueueResult}
    (hrun : ((op.exec env).run w.db).1 = .ok (.job result)) (hrequest : op.manualRequest env = some r)
    (haccepted : result.accepted = true) :
    ∃ j, (w.step env op).db.jobs = w.db.jobs ++ [j] ∧ j.jobId = result.jobId ∧
      (∀ i ∈ w.db.jobs, i.jobId ≠ j.jobId) ∧ Accepts env r w.db j := by
  cases op with
  | enqueue args clock =>
    change (Proc.run (enqueue env args clock >>= fun r => pure (Reply.job r)) w.db).1 = _ at hrun
    show ∃ j, (Proc.run (enqueue env args clock >>= fun r => pure (Reply.job r)) w.db).2.jobs = _ ∧ _
    cases hcall : (enqueue env args clock).run w.db with
    | mk outcome db' =>
    cases outcome with
    | error e =>
      rw [Proc.run_bind_of_error hcall] at hrun
      exact nomatch hrun
    | ok result' =>
      rw [Proc.run_bind_of_ok hcall] at hrun ⊢
      cases hrun
      exact enqueue_accepts hrequest hcall haccepted
  | _ => exact nomatch hrequest

/-- When a request is accepted all its jobs are terminal. -/
theorem ManualInv.idle (h : ManualInv env w) {op : Op} (hallowed : exclusiveFallback env w op)
    {r : ManualRequest} {result : EnqueueResult}
    (hrun : ((op.exec env).run w.db).1 = .ok (.job result)) (hrequest : op.manualRequest env = some r)
    (haccepted : result.accepted = true) {j : JobRow} (hj : j ∈ w.db.jobs)
    (hcreated : w.Created env r j.jobId) : j.state.terminal = true := by
  obtain ⟨_, _, _, _, haccepts⟩ := World.step_accepts hrun hrequest haccepted
  cases haccepts with
  | first key free =>
    -- the holder of the key would be there
    obtain ⟨-, holder, hholder, hkey⟩ := h.held r _ hcreated
    exact absurd (Except.ok.inj (hkey.symm.trans key)) (free holder hholder)
  | fallback mem key terminal => exact hallowed r hrequest _ mem key terminal j hj hcreated

theorem ManualInv.step (hu : Function.Injective env.platform.uuid) (hsound : w.Sound env)
    (h : ManualInv env w) {op : Op} (hheld : op.Held w) (hallowed : exclusiveFallback env w op) :
    ManualInv env (w.step env op) := by
  have hkept : w.db.JobsKept (w.step env op).db :=
    (hsound.effects (G := Guard.any) hheld (Op.respects_any op w.db)).jobsKept hsound.store
  have hkeyed := (hsound.step hu hheld (Op.respects_any op w.db)).store.leases.jobs_keyed
  constructor
  · intro r jobId hcreated
    rcases World.created_step.mp hcreated with hold | ⟨result, hrun, hrequest, haccepted, hid⟩
    · obtain ⟨⟨j, hj, hjid⟩, holder, hholder, hkey⟩ := h.held r jobId hold
      obtain ⟨i, hi, hij, -⟩ := hkept.old j hj
      obtain ⟨k, hk, -, hkkey⟩ := hkept.old holder hholder
      exact ⟨⟨i, hi, hij.trans hjid⟩, k, hk, hkkey ▸ hkey⟩
    · obtain ⟨j, hjobs, hjid, -, haccepts⟩ := World.step_accepts hrun hrequest haccepted
      have hmem : j ∈ (w.step env op).db.jobs := by simp [hjobs]
      refine ⟨⟨j, hmem, hjid.trans hid⟩, ?_⟩
      cases haccepts with
      | first key _ => exact ⟨j, hmem, key⟩
      | fallback mem key _ =>
        obtain ⟨k, hk, -, hkkey⟩ := hkept.old _ mem
        exact ⟨k, hk, hkkey ▸ key⟩
  · -- an active job of the request is new, or was one before
    have hbefore : ∀ r, ∀ i ∈ (w.step env op).db.jobs, w.Created env r i.jobId →
        i.state.terminal = false → ∃ j ∈ w.db.jobs, j.jobId = i.jobId ∧ w.Created env r j.jobId ∧
          j.state.terminal = false := by
      intro r i hi hcreated hactive
      rcases hkept.new i hi with hnew | ⟨j, hj, hid, hterminal⟩
      · obtain ⟨⟨j, hj, hid⟩, -⟩ := h.held r _ hcreated
        exact absurd hid (hnew j hj)
      · refine ⟨j, hj, hid, hid ▸ hcreated, ?_⟩
        by_contra hne
        rw [hterminal (by simpa using hne)] at hactive
        exact nomatch hactive
    intro r i hi j hj hci hcj hai haj
    refine hkeyed.eq_of_mem hi hj ?_
    rcases World.created_step.mp hci with hci | ⟨result, hrun, hrequest, haccepted, hid⟩
    · obtain ⟨i', hi', hii', hci', hai'⟩ := hbefore r i hi hci hai
      rcases World.created_step.mp hcj with hcj | ⟨result, hrun, hrequest, haccepted, hid⟩
      · obtain ⟨j', hj', hjj', hcj', haj'⟩ := hbefore r j hj hcj haj
        rw [← hii', ← hjj', h.one r i' hi' j' hj' hci' hcj' hai' haj']
      · rw [h.idle hallowed hrun hrequest haccepted hi' hci'] at hai'
        exact nomatch hai'
    · rcases World.created_step.mp hcj with hcj | ⟨result', hrun', -, -, hid'⟩
      · obtain ⟨j', hj', -, hcj', haj'⟩ := hbefore r j hj hcj haj
        rw [h.idle hallowed hrun hrequest haccepted hj' hcj'] at haj'
        exact nomatch haj'
      · have hresult : result = result' := by simpa using hrun.symm.trans hrun'
        exact hid.symm.trans (hresult ▸ hid')

/-- At most one job of a default manual request is active, and none when another one is accepted. -/
structure ManualExclusive (env : Env) (w : World) : Prop where
  one : ∀ r, ∀ i ∈ w.db.jobs, ∀ j ∈ w.db.jobs, w.Created env r i.jobId → w.Created env r j.jobId →
    i.state.terminal = false → j.state.terminal = false → i = j
  idle : ∀ op result r, exclusiveFallback env w op →
    ((op.exec env).run w.db).1 = .ok (.job result) → op.manualRequest env = some r →
      result.accepted = true → ∀ j ∈ w.db.jobs, w.Created env r j.jobId → j.state.terminal = true

/-- Default manual requests are exclusive in every history that repeats none of them while the holder
of its key is terminal and a later job of it is active. -/
theorem manual_exclusive (hu : Function.Injective env.platform.uuid)
    (h : Reachable env (exclusiveFallback env) w) : ManualExclusive env w := by
  have hinv : ManualInv env w := by
    induction h with
    | refl =>
      refine ⟨?_, ?_⟩
      · rintro r jobId ⟨op, result, hmem, -⟩
        exact nomatch hmem
      · exact fun r i hi => nomatch hi
    | call before held permitted ih =>
      exact ih.step hu (Reachable.sound hu before) held permitted
  exact ⟨hinv.one, fun _ _ _ hallowed hrun hrequest haccepted _ hj hcreated =>
    hinv.idle hallowed hrun hrequest haccepted hj hcreated⟩

end

namespace Sample

/-- The default manual request for the rents. -/
def manual : Op := .enqueue { datasourceId := "uk.rents" } fun _ => tick 1

/-- Its first job has been cancelled. -/
def withdrawn : World := World.exec env [manual, .cancel "job_0" "operator" (tick 2)]

theorem withdrawn_terminal : (withdrawn.db.jobs.map fun j => (j.jobId, j.state.terminal)) =
    [("job_0", true)] := by
  decide +kernel

theorem withdrawn_reachable : Reachable env (exclusiveFallback env) withdrawn :=
  have hmanual : Reachable env (exclusiveFallback env) (World.exec env [manual]) :=
    Continues.refl.call trivial fun _ _ _ hholder => nomatch hholder
  hmanual.call trivial fun _ h => nomatch h

/-- The request is made again. -/
def renewed : World := withdrawn.step env manual

theorem renewed_reachable : Reachable env (exclusiveFallback env) renewed := by
  refine withdrawn_reachable.call trivial ?_
  intro r _ _ _ _ _ j hj _
  have hmem : (j.jobId, j.state.terminal) ∈ [("job_0", true)] := by
    rw [← withdrawn_terminal]
    exact List.mem_map_of_mem hj
  exact (Prod.mk.inj (List.mem_singleton.mp hmem)).2

/-- And once more. -/
def repeated : World := renewed.step env manual

def jobReply : Except StoreError Reply → Option EnqueueResult
  | .ok (.job result) => some result
  | _ => none

theorem repeated_jobs :
    jobReply ((manual.exec env).run withdrawn.db).1 = some ⟨"job_2", true, .queued⟩ ∧
    jobReply ((manual.exec env).run renewed.db).1 = some ⟨"job_4", true, .queued⟩ ∧
    (repeated.db.jobs.map fun j => (j.jobId, j.state.terminal)) =
      [("job_0", true), ("job_2", false), ("job_4", false)] := by
  decide +kernel

theorem jobReply_some {result : Except StoreError Reply} {job : EnqueueResult}
    (h : jobReply result = some job) : result = .ok (.job job) := by
  unfold jobReply at h
  split at h
  · exact congrArg (fun job => Except.ok (Reply.job job)) (Option.some.inj h)
  · exact nomatch h

end Sample

theorem manual_exclusive_renewed : ManualExclusive Sample.env Sample.renewed :=
  manual_exclusive Sample.uuid_injective Sample.renewed_reachable

/-- Once the first job is terminal the request can have any number of active jobs. -/
theorem not_manual_exclusive : ¬ ∀ w, Reachable Sample.env anyCall w →
    ∀ r, ∀ i ∈ w.db.jobs, ∀ j ∈ w.db.jobs, w.Created Sample.env r i.jobId →
      w.Created Sample.env r j.jobId → i.state.terminal = false → j.state.terminal = false →
        i = j := by
  intro h
  obtain ⟨hsecond, hthird, hjobs⟩ := Sample.repeated_jobs
  obtain ⟨r, hr⟩ := Option.isSome_iff_exists.mp
    (show (Sample.manual.manualRequest Sample.env).isSome = true by decide +kernel)
  have hreachable : Reachable Sample.env anyCall Sample.repeated :=
    (Continues.mono Sample.renewed_reachable fun _ _ _ => trivial).call trivial trivial
  have hmem : ∀ x ∈ [("job_0", true), ("job_2", false), ("job_4", false)],
      ∃ j ∈ Sample.repeated.db.jobs, (j.jobId, j.state.terminal) = x := by
    rw [← hjobs]
    exact fun x hx => List.mem_map.mp hx
  obtain ⟨i, hi, heqi⟩ := hmem ("job_2", false) (by simp)
  obtain ⟨j, hj, heqj⟩ := hmem ("job_4", false) (by simp)
  obtain ⟨hiid, hiactive⟩ := Prod.mk.inj heqi
  obtain ⟨hjid, hjactive⟩ := Prod.mk.inj heqj
  have hci : Sample.repeated.Created Sample.env r i.jobId := by
    rw [hiid]
    exact World.created_step.mpr (.inl (World.created_step.mpr
      (.inr ⟨_, Sample.jobReply_some hsecond, hr, rfl, rfl⟩)))
  have hcj : Sample.repeated.Created Sample.env r j.jobId := by
    rw [hjid]
    exact World.created_step.mpr (.inr ⟨_, Sample.jobReply_some hthird, hr, rfl, rfl⟩)
  have heq := h _ hreachable r i hi j hj hci hcj hiactive hjactive
  rw [heq, hjid] at hiid
  exact absurd hiid (by decide)

end NanFung
