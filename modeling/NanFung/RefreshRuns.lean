import NanFung.Spec.RefreshErrors
import NanFung.World

/-!
# Runs of refresh calls

Calls of `submit_agent_refresh` one after the other (the writer's lease keeps two of them apart),
any of which may stop before its ledger insert. `Prepared` says once what a call can do up to that
insert; the invariants of requests, cooldowns and the daily budget are read off it.
-/

namespace NanFung

open Table

/-- A call of `submit_agent_refresh`; one that stops never reaches its ledger insert. -/
structure RefreshCall where
  args : RefreshArgs
  clock : Nat → Time
  stops : Bool

/-- The same rows of the tables a refresh call reads, jobs, requests and confirmations. -/
structure Db.SameRefresh (db db' : Db) : Prop where
  jobs : db'.jobs = db.jobs
  requests : db'.refreshRequests = db.refreshRequests
  confirmations : db'.refreshConfirmations = db.refreshConfirmations

theorem Db.SameRefresh.refl (db : Db) : db.SameRefresh db := ⟨rfl, rfl, rfl⟩

theorem Db.SameRefresh.trans {db₁ db₂ db₃ : Db} (h : db₁.SameRefresh db₂)
    (h' : db₂.SameRefresh db₃) : db₁.SameRefresh db₃ :=
  ⟨h'.jobs.trans h.jobs, h'.requests.trans h.requests, h'.confirmations.trans h.confirmations⟩

section

variable {env : Env} {db db' : Db} {args : RefreshArgs} {clock : Nat → Time}

/-! ## What precedes the lookups -/

/-- The call gets as far as its lookups, on the synchronised store `db'`. -/
structure Synced (env : Env) (args : RefreshArgs) (db db' : Db) : Prop where
  valid : validateRefreshArgs args = .ok ()
  sync : syncRegistry env args.submittedAt db = .ok ((), db')
  registered : ∃ definition, env.registry.lookup env.platform args.datasourceId
    (some args.definitionVersion) = .ok definition

/-- The arguments are valid, the datasource is registered and the store agrees with the registry. -/
def Admitted (env : Env) (args : RefreshArgs) (db : Db) : Prop := ∃ db', Synced env args db db'

theorem syncRegistry_same {now : Time} {u : Unit} (h : syncRegistry env now db = .ok (u, db')) :
    db.SameRefresh db' := by
  obtain ⟨definitions, schedules, rfl⟩ := syncRegistry_frame h
  exact ⟨rfl, rfl, rfl⟩

theorem Synced.same (h : Synced env args db db') : db.SameRefresh db' := syncRegistry_same h.sync

/-- The lookups read the three tables only. -/
theorem resolveRefresh_congr (h : db.SameRefresh db') :
    resolveRefresh args db' = resolveRefresh args db := by
  unfold resolveRefresh refreshJobByRequestId activeRefreshDedupe activeLedgerRow Db.orphanJobs
  rw [h.jobs, h.requests, h.confirmations]

/-! ## The job of a submission -/

/-- The row of the job a submission enqueues. -/
structure NewJob (env : Env) (args : RefreshArgs) (j : JobRow) : Prop where
  trigger : j.trigger = .agentRequest
  requestInstanceId : j.requestInstanceId = some args.requestId
  datasourceId : j.datasourceId = some args.datasourceId
  createdAt : j.createdAt = args.submittedAt
  request : ∃ definition, env.json (.obj (env.platform.redactMembers
    (refreshRequestMembers definition args))) = .ok j.request

/-- The arguments `submit_agent_refresh` enqueues with. -/
abbrev refreshEnqueueArgs (definition : DatasourceDefinition) (args : RefreshArgs) : EnqueueArgs where
  datasourceId := args.datasourceId
  definitionVersion := some args.definitionVersion
  request := some (refreshRequestMembers definition args)
  trigger := "agent_request"
  lane := some args.lane
  scheduledFor := some args.submittedAt
  requestInstanceId := some args.requestId

theorem requestOrDefault_refresh (definition d : DatasourceDefinition) :
    requestOrDefault (some (refreshRequestMembers definition args)) d =
      refreshRequestMembers definition args := by
  have hlookup : Json.lookup "_refresh_control" (refreshRequestMembers definition args) =
      some (controlJson args) := by
    simp only [refreshRequestMembers, Json.merge, List.foldl_cons, List.foldl_nil]
    exact Json.lookup_insert_self _ _ _
  cases hmembers : refreshRequestMembers definition args with
  | nil =>
    rw [hmembers] at hlookup
    cases hlookup
  | cons m ms => rfl

/-- Enqueueing the job of a submission: it is refused, some job has its key, or it is new. -/
inductive Enqueued (env : Env) (args : RefreshArgs) (db : Db) :
    Except StoreError EnqueueResult → Db → Prop where
  | refused {e : StoreError} {db' : Db} (same : db.SameRefresh db')
      (quiet : ∀ m, e ≠ .refreshConfirmation m) : Enqueued env args db (.error e) db'
  | deduplicated {r : EnqueueResult} {db' : Db} (same : db.SameRefresh db')
      (rejected : r.accepted = false) : Enqueued env args db (.ok r) db'
  | accepted {j : JobRow} {db' : Db} (job : NewJob env args j)
      (newId : ∀ i ∈ db.jobs, i.jobId ≠ j.jobId) (jobs : db'.jobs = db.jobs ++ [j])
      (requests : db'.refreshRequests = db.refreshRequests)
      (confirmations : db'.refreshConfirmations = db.refreshConfirmations) :
      Enqueued env args db (.ok ⟨j.jobId, true, .queued⟩) db'

theorem enqueueTx_enqueued {definition : DatasourceDefinition} {now : Time} {plan : EnqueuePlan}
    {dedupe : String} {db₁ : Db} (same : db.SameRefresh db₁)
    (hplan : enqueuePlan env (refreshEnqueueArgs definition args) now = .ok plan) :
    Enqueued env args db ((Proc.atomically
      (enqueueTx env (refreshEnqueueArgs definition args) plan dedupe)).run db₁).1
      ((Proc.atomically (enqueueTx env (refreshEnqueueArgs definition args) plan dedupe)).run db₁).2 := by
  obtain ⟨-, htrigger, hpayload, -, hnow⟩ := enqueuePlan_ok hplan
  have htrigger : plan.trigger = .agentRequest := by
    have hname : Trigger.ofName? "agent_request" = some Trigger.agentRequest := by decide +kernel
    exact (Option.some.inj (hname.symm.trans htrigger)).symm
  cases htx : enqueueTx env (refreshEnqueueArgs definition args) plan dedupe db₁ with
  | error e =>
    rw [Proc.run_atomically_of_error htx]
    exact .refused same (Quiet.error.mp (htx ▸ quiet_enqueueTx _ plan dedupe))
  | ok result =>
    obtain ⟨r, db₂⟩ := result
    rw [Proc.run_atomically_of_ok htx]
    unfold enqueueTx at htx
    split at htx
    · obtain ⟨request, hrequest, rfl, hid, -, -, rfl⟩ := acceptJob_ok htx
      refine .accepted ⟨htrigger, rfl, rfl, hnow, definition, ?_⟩ ?_ ?_ same.requests
        same.confirmations
      · rw [hpayload] at hrequest
        rwa [show (refreshEnqueueArgs definition args).request =
          some (refreshRequestMembers definition args) from rfl, requestOrDefault_refresh] at hrequest
      · rw [← same.jobs]
        exact hid
      · show db₁.jobs ++ _ = _
        rw [same.jobs]
    · next existing _ =>
      -- only a manual request moves on to another instance
      rw [if_neg (by simp [htrigger])] at htx
      cases htx
      exact .deduplicated same rfl

theorem enqueue_enqueued {definition : DatasourceDefinition} :
    Enqueued env args db ((enqueue env (refreshEnqueueArgs definition args) clock).run db).1
      ((enqueue env (refreshEnqueueArgs definition args) clock).run db).2 := by
  unfold enqueue
  cases hsync : syncRegistry env (clock 0) db with
  | error e =>
    rw [Proc.run_bind_of_error (Proc.run_atomically_of_error hsync)]
    exact .refused (.refl db) (Quiet.error.mp (hsync ▸ quiet_syncRegistry (clock 0)))
  | ok result =>
    obtain ⟨u, db₁⟩ := result
    have same := syncRegistry_same hsync
    rw [Proc.run_bind_of_ok (Proc.run_atomically_of_ok hsync)]
    cases hplan : enqueuePlan env (refreshEnqueueArgs definition args) (clock 1) with
    | error e =>
      rw [Proc.run_bind, Proc.run_query]
      exact .refused same (Quiet.error.mp (hplan ▸ quiet_enqueuePlan _ (clock 1)))
    | ok plan =>
      rw [Proc.run_bind, Proc.run_query]
      show Enqueued env args db (Proc.run (_ >>= _) db₁).1 (Proc.run (_ >>= _) db₁).2
      rw [Proc.run_bind, Proc.run_query]
      cases hkey : dedupeKey env (refreshEnqueueArgs definition args) plan
          (refreshEnqueueArgs definition args).requestInstanceId with
      | error e => exact .refused same (Quiet.error.mp (hkey ▸ quiet_dedupeKey _ plan _))
      | ok dedupe => exact enqueueTx_enqueued same hplan

/-! ## A call up to its ledger insert -/

/-- The ledger row of a submission that creates the job `j`. -/
def acceptedRow (args : RefreshArgs) (j : JobRow) : RefreshRequestRow :=
  ledgerRow args args.dedupeKey j.jobId .accepted "queued" args.submittedAt args.cooldownUntil

/-- The submission of a call's job fails, or finds another job under its dedupe key. -/
def Unqueued (env : Env) (args : RefreshArgs) (db : Db) (e : StoreError) : Prop :=
  ∃ definition clock db₁, db.SameRefresh db₁ ∧
    (((enqueue env (refreshEnqueueArgs definition args) clock).run db₁).1 = .error e ∨
      ∃ r, ((enqueue env (refreshEnqueueArgs definition args) clock).run db₁).1 = .ok r ∧
        r.accepted = false)

/-- What a call has done when it reaches its ledger insert, or ends before it. -/
inductive Prepared (env : Env) (args : RefreshArgs) (db : Db) :
    Except StoreError RefreshStep → Db → Prop where
  | refused {e : StoreError} {db' : Db} (same : db.SameRefresh db') (refused : ¬ Admitted env args db)
      (quiet : Quiet (validateRefreshArgs args) → ∀ m, e ≠ .refreshConfirmation m) :
      Prepared env args db (.error e) db'
  | rejected {e : StoreError} {db₁ : Db} (synced : Synced env args db db₁)
      (resolve : resolveRefresh args db = .error e) : Prepared env args db (.error e) db₁
  | resolved {step : RefreshStep} {pending : Option RefreshConfirmationRow} {db₁ : Db}
      (synced : Synced env args db db₁)
      (resolve : resolveRefresh args db = .ok (some step, pending)) :
      Prepared env args db (.ok step) db₁
  | unconfirmed {e : StoreError} {pending : Option RefreshConfirmationRow} {db₁ : Db}
      (synced : Synced env args db db₁) (resolve : resolveRefresh args db = .ok (none, pending))
      (answer : onspdRefreshConfirmation env args pending db₁ = .error e) :
      Prepared env args db (.error e) db₁
  | answered {r : DurableRefreshResult} {pending : Option RefreshConfirmationRow} {db₁ db₂ : Db}
      (synced : Synced env args db db₁) (resolve : resolveRefresh args db = .ok (none, pending))
      (answer : onspdRefreshConfirmation env args pending db₁ = .ok (some r, db₂)) :
      Prepared env args db (.ok (.done r)) db₂
  | unqueued {e : StoreError} {pending : Option RefreshConfirmationRow} {db₁ db' : Db}
      (synced : Synced env args db db₁) (resolve : resolveRefresh args db = .ok (none, pending))
      (answer : onspdRefreshConfirmation env args pending db₁ = .ok (none, db₁))
      (same : db.SameRefresh db') (quiet : ∀ m, e ≠ .refreshConfirmation m)
      (failed : Unqueued env args db e) : Prepared env args db (.error e) db'
  | created {pending : Option RefreshConfirmationRow} {db₁ db' : Db} {j : JobRow}
      (synced : Synced env args db db₁) (resolve : resolveRefresh args db = .ok (none, pending))
      (answer : onspdRefreshConfirmation env args pending db₁ = .ok (none, db₁))
      (job : NewJob env args j) (newId : ∀ i ∈ db.jobs, i.jobId ≠ j.jobId)
      (jobs : db'.jobs = db.jobs ++ [j]) (requests : db'.refreshRequests = db.refreshRequests)
      (confirmations : db'.refreshConfirmations = db.refreshConfirmations) :
      Prepared env args db (.ok (.bind (acceptedRow args j))) db'

/-- What lets a submission go on without an answer: another datasource, quota left and no token, or
the token of an unexpired confirmation. -/
inductive Confirmed (env : Env) (args : RefreshArgs) (pending : Option RefreshConfirmationRow)
    (db : Db) : Prop where
  | free (other : args.datasourceId ≠ onspdRefreshDatasourceId)
  | quota {used : Nat} (count : refreshJobsInLondonDay env args.submittedAt db = .ok used)
      (left : used < onspdRefreshDailyLimit) (token : args.confirmationToken = none)
  | token {used : Nat} {row : RefreshConfirmationRow}
      (count : refreshJobsInLondonDay env args.submittedAt db = .ok used)
      (exhausted : ¬ used < onspdRefreshDailyLimit) (is : pending = some row)
      (token : args.confirmationToken = some row.confirmationToken)
      (unexpired : args.submittedAt < row.expiresAt)

theorem onspdRefreshConfirmation_none {pending : Option RefreshConfirmationRow}
    (h : onspdRefreshConfirmation env args pending db = .ok (none, db')) :
    db' = db ∧ Confirmed env args pending db := by
  unfold onspdRefreshConfirmation at h
  split at h
  · next hother =>
    cases h
    exact ⟨rfl, .free hother⟩
  simp only [bind_ok] at h
  obtain ⟨used, hused, h⟩ := h
  split at h
  · next hleft =>
    simp only [bind_ok, require_ok, Except.ok.injEq, Prod.mk.injEq, true_and] at h
    obtain ⟨-, htoken, rfl⟩ := h
    exact ⟨rfl, .quota hused hleft htoken⟩
  next hexhausted =>
  split at h
  · simp at h
  · next token htoken =>
    simp only [bind_ok, require_ok, orThrow_ok, Except.ok.injEq, Prod.mk.injEq, true_and] at h
    obtain ⟨row, hrow, -, hmatch, -, hunexpired, rfl⟩ := h
    exact ⟨rfl, .token hused hexhausted hrow (by rw [htoken, hmatch]) hunexpired⟩

/-- A confirmation is asked for: the pending one again, or a new one. -/
theorem onspdRefreshConfirmation_some {pending : Option RefreshConfirmationRow}
    {r : DurableRefreshResult}
    (h : onspdRefreshConfirmation env args pending db = .ok (some r, db')) :
    args.datasourceId = onspdRefreshDatasourceId ∧ args.confirmationToken = none ∧
      ((∃ row, pending = some row ∧ args.submittedAt < row.expiresAt ∧
          r = confirmationRequired row ∧ db' = db) ∨
        ∃ row, pending = none ∧ r = confirmationRequired row ∧
          row.requestId = args.requestId ∧ row.principal = args.principal ∧
          row.requestFingerprint = args.requestFingerprint ∧
          row.datasourceId = args.datasourceId ∧ row.definitionVersion = args.definitionVersion ∧
          row.issuedAt = args.submittedAt ∧
          args.submittedAt.add? refreshConfirmationTtl = some row.expiresAt ∧
          (∀ c ∈ db.refreshConfirmations, c.requestId ≠ args.requestId) ∧
          db' = { db with
            refreshConfirmations := db.refreshConfirmations ++ [row]
            drawn := db.drawn + 1 }) := by
  unfold onspdRefreshConfirmation at h
  split at h
  · simp at h
  next honspd =>
  simp only [bind_ok] at h
  obtain ⟨used, -, h⟩ := h
  split at h
  · simp at h
  split at h
  · next htoken =>
    refine ⟨not_not.mp honspd, htoken, ?_⟩
    simp only [bind_ok, Except.ok.injEq, Prod.mk.injEq, Option.some.injEq] at h
    obtain ⟨⟨r', db₁⟩, hissue, rfl, rfl⟩ := h
    unfold issueRefreshConfirmation at hissue
    split at hissue
    · next row =>
      simp only [bind_ok, require_ok, Except.ok.injEq, Prod.mk.injEq] at hissue
      obtain ⟨-, hunexpired, rfl, rfl⟩ := hissue
      exact .inl ⟨row, rfl, hunexpired, rfl, rfl⟩
    · simp only [bind_ok, require_ok, orThrow_ok, Except.ok.injEq, Prod.mk.injEq] at hissue
      obtain ⟨expiresAt, hexpires, ⟨dayStart, dayEnd⟩, -, -, hnew, rfl, rfl⟩ := hissue
      exact .inr ⟨_, rfl, rfl, rfl, rfl, rfl, rfl, rfl, rfl, hexpires, hnew, rfl⟩
  · simp at h

theorem onspdRefreshConfirmation_jobs {pending : Option RefreshConfirmationRow}
    {r : DurableRefreshResult}
    (h : onspdRefreshConfirmation env args pending db = .ok (some r, db')) :
    db'.jobs = db.jobs ∧ db'.refreshRequests = db.refreshRequests := by
  obtain ⟨-, -, ⟨row, -, -, -, rfl⟩ | ⟨row, -, -, -, -, -, -, -, -, -, -, rfl⟩⟩ :=
    onspdRefreshConfirmation_some h
  · exact ⟨rfl, rfl⟩
  · exact ⟨rfl, rfl⟩

theorem prepareRefresh_prepared :
    Prepared env args db ((prepareRefresh env args clock).run db).1
      ((prepareRefresh env args clock).run db).2 := by
  unfold prepareRefresh
  rw [Proc.run_bind, Proc.run_query]
  cases hvalid : validateRefreshArgs args with
  | error e =>
    refine .refused (.refl db) ?_ fun hquiet => Quiet.error.mp (hvalid ▸ hquiet)
    rintro ⟨_, h⟩
    exact nomatch hvalid.symm.trans h.valid
  | ok u =>
  show Prepared env args db (Proc.run (_ >>= _) db).1 (Proc.run (_ >>= _) db).2
  cases hsync : syncRegistry env args.submittedAt db with
  | error e =>
    rw [Proc.run_bind_of_error (Proc.run_atomically_of_error hsync)]
    refine .refused (.refl db) ?_ fun _ => Quiet.error.mp (hsync ▸ quiet_syncRegistry _)
    rintro ⟨_, h⟩
    exact nomatch hsync.symm.trans h.sync
  | ok result =>
  obtain ⟨u, db₁⟩ := result
  have same := syncRegistry_same hsync
  rw [Proc.run_bind_of_ok (Proc.run_atomically_of_ok hsync), Proc.run_bind, Proc.run_query]
  cases hlookup : registryAsOperational (env.registry.lookup env.platform args.datasourceId
      (some args.definitionVersion)) with
  | error e =>
    refine .refused same ?_ fun _ =>
      Quiet.error.mp (hlookup ▸ quiet_registryAsOperational (quiet_lookup _ _))
    rintro ⟨_, h⟩
    obtain ⟨definition, hd⟩ := h.registered
    rw [registryAsOperational_ok.mpr hd] at hlookup
    exact nomatch hlookup
  | ok definition =>
  have synced : Synced env args db db₁ :=
    ⟨hvalid, hsync, definition, registryAsOperational_ok.mp hlookup⟩
  show Prepared env args db (Proc.run (_ >>= _) db₁).1 (Proc.run (_ >>= _) db₁).2
  rw [Proc.run_bind, Proc.run_query]
  cases hresolve : resolveRefresh args db₁ with
  | error e => exact .rejected synced ((resolveRefresh_congr same).symm.trans hresolve)
  | ok resolved =>
  have hfound := (resolveRefresh_congr same).symm.trans hresolve
  obtain ⟨step, pending⟩ := resolved
  cases step with
  | some step => exact .resolved synced hfound
  | none =>
  show Prepared env args db (Proc.run (_ >>= _) db₁).1 (Proc.run (_ >>= _) db₁).2
  cases hanswer : onspdRefreshConfirmation env args pending db₁ with
  | error e =>
    rw [Proc.run_bind_of_error (Proc.run_atomically_of_error hanswer)]
    exact .unconfirmed synced hfound hanswer
  | ok answer =>
  obtain ⟨answer, db₂⟩ := answer
  rw [Proc.run_bind_of_ok (Proc.run_atomically_of_ok hanswer)]
  cases answer with
  | some r => exact .answered synced hfound hanswer
  | none =>
  obtain rfl := (onspdRefreshConfirmation_none hanswer).1
  show Prepared env args db (Proc.run (_ >>= _) db₂).1 (Proc.run (_ >>= _) db₂).2
  have henqueued := @enqueue_enqueued env db₂ args clock definition
  cases hrun : (enqueue env (refreshEnqueueArgs definition args) clock).run db₂ with
  | mk result db₃ =>
  rw [hrun] at henqueued
  cases henqueued with
  | refused same' quiet =>
    rw [Proc.run_bind_of_error hrun]
    refine .unqueued synced hfound hanswer (same.trans same') quiet ⟨definition, clock, db₂, same, .inl ?_⟩
    rw [hrun]
  | @deduplicated r _ same' rejected =>
    rw [Proc.run_bind_of_ok hrun, Proc.run_bind, Proc.run_query]
    -- some other submission has the dedupe key
    rw [show require (r.accepted = true) _ = .error _ from if_neg (by simp [rejected])]
    refine .unqueued synced hfound hanswer (same.trans same') (by simp)
      ⟨definition, clock, db₂, same, .inr ⟨r, ?_, rejected⟩⟩
    rw [hrun]
  | accepted job newId jobs requests confirmations =>
    rw [Proc.run_bind_of_ok hrun]
    refine .created synced hfound hanswer job ?_ ?_ (requests.trans same.requests)
      (confirmations.trans same.confirmations)
    · rw [← same.jobs]
      exact newId
    · show db₃.jobs = _
      rw [← same.jobs]
      exact jobs

end

/-! ## Calls and runs -/

section

variable (env : Env)

/-- Make the call on a store. -/
def RefreshCall.run (c : RefreshCall) (db : Db) : Except StoreError Reply × Db :=
  ((Op.submitAgentRefresh c.args c.clock c.stops).exec env).run db

/-- What a call returns, unless the process stops before it does. -/
def RefreshCall.reply (c : RefreshCall) (r : DurableRefreshResult) : Reply :=
  if c.stops then .stopped else .refresh r

theorem RefreshCall.reply_stops {c : RefreshCall} (h : c.stops = true) (r : DurableRefreshResult) :
    Reply.stopped = c.reply r := by
  simp [RefreshCall.reply, h]

theorem RefreshCall.reply_returns {c : RefreshCall} (h : ¬ c.stops = true)
    (r : DurableRefreshResult) : Reply.refresh r = c.reply r := by
  simp [RefreshCall.reply, h]

/-- The rest of a call, from where it would insert its ledger row. -/
def RefreshCall.finish (c : RefreshCall) (prepared : Except StoreError RefreshStep) (db : Db) :
    Except StoreError Reply × Db :=
  match prepared with
  | .error e => (.error e, db)
  | .ok (.done r) => (.ok (c.reply r), db)
  | .ok (.bind row) =>
    if c.stops then (.ok .stopped, db)
    else match recordRefreshRequest row db with
      | .ok (r, db) => (.ok (.refresh r), db)
      | .error e => (.error e, db)

theorem RefreshCall.run_eq (c : RefreshCall) (db : Db) :
    ∃ prepared db₁, Prepared env c.args db prepared db₁ ∧ c.run env db = c.finish prepared db₁ := by
  obtain ⟨args, clock, stops⟩ := c
  refine ⟨_, _, @prepareRefresh_prepared env db args clock, ?_⟩
  cases hrun : (prepareRefresh env args clock).run db with
  | mk prepared db₁ =>
  cases stops with
  | true =>
    show Proc.run (prepareRefresh env args clock >>= fun _ => pure Reply.stopped) db = _
    rw [Proc.run_bind, hrun]
    cases prepared with
    | error e => rfl
    | ok step => cases step <;> rfl
  | false =>
    show Proc.run (submitAgentRefresh env args clock >>= fun r => pure (Reply.refresh r)) db = _
    rw [Proc.run_bind, submitAgentRefresh, Proc.run_bind, hrun]
    cases prepared with
    | error e => rfl
    | ok step =>
      cases step with
      | done r => rfl
      | bind row =>
        cases hrecord : recordRefreshRequest row db₁ with
        | error e =>
          have hfail := Proc.run_atomically_of_error hrecord
          simp [RefreshCall.finish, hfail, hrecord]
        | ok result =>
          obtain ⟨r, db₂⟩ := result
          have hdone := Proc.run_atomically_of_ok hrecord
          simp [RefreshCall.finish, hdone, hrecord]

/-- A call of a run, with the store around it and what it returned. -/
structure RefreshMove where
  call : RefreshCall
  before : Db
  result : Except StoreError Reply
  after : Db

/-- A call made on a store. -/
def RefreshCall.move (c : RefreshCall) (db : Db) : RefreshMove :=
  ⟨c, db, (c.run env db).1, (c.run env db).2⟩

/-- The runs of refresh calls from the empty store. -/
inductive RefreshRun : List RefreshMove → Db → Prop where
  | empty : RefreshRun [] {}
  | call {moves : List RefreshMove} {db : Db} (run : RefreshRun moves db) (c : RefreshCall) :
      RefreshRun (moves ++ [c.move env db]) (c.run env db).2

end

section

variable {env : Env}

/-! ## The lookups -/

/-- The identity check of a pending confirmation. -/
def confirmationIdentity (pending : Option RefreshConfirmationRow) (args : RefreshArgs) :
    Except StoreError Unit :=
  match pending with
  | some row => validateRefreshConfirmationIdentity row args
  | none => .ok ()

/-- The lookups of a request without a ledger row. -/
def resolveJob (args : RefreshArgs) (pending : Option RefreshConfirmationRow) (db : Db) :
    Except StoreError (Option RefreshStep × Option RefreshConfirmationRow) := do
  match ← refreshJobByRequestId args.requestId db with
  | some job => do
    let control ← refreshControl job.request
    require (control.principal = args.principal)
      (.refreshAccess "request_instance_id belongs to another principal")
    require (control.requestFingerprint = args.requestFingerprint)
      (.refreshReplay "request_instance_id was reused for a different request")
    .ok (some (.bind (ledgerRow args control.dedupeKey job.jobId .accepted control.initialState
      control.submittedAt control.cooldownUntil)), pending)
  | none =>
    match ← activeRefreshDedupe args.dedupeKey args.submittedAt db with
    | some prior => .ok (some (.bind (ledgerRow args args.dedupeKey prior.jobId .deduplicated
        prior.initialState args.submittedAt prior.cooldownUntil)), pending)
    | none => .ok (none, pending)

/-- The pending confirmation of a request. -/
def Db.confirmation? (db : Db) (requestId : String) : Option RefreshConfirmationRow :=
  db.refreshConfirmations.find? fun c => c.requestId = requestId

theorem resolveRefresh_ledger {args : RefreshArgs} {db : Db} {row : RefreshRequestRow}
    (h : db.refreshRequests.find? (fun r => r.requestId = args.requestId) = some row) :
    resolveRefresh args db =
      validateExistingRefreshRequest row args >>= fun r => .ok (some (.done r), none) := by
  unfold resolveRefresh
  rw [h]

theorem resolveRefresh_unrecorded {args : RefreshArgs} {db : Db}
    (h : ∀ r ∈ db.refreshRequests, r.requestId ≠ args.requestId) :
    resolveRefresh args db =
      confirmationIdentity (db.confirmation? args.requestId) args >>= fun _ =>
        resolveJob args (db.confirmation? args.requestId) db := by
  unfold resolveRefresh
  rw [find?_key_eq_none.mpr h]
  unfold Db.confirmation?
  generalize db.refreshConfirmations.find? _ = pending
  cases pending <;> rfl

/-- The row of a request is found, or there is none. -/
theorem resolveRefresh_cases (args : RefreshArgs) (db : Db) :
    (∃ row ∈ db.refreshRequests, row.requestId = args.requestId ∧ resolveRefresh args db =
      validateExistingRefreshRequest row args >>= fun r => .ok (some (.done r), none)) ∨
    ((∀ r ∈ db.refreshRequests, r.requestId ≠ args.requestId) ∧ resolveRefresh args db =
      confirmationIdentity (db.confirmation? args.requestId) args >>= fun _ =>
        resolveJob args (db.confirmation? args.requestId) db) := by
  cases h : db.refreshRequests.find? (fun r => r.requestId = args.requestId) with
  | some row =>
    have hid := List.find?_some h
    exact .inl ⟨row, List.mem_of_find?_eq_some h, by simpa using hid, resolveRefresh_ledger h⟩
  | none =>
    have hnone := find?_key_eq_none.mp h
    exact .inr ⟨hnone, resolveRefresh_unrecorded hnone⟩

/-- A call whose lookups find nothing. -/
structure Unbound (args : RefreshArgs) (db : Db) : Prop where
  ledger : ∀ r ∈ db.refreshRequests, r.requestId ≠ args.requestId
  identity : confirmationIdentity (db.confirmation? args.requestId) args = .ok ()
  job : refreshJobByRequestId args.requestId db = .ok none
  cohort : activeRefreshDedupe args.dedupeKey args.submittedAt db = .ok none

theorem resolveRefresh_none {args : RefreshArgs} {db : Db} {pending : Option RefreshConfirmationRow}
    (h : resolveRefresh args db = .ok (none, pending)) :
    Unbound args db ∧ pending = db.confirmation? args.requestId := by
  rcases resolveRefresh_cases args db with ⟨row, -, -, heq⟩ | ⟨hnone, heq⟩
  · rw [heq] at h
    simp at h
  · rw [heq] at h
    simp only [resolveJob, bind_ok] at h
    obtain ⟨u, hidentity, job, hjob, h⟩ := h
    cases job with
    | some job => simp at h
    | none =>
      simp only [bind_ok] at h
      obtain ⟨prior, hprior, h⟩ := h
      cases prior with
      | some prior => simp at h
      | none =>
        simp only [Except.ok.injEq, Prod.mk.injEq, true_and] at h
        exact ⟨⟨hnone, hidentity, hjob, hprior⟩, h.symm⟩

/-- A ledger row still to be written is for the request's own job, or for that of a cohort. -/
inductive Binds (args : RefreshArgs) (db : Db) (row : RefreshRequestRow) : Prop where
  | own {job : JobRow} {control : RefreshControl}
      (found : refreshJobByRequestId args.requestId db = .ok (some job))
      (read : refreshControl job.request = .ok control)
      (principal : control.principal = args.principal)
      (fingerprint : control.requestFingerprint = args.requestFingerprint)
      (is : row = ledgerRow args control.dedupeKey job.jobId .accepted control.initialState
        control.submittedAt control.cooldownUntil)
  | cohort {prior : CohortMember} (none : refreshJobByRequestId args.requestId db = .ok none)
      (active : activeRefreshDedupe args.dedupeKey args.submittedAt db = .ok (some prior))
      (is : row = ledgerRow args args.dedupeKey prior.jobId .deduplicated prior.initialState
        args.submittedAt prior.cooldownUntil)

theorem resolveRefresh_bind {args : RefreshArgs} {db : Db} {row : RefreshRequestRow}
    {pending : Option RefreshConfirmationRow}
    (h : resolveRefresh args db = .ok (some (.bind row), pending)) :
    (∀ r ∈ db.refreshRequests, r.requestId ≠ args.requestId) ∧
      confirmationIdentity (db.confirmation? args.requestId) args = .ok () ∧ Binds args db row := by
  rcases resolveRefresh_cases args db with ⟨existing, -, -, heq⟩ | ⟨hnone, heq⟩
  · rw [heq] at h
    simp at h
  · rw [heq] at h
    simp only [resolveJob, bind_ok] at h
    obtain ⟨u, hidentity, job, hjob, h⟩ := h
    refine ⟨hnone, hidentity, ?_⟩
    cases job with
    | some job =>
      simp only [bind_ok, require_ok, Except.ok.injEq, Prod.mk.injEq, Option.some.injEq,
        RefreshStep.bind.injEq] at h
      obtain ⟨control, hcontrol, -, hprincipal, -, hfingerprint, hrow, -⟩ := h
      exact .own hjob hcontrol hprincipal hfingerprint hrow.symm
    | none =>
      simp only [bind_ok] at h
      obtain ⟨prior, hprior, h⟩ := h
      cases prior with
      | some prior =>
        simp only [Except.ok.injEq, Prod.mk.injEq, Option.some.injEq, RefreshStep.bind.injEq] at h
        exact .cohort hjob hprior h.1.symm
      | none => simp at h

/-- The ledger insert of a job that was just created succeeds. -/
theorem recordRefreshRequest_acceptedRow {args : RefreshArgs} {db db' : Db} {j : JobRow}
    (hvalid : validateRefreshArgs args = .ok ())
    (hnone : ∀ r ∈ db.refreshRequests, r.requestId ≠ args.requestId)
    (hjobs : db'.jobs = db.jobs ++ [j]) (hrequests : db'.refreshRequests = db.refreshRequests) :
    recordRefreshRequest (acceptedRow args j) db' = .ok
      ({ jobId := some j.jobId, disposition := .accepted, initialState := "queued"
         submittedAt := args.submittedAt },
        { db' with refreshRequests := db'.refreshRequests ++ [acceptedRow args j] }) := by
  have hcooldown := (validateRefreshArgs_ok hvalid).cooldown
  have hunique : ∀ r ∈ db'.refreshRequests, r.requestId ≠ (acceptedRow args j).requestId := by
    rw [hrequests]
    exact hnone
  have hforeign : ∃ i ∈ db'.jobs, i.jobId = (acceptedRow args j).jobId :=
    ⟨j, by simp [hjobs], rfl⟩
  simp only [recordRefreshRequest, bind_ok, require_ok, exists_const]
  exact ⟨hunique, hcooldown, hforeign, rfl⟩

/-- What a ledger row answers. -/
def RefreshRequestRow.result (row : RefreshRequestRow) : DurableRefreshResult where
  jobId := some row.jobId
  disposition := row.disposition
  initialState := row.initialState
  submittedAt := row.submittedAt

theorem recordRefreshRequest_ok {row : RefreshRequestRow} {db db' : Db} {r : DurableRefreshResult}
    (h : recordRefreshRequest row db = .ok (r, db')) :
    r = row.result ∧ db' = { db with refreshRequests := db.refreshRequests ++ [row] } := by
  simp only [recordRefreshRequest, bind_ok, require_ok, Except.ok.injEq, Prod.mk.injEq] at h
  obtain ⟨-, -, -, -, -, -, rfl, rfl⟩ := h
  exact ⟨rfl, rfl⟩

/-- An answer found by the lookups is that of the request's ledger row. -/
theorem resolveRefresh_done {args : RefreshArgs} {db : Db} {r : DurableRefreshResult}
    {pending : Option RefreshConfirmationRow}
    (h : resolveRefresh args db = .ok (some (.done r), pending)) :
    ∃ row ∈ db.refreshRequests, row.requestId = args.requestId ∧ r = row.result := by
  rcases resolveRefresh_cases args db with ⟨row, hrow, hid, heq⟩ | ⟨-, heq⟩
  · rw [heq] at h
    simp only [validateExistingRefreshRequest, bind_ok, Except.ok.injEq, Prod.mk.injEq,
      Option.some.injEq, RefreshStep.done.injEq] at h
    obtain ⟨_, ⟨-, -, -, -, rfl⟩, rfl, -⟩ := h
    exact ⟨row, hrow, hid, rfl⟩
  · rw [heq] at h
    simp only [resolveJob, bind_ok] at h
    obtain ⟨u, -, job, -, h⟩ := h
    cases job with
    | some job => simp at h
    | none =>
      simp only [bind_ok] at h
      obtain ⟨prior, -, h⟩ := h
      cases prior with
      | some prior => simp at h
      | none => simp at h

/-- What a call returns and what it leaves behind. -/
inductive RefreshCall.Step (env : Env) (c : RefreshCall) (db : Db) :
    Except StoreError Reply → Db → Prop where
  | refused {e : StoreError} {db' : Db} (same : db.SameRefresh db')
      (refused : ¬ Admitted env c.args db)
      (quiet : Quiet (validateRefreshArgs c.args) → ∀ m, e ≠ .refreshConfirmation m) :
      Step env c db (.error e) db'
  | rejected {e : StoreError} {db₁ : Db} (synced : Synced env c.args db db₁)
      (resolve : resolveRefresh c.args db = .error e) : Step env c db (.error e) db₁
  | replayed {r : DurableRefreshResult} {pending : Option RefreshConfirmationRow} {db₁ : Db}
      (synced : Synced env c.args db db₁)
      (resolve : resolveRefresh c.args db = .ok (some (.done r), pending)) :
      Step env c db (.ok (c.reply r)) db₁
  | bound {row : RefreshRequestRow} {pending : Option RefreshConfirmationRow} {db₁ db' : Db}
      (synced : Synced env c.args db db₁)
      (resolve : resolveRefresh c.args db = .ok (some (.bind row), pending))
      (jobs : db'.jobs = db.jobs)
      (requests : db'.refreshRequests = db.refreshRequests ++ if c.stops then [] else [row])
      (confirmations : db'.refreshConfirmations = db.refreshConfirmations) :
      Step env c db (.ok (c.reply row.result)) db'
  | unrecorded {e : StoreError} {row : RefreshRequestRow}
      {pending : Option RefreshConfirmationRow} {db₁ : Db} (synced : Synced env c.args db db₁)
      (resolve : resolveRefresh c.args db = .ok (some (.bind row), pending))
      (record : recordRefreshRequest row db₁ = .error e) : Step env c db (.error e) db₁
  | unconfirmed {e : StoreError} {pending : Option RefreshConfirmationRow} {db₁ : Db}
      (synced : Synced env c.args db db₁) (resolve : resolveRefresh c.args db = .ok (none, pending))
      (answer : onspdRefreshConfirmation env c.args pending db₁ = .error e) :
      Step env c db (.error e) db₁
  | answered {r : DurableRefreshResult} {pending : Option RefreshConfirmationRow} {db₁ db₂ : Db}
      (synced : Synced env c.args db db₁) (resolve : resolveRefresh c.args db = .ok (none, pending))
      (answer : onspdRefreshConfirmation env c.args pending db₁ = .ok (some r, db₂)) :
      Step env c db (.ok (c.reply r)) db₂
  | unqueued {e : StoreError} {pending : Option RefreshConfirmationRow} {db₁ db' : Db}
      (synced : Synced env c.args db db₁) (resolve : resolveRefresh c.args db = .ok (none, pending))
      (answer : onspdRefreshConfirmation env c.args pending db₁ = .ok (none, db₁))
      (same : db.SameRefresh db') (quiet : ∀ m, e ≠ .refreshConfirmation m)
      (failed : Unqueued env c.args db e) : Step env c db (.error e) db'
  | created {pending : Option RefreshConfirmationRow} {db₁ db' : Db} {j : JobRow}
      (synced : Synced env c.args db db₁) (resolve : resolveRefresh c.args db = .ok (none, pending))
      (answer : onspdRefreshConfirmation env c.args pending db₁ = .ok (none, db₁))
      (job : NewJob env c.args j) (newId : ∀ i ∈ db.jobs, i.jobId ≠ j.jobId)
      (jobs : db'.jobs = db.jobs ++ [j])
      (requests : db'.refreshRequests = db.refreshRequests ++
        if c.stops then [] else [acceptedRow c.args j])
      (confirmations : db'.refreshConfirmations = db.refreshConfirmations) :
      Step env c db (.ok (c.reply (acceptedRow c.args j).result)) db'

theorem RefreshCall.step (c : RefreshCall) (db : Db) :
    c.Step env db (c.run env db).1 (c.run env db).2 := by
  obtain ⟨prepared, db₁, hprepared, hrun⟩ := c.run_eq env db
  rw [hrun]
  cases hprepared with
  | refused same refused quiet => exact .refused same refused quiet
  | rejected synced resolve => exact .rejected synced resolve
  | unconfirmed synced resolve answer => exact .unconfirmed synced resolve answer
  | unqueued synced resolve answer same quiet failed =>
    exact .unqueued synced resolve answer same quiet failed
  | answered synced resolve answer => exact .answered synced resolve answer
  | @resolved step pending _ synced resolve =>
    cases step with
    | done r => exact .replayed synced resolve
    | bind row =>
      simp only [RefreshCall.finish]
      split
      · next hstops =>
        rw [RefreshCall.reply_stops hstops row.result]
        exact .bound synced resolve synced.same.jobs (by simp [hstops, synced.same.requests])
          synced.same.confirmations
      · next hstops =>
        split
        · next r db₂ hrecord =>
          obtain ⟨rfl, rfl⟩ := recordRefreshRequest_ok hrecord
          rw [RefreshCall.reply_returns hstops]
          refine .bound synced resolve synced.same.jobs ?_ synced.same.confirmations
          simp [hstops, synced.same.requests]
        · next e hrecord => exact .unrecorded synced resolve hrecord
  | @created pending db₂ _ j synced resolve answer job newId jobs requests confirmations =>
    simp only [RefreshCall.finish]
    split
    · next hstops =>
      rw [RefreshCall.reply_stops hstops (acceptedRow c.args j).result]
      exact .created synced resolve answer job newId jobs (by simp [hstops, requests]) confirmations
    · next hstops =>
      rw [recordRefreshRequest_acceptedRow synced.valid (resolveRefresh_none resolve).1.ledger
        jobs requests]
      show c.Step env db (.ok (.refresh (acceptedRow c.args j).result)) _
      rw [RefreshCall.reply_returns hstops]
      exact .created synced resolve answer job newId jobs (by simp [hstops, requests]) confirmations

/-- What a call leaves behind in the tables of jobs and requests. -/
theorem RefreshCall.Step.jobs_cases {c : RefreshCall} {db db' : Db}
    {result : Except StoreError Reply} (h : c.Step env db result db') :
    db'.jobs = db.jobs ∨ ∃ j, NewJob env c.args j ∧ db'.jobs = db.jobs ++ [j] := by
  cases h with
  | refused same _ _ => exact .inl same.jobs
  | rejected synced _ => exact .inl synced.same.jobs
  | replayed synced _ => exact .inl synced.same.jobs
  | bound _ _ jobs _ _ => exact .inl jobs
  | unrecorded synced _ _ => exact .inl synced.same.jobs
  | unconfirmed synced _ _ => exact .inl synced.same.jobs
  | answered synced _ answer => 
    exact .inl ((onspdRefreshConfirmation_jobs answer).1.trans synced.same.jobs)
  | unqueued _ _ _ same _ => exact .inl same.jobs
  | created _ _ _ job _ jobs _ _ => exact .inr ⟨_, job, jobs⟩

/-! ## The moves of a run -/

/-- The job a move creates. -/
def RefreshMove.created (m : RefreshMove) : Option JobRow :=
  (m.after.jobs.drop m.before.jobs.length).head?

theorem RefreshCall.move_created {c : RefreshCall} {db : Db} :
    ((c.move env db).created = none ∧ (c.run env db).2.jobs = db.jobs) ∨
      ∃ j, (c.move env db).created = some j ∧ NewJob env c.args j ∧
        (c.run env db).2.jobs = db.jobs ++ [j] := by
  rcases (c.step db).jobs_cases with h | ⟨j, hj, h⟩
  · refine .inl ⟨?_, h⟩
    simp [RefreshMove.created, RefreshCall.move, h]
  · refine .inr ⟨j, ?_, hj, h⟩
    simp [RefreshMove.created, RefreshCall.move, h]

/-- The jobs of the store are those the moves created, in their order. -/
theorem RefreshRun.jobs {moves : List RefreshMove} {db : Db} (run : RefreshRun env moves db) :
    db.jobs = moves.filterMap RefreshMove.created := by
  induction run with
  | empty => rfl
  | @call moves db run c ih =>
    rw [List.filterMap_append, ← ih]
    rcases @RefreshCall.move_created env c db with ⟨hnone, h⟩ | ⟨j, hj, -, h⟩
    · simp [hnone, h]
    · simp [hj, h]

/-- A move of a run is a call on the store the moves before it led to. -/
theorem RefreshRun.split {moves earlier later : List RefreshMove} {m : RefreshMove} {db : Db}
    (run : RefreshRun env moves db) (h : moves = earlier ++ m :: later) :
    RefreshRun env earlier m.before ∧ m = m.call.move env m.before := by
  induction run generalizing later with
  | empty => exact absurd h (by simp)
  | @call moves db run c ih =>
    rcases List.eq_nil_or_concat later with rfl | ⟨later', last, rfl⟩
    · obtain ⟨rfl, hm⟩ := List.append_inj' h rfl
      obtain rfl := (List.singleton_inj.mp hm).symm
      exact ⟨run, rfl⟩
    · have hsplit : moves ++ [c.move env db] = (earlier ++ m :: later') ++ [last] := by
        simpa using h
      exact ih (List.append_inj' hsplit rfl).1

theorem RefreshRun.step {moves : List RefreshMove} {db : Db} (run : RefreshRun env moves db)
    {m : RefreshMove} (hm : m ∈ moves) : m.call.Step env m.before m.result m.after := by
  obtain ⟨earlier, later, h⟩ := List.append_of_mem hm
  have hmove := (run.split h).2
  rw [hmove]
  exact RefreshCall.step m.call m.before

/-- The move answered with a confirmation it had just issued. -/
structure RefreshMove.Issues (m : RefreshMove) (row : RefreshConfirmationRow) : Prop where
  asked : m.call.args.confirmationToken = none
  requestId : row.requestId = m.call.args.requestId
  principal : row.principal = m.call.args.principal
  requestFingerprint : row.requestFingerprint = m.call.args.requestFingerprint
  datasourceId : row.datasourceId = m.call.args.datasourceId
  definitionVersion : row.definitionVersion = m.call.args.definitionVersion
  issuedAt : row.issuedAt = m.call.args.submittedAt
  expiresAt : m.call.args.submittedAt.add? refreshConfirmationTtl = some row.expiresAt
  answer : m.result = .ok (m.call.reply (confirmationRequired row))

/-- The confirmations after a call: those before it, and perhaps the one it issues. -/
theorem RefreshCall.confirmations_cases (c : RefreshCall) (db : Db) :
    (c.run env db).2.refreshConfirmations = db.refreshConfirmations ∨
      ∃ row, (c.run env db).2.refreshConfirmations = db.refreshConfirmations ++ [row] ∧
        (c.move env db).Issues row := by
  have hstep := @RefreshCall.step env c db
  generalize hresult : (c.run env db).1 = result at hstep
  generalize hafter : (c.run env db).2 = after at hstep ⊢
  cases hstep with
  | refused same _ _ => exact .inl same.confirmations
  | rejected synced _ => exact .inl synced.same.confirmations
  | replayed synced _ => exact .inl synced.same.confirmations
  | bound _ _ _ _ confirmations => exact .inl confirmations
  | unrecorded synced _ _ => exact .inl synced.same.confirmations
  | unconfirmed synced _ _ => exact .inl synced.same.confirmations
  | unqueued _ _ _ same _ => exact .inl same.confirmations
  | created _ _ _ _ _ _ _ confirmations => exact .inl confirmations
  | answered synced _ answer =>
    obtain ⟨-, hasked, ⟨row, -, -, -, rfl⟩ | ⟨row, -, rfl, h₁, h₂, h₃, h₄, h₅, h₆, h₇, -, rfl⟩⟩ :=
      onspdRefreshConfirmation_some answer
    · exact .inl synced.same.confirmations
    · refine .inr ⟨row, ?_, hasked, h₁, h₂, h₃, h₄, h₅, h₆, h₇, hresult⟩
      show _ ++ [row] = _
      rw [synced.same.confirmations]

/-- Every confirmation was issued by a move. -/
theorem RefreshRun.issued {moves : List RefreshMove} {db : Db} (run : RefreshRun env moves db)
    {row : RefreshConfirmationRow} (hrow : row ∈ db.refreshConfirmations) :
    ∃ m ∈ moves, m.Issues row := by
  induction run with
  | empty => exact nomatch hrow
  | @call moves db run c ih =>
    have hold : row ∈ db.refreshConfirmations → ∃ m ∈ moves ++ [c.move env db], m.Issues row := by
      intro h
      obtain ⟨m, hm, hissues⟩ := ih h
      exact ⟨m, List.mem_append_left _ hm, hissues⟩
    rcases @RefreshCall.confirmations_cases env c db with h | ⟨new, h, hissues⟩
    · rw [h] at hrow
      exact hold hrow
    · rw [h] at hrow
      rcases List.mem_append.mp hrow with hrow | hrow
      · exact hold hrow
      · obtain rfl := List.mem_singleton.mp hrow
        exact ⟨_, List.mem_append_right _ (List.mem_singleton_self _), hissues⟩

end

end NanFung
