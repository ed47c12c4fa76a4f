import NanFung.RefreshRuns
import NanFung.Sample

/-!
# Using a confirmation

A confirmation stays in the store until it expires, and repeating the request with its token gets past
the checks of the token, whatever happened in between. The one exception is a day with quota left:
there the code refuses a token, also one it issued on the day before.
-/

namespace NanFung

open Table

variable {env : Env} {G : Guard}

/-! ## Confirmations persist -/

theorem Effect.confirmation? {t : Time} {db db' : Db} (h : Effect env G t db db') {requestId : String}
    {row : RefreshConfirmationRow} (hrow : db.confirmation? requestId = some row) :
    db'.confirmation? requestId = some row := by
  cases h with
  | ledger _ _ _ keptPending =>
    obtain ⟨later, rfl⟩ := keptPending
    show (db.refreshConfirmations ++ later).find? _ = some row
    rw [List.find?_append]
    exact congrArg (Option.or · _) hrow
  | _ => exact hrow

theorem Effects.confirmation? {db db' : Db} (h : Effects env G db db') {requestId : String}
    {row : RefreshConfirmationRow} (hrow : db.confirmation? requestId = some row) :
    db'.confirmation? requestId = some row := by
  induction h with
  | refl => exact hrow
  | tail _ hstep ih =>
    obtain ⟨t, -, heffect⟩ := hstep
    exact heffect.confirmation? ih

/-! ## What a call that asks for a confirmation leaves behind -/

/-- The confirmation of a request. -/
structure RefreshConfirmationRow.For (row : RefreshConfirmationRow) (args : RefreshArgs) : Prop where
  principal : row.principal = args.principal
  requestFingerprint : row.requestFingerprint = args.requestFingerprint
  datasourceId : row.datasourceId = args.datasourceId
  definitionVersion : row.definitionVersion = args.definitionVersion

theorem For.of_identity {row : RefreshConfirmationRow} {args : RefreshArgs}
    (h : validateRefreshConfirmationIdentity row args = .ok ()) : row.For args := by
  simp only [validateRefreshConfirmationIdentity, bind_ok, require_ok] at h
  obtain ⟨-, hprincipal, -, hfingerprint, hdefinition⟩ := h
  exact ⟨hprincipal, hfingerprint, hdefinition.1, hdefinition.2⟩

theorem For.identity {row : RefreshConfirmationRow} {args : RefreshArgs} (h : row.For args) :
    validateRefreshConfirmationIdentity row args = .ok () := by
  simp [validateRefreshConfirmationIdentity, require, h.principal, h.requestFingerprint,
    h.datasourceId, h.definitionVersion]

/-- A call that returns a token leaves its confirmation in the store. -/
theorem RefreshCall.asked {c : RefreshCall} {db : Db} {r : DurableRefreshResult} {token : String}
    (h : (c.run env db).1 = .ok (.refresh r)) (htoken : r.confirmationToken = some token) :
    ∃ row, (c.run env db).2.confirmation? c.args.requestId = some row ∧ r = confirmationRequired row ∧
      row.For c.args ∧ c.args.datasourceId = onspdRefreshDatasourceId := by
  have hreply : ∀ {r'}, (.ok (.refresh r) : Except StoreError Reply) = .ok (c.reply r') → r = r' := by
    intro r' h
    unfold RefreshCall.reply at h
    split at h
    · exact nomatch h
    · cases h
      rfl
  have hstep := @RefreshCall.step env c db
  generalize hresult : (c.run env db).1 = result at hstep h
  generalize hafter : (c.run env db).2 = after at hstep ⊢
  cases hstep with
  | refused _ _ _ => exact nomatch h
  | rejected _ _ => exact nomatch h
  | unrecorded _ _ _ => exact nomatch h
  | unconfirmed _ _ _ => exact nomatch h
  | unqueued _ _ _ _ _ => exact nomatch h
  | @replayed r' _ _ _ resolve =>
    -- a ledger row has no token
    obtain rfl := hreply h.symm
    obtain ⟨row, -, -, rfl⟩ := resolveRefresh_done resolve
    exact nomatch htoken
  | bound _ _ _ _ _ =>
    obtain rfl := hreply h.symm
    exact nomatch htoken
  | created _ _ _ _ _ _ _ _ =>
    obtain rfl := hreply h.symm
    exact nomatch htoken
  | answered synced resolve answer =>
    obtain rfl := hreply h.symm
    obtain ⟨hunbound, rfl⟩ := resolveRefresh_none resolve
    have hidentity := hunbound.identity
    obtain ⟨honspd, -, ⟨row, hrow, -, rfl, rfl⟩ |
      ⟨row, hnone, rfl, hid, hp, hf, hd, hv, -, -, -, rfl⟩⟩ := onspdRefreshConfirmation_some answer
    · rw [hrow] at hidentity
      refine ⟨row, ?_, rfl, For.of_identity hidentity, honspd⟩
      unfold Db.confirmation?
      rw [synced.same.confirmations]
      exact hrow
    · refine ⟨row, ?_, rfl, ⟨hp, hf, hd, hv⟩, honspd⟩
      show List.find? _ (_ ++ [row]) = some row
      have hnone' : List.find? (fun d => decide (d.requestId = c.args.requestId))
          db.refreshConfirmations = none := hnone
      rw [synced.same.confirmations, List.find?_append, hnone']
      simp [hid]

/-! ## What a call that presents the token does -/

theorem quiet_resolveRefresh (args : RefreshArgs) (db : Db) : Quiet (resolveRefresh args db) := by
  rcases resolveRefresh_cases args db with ⟨row, -, -, heq⟩ | ⟨-, heq⟩
  · rw [heq]
    refine .bind ?_ fun _ => .ok _
    exact .bind (.require (by simp)) fun _ => .bind (.require (by simp)) fun _ => .ok _
  · rw [heq]
    refine .bind ?_ fun _ => .bind ?_ fun job => ?_
    · unfold confirmationIdentity
      split
      · refine .bind (.require (by simp)) fun _ => .bind (.require (by simp)) fun _ => ?_
        exact .require (by simp)
      · exact .ok _
    · unfold refreshJobByRequestId
      split <;> simp
    · split
      · refine .bind (quiet_refreshControl _) fun _ => ?_
        exact .bind (.require (by simp)) fun _ => .bind (.require (by simp)) fun _ => .ok _
      · refine .bind (quiet_activeRefreshDedupe _ _) fun prior => ?_
        split
        · exact .ok _
        · exact .ok _

/-- The call repeats the request a confirmation was issued for, with its token and in time. -/
structure Presents (args : RefreshArgs) (row : RefreshConfirmationRow) : Prop where
  identity : row.For args
  onspd : args.datasourceId = onspdRefreshDatasourceId
  token : args.confirmationToken = some row.confirmationToken
  tokenForm : row.confirmationToken ≠ "" ∧ row.confirmationToken.length ≤ 256
  unexpired : args.submittedAt < row.expiresAt

/-- The quota of the day is not used up. -/
def QuotaLeft (env : Env) (args : RefreshArgs) (db : Db) : Prop :=
  ∃ used, refreshJobsInLondonDay env args.submittedAt db = .ok used ∧ used < onspdRefreshDailyLimit

theorem refreshJobsInLondonDay_congr {db db' : Db} (h : db.SameRefresh db') (t : Time) :
    refreshJobsInLondonDay env t db' = refreshJobsInLondonDay env t db := by
  unfold refreshJobsInLondonDay
  rw [h.jobs]

namespace Presents

variable {args : RefreshArgs} {row : RefreshConfirmationRow} {db : Db}

theorem quiet_validate (h : Presents args row) : Quiet (validateRefreshArgs args) := by
  have htoken : requireOptionalRefreshConfirmationToken args.confirmationToken = .ok () := by
    rw [h.token]
    exact require_ok.mpr fun v hv => Option.some.inj hv ▸ h.tokenForm
  have honspd : require (args.confirmationToken.isSome →
      args.datasourceId = onspdRefreshDatasourceId) (StoreError.refreshConfirmation
        "confirmation is only supported for the ONSPD refresh tool") = .ok () :=
    require_ok.mpr fun _ => h.onspd
  refine .bind (.require (by simp)) fun _ => .bind (.require (by simp)) fun _ => ?_
  refine .bind (.require (by simp)) fun _ => .bind (.require (by simp)) fun _ => ?_
  refine .bind (.require (by simp)) fun _ => .bind (htoken ▸ .ok ()) fun _ => ?_
  exact .bind (honspd ▸ .ok ()) fun _ => .require (by simp)

/-- The checks of the token: the only complaint is that none is needed. -/
theorem onspdRefreshConfirmation (h : Presents args row) :
    (QuotaLeft env args db ∧ onspdRefreshConfirmation env args (some row) db =
      .error (.refreshConfirmation
        "confirmation is not required while the ONSPD daily quota remains")) ∨
    ¬ QuotaLeft env args db ∧ ((∃ e, refreshJobsInLondonDay env args.submittedAt db = .error e ∧
        onspdRefreshConfirmation env args (some row) db = .error e) ∨
      onspdRefreshConfirmation env args (some row) db = .ok (none, db)) := by
  unfold NanFung.onspdRefreshConfirmation
  rw [if_neg (not_not.mpr h.onspd)]
  cases hused : refreshJobsInLondonDay env args.submittedAt db with
  | error e =>
    refine .inr ⟨?_, .inl ⟨e, rfl, rfl⟩⟩
    rintro ⟨used, hok, -⟩
    exact nomatch hused.symm.trans hok
  | ok used =>
    by_cases hleft : used < onspdRefreshDailyLimit
    · refine .inl ⟨⟨used, hused, hleft⟩, ?_⟩
      show (if used < onspdRefreshDailyLimit then _ else _) = _
      rw [if_pos hleft, require, if_neg (by simp [h.token])]
      rfl
    · refine .inr ⟨?_, .inr ?_⟩
      · rintro ⟨used', hok, hlt⟩
        obtain rfl := Except.ok.inj (hused.symm.trans hok)
        exact hleft hlt
      · show (if used < onspdRefreshDailyLimit then _ else _) = _
        rw [if_neg hleft, h.token]
        simp [orThrow, require, h.unexpired]

end Presents

/-- Why a call is refused for something else than its confirmation. -/
inductive Refusal (env : Env) (args : RefreshArgs) (db : Db) (e : StoreError) : Prop where
  | admission (refused : ¬ Admitted env args db)
  | lookups (failed : resolveRefresh args db = .error e)
  | window (failed : refreshJobsInLondonDay env args.submittedAt db = .error e)
  | enqueue (failed : Unqueued env args db e)
  | ledger {row : RefreshRequestRow} {db₁ : Db} (failed : recordRefreshRequest row db₁ = .error e)

/-- What a call that presents a token comes to. -/
structure Outcome (env : Env) (args : RefreshArgs) (db : Db) (result : Except StoreError Reply) :
    Prop where
  confirmation : (∃ m, result = .error (.refreshConfirmation m)) ↔
    Admitted env args db ∧ Unbound args db ∧ QuotaLeft env args db
  refused : ∀ e, result = .error e → (∀ m, e ≠ .refreshConfirmation m) → Refusal env args db e
  returned : ∀ reply, result = .ok reply → ∃ r, reply = .refresh r ∧
    (r.disposition = .accepted ∨ r.disposition = .deduplicated ∨
      ∃ row ∈ db.refreshRequests, row.requestId = args.requestId ∧ r = row.result)

namespace Outcome

variable {args : RefreshArgs} {db : Db}

theorem of_ok {r : DurableRefreshResult}
    (hunneeded : ¬ (Admitted env args db ∧ Unbound args db ∧ QuotaLeft env args db))
    (h : r.disposition = .accepted ∨ r.disposition = .deduplicated ∨
      ∃ row ∈ db.refreshRequests, row.requestId = args.requestId ∧ r = row.result) :
    Outcome env args db (.ok (.refresh r)) where
  confirmation := ⟨fun ⟨_, h⟩ => (nomatch h), fun h => absurd h hunneeded⟩
  refused _ h := nomatch h
  returned _ hreply := ⟨r, (Except.ok.inj hreply).symm, h⟩

theorem of_refusal {e : StoreError}
    (hunneeded : ¬ (Admitted env args db ∧ Unbound args db ∧ QuotaLeft env args db))
    (hquiet : ∀ m, e ≠ .refreshConfirmation m) (h : Refusal env args db e) :
    Outcome env args db (.error e) where
  confirmation := ⟨fun ⟨m, h⟩ => absurd (Except.error.inj h) (hquiet m), fun h => absurd h hunneeded⟩
  refused _ he _ := Except.error.inj he ▸ h
  returned _ h := nomatch h

end Outcome

theorem Unbound.resolve {args : RefreshArgs} {db : Db} (h : Unbound args db) :
    ∃ pending, resolveRefresh args db = .ok (none, pending) := by
  rcases resolveRefresh_cases args db with ⟨row, hrow, hid, -⟩ | ⟨-, heq⟩
  · exact absurd hid (h.ledger row hrow)
  · refine ⟨db.confirmation? args.requestId, heq.trans ?_⟩
    simp only [resolveJob, bind_ok]
    refine ⟨(), h.identity, none, h.job, ?_⟩
    simp only [bind_ok]
    exact ⟨none, h.cohort, rfl⟩

/-- Whatever the store holds, the token of its confirmation gets a call past the token's checks,
unless quota is left. -/
theorem Presents.outcome {c : RefreshCall} {db : Db} {row : RefreshConfirmationRow}
    (h : Presents c.args row) (hrow : db.confirmation? c.args.requestId = some row)
    (hstops : c.stops = false) : Outcome env c.args db (c.run env db).1 := by
  have hreply : ∀ r, c.reply r = .refresh r := fun r => by simp [RefreshCall.reply, hstops]
  have hbound : ∀ {step pending}, resolveRefresh c.args db = .ok (some step, pending) →
      ¬ (Admitted env c.args db ∧ Unbound c.args db ∧ QuotaLeft env c.args db) := by
    rintro step pending hresolve ⟨-, hunbound, -⟩
    obtain ⟨pending', hnone⟩ := hunbound.resolve
    cases hresolve.symm.trans hnone
  have hchecks : ∀ {pending db₁}, resolveRefresh c.args db = .ok (none, pending) →
      db.SameRefresh db₁ → pending = some row ∧
        (QuotaLeft env c.args db₁ ↔ QuotaLeft env c.args db) := by
    intro pending db₁ hresolve same
    obtain ⟨-, rfl⟩ := resolveRefresh_none hresolve
    refine ⟨hrow, ?_⟩
    unfold QuotaLeft
    rw [refreshJobsInLondonDay_congr same]
  have hstep := @RefreshCall.step env c db
  generalize (c.run env db).1 = result at hstep ⊢
  generalize (c.run env db).2 = after at hstep
  cases hstep with
  | refused _ refused quiet =>
    exact .of_refusal (fun h => refused h.1) (quiet h.quiet_validate)
      (.admission refused)
  | rejected synced resolve =>
    refine .of_refusal ?_ (Quiet.error.mp (resolve ▸ quiet_resolveRefresh c.args db))
      (.lookups resolve)
    rintro ⟨-, hunbound, -⟩
    obtain ⟨pending, hnone⟩ := hunbound.resolve
    cases resolve.symm.trans hnone
  | replayed _ resolve =>
    rw [hreply]
    exact .of_ok (hbound resolve) (.inr (.inr (resolveRefresh_done resolve)))
  | @bound row' _ _ _ _ resolve _ _ _ =>
    rw [hreply]
    refine .of_ok (hbound resolve) ?_
    obtain ⟨-, -, hbinds⟩ := resolveRefresh_bind resolve
    cases hbinds with
    | own _ _ _ _ is => exact .inl (is ▸ rfl)
    | cohort _ _ is => exact .inr (.inl (is ▸ rfl))
  | unrecorded _ resolve record =>
    exact .of_refusal (hbound resolve) (Quiet.error.mp (record ▸ quiet_recordRefreshRequest _))
      (.ledger record)
  | @unconfirmed e pending _ synced resolve answer =>
    obtain ⟨rfl, hquota⟩ := hchecks resolve synced.same
    rcases @Presents.onspdRefreshConfirmation env _ _ after h with
      ⟨hleft, herror⟩ | ⟨hexhausted, ⟨e', hwindow, herror⟩ | hok⟩
    · obtain rfl := Except.error.inj (herror.symm.trans answer)
      obtain ⟨hunbound, -⟩ := resolveRefresh_none resolve
      refine ⟨⟨fun _ => ⟨⟨after, synced⟩, hunbound, hquota.mp hleft⟩, fun _ => ⟨_, rfl⟩⟩, ?_, ?_⟩
      · intro e he hne
        exact absurd (Except.error.inj he).symm (hne _)
      · exact fun _ h => by cases h
    · obtain rfl := Except.error.inj (herror.symm.trans answer)
      refine .of_refusal (fun h => hexhausted (hquota.mpr h.2.2))
        (Quiet.error.mp (hwindow ▸ quiet_refreshJobsInLondonDay _)) (.window ?_)
      rw [← refreshJobsInLondonDay_congr synced.same]
      exact hwindow
    · cases hok.symm.trans answer
  | answered _ _ answer =>
    -- only a call without a token is asked for a confirmation
    obtain ⟨-, hnone, -⟩ := onspdRefreshConfirmation_some answer
    cases hnone.symm.trans h.token
  | @unqueued e pending db₁ _ synced resolve answer _ quiet failed =>
    obtain ⟨rfl, hquota⟩ := hchecks resolve synced.same
    refine .of_refusal ?_ quiet (.enqueue failed)
    rintro ⟨-, -, hleft⟩
    rcases @Presents.onspdRefreshConfirmation env _ _ db₁ h with ⟨-, herror⟩ | ⟨hexhausted, -⟩
    · cases herror.symm.trans answer
    · exact hexhausted (hquota.mpr hleft)
  | @created pending db₁ _ _ synced resolve answer _ _ _ _ _ =>
    obtain ⟨rfl, hquota⟩ := hchecks resolve synced.same
    rw [hreply]
    refine .of_ok ?_ (.inl rfl)
    rintro ⟨-, -, hleft⟩
    rcases @Presents.onspdRefreshConfirmation env _ _ db₁ h with ⟨-, herror⟩ | ⟨hexhausted, -⟩
    · cases herror.symm.trans answer
    · exact hexhausted (hquota.mpr hleft)

/-- The same request, with a token. -/
structure RefreshArgs.Repeat (args args' : RefreshArgs) (token : String) : Prop where
  requestId : args'.requestId = args.requestId
  principal : args'.principal = args.principal
  requestFingerprint : args'.requestFingerprint = args.requestFingerprint
  datasourceId : args'.datasourceId = args.datasourceId
  definitionVersion : args'.definitionVersion = args.definitionVersion
  token : args'.confirmationToken = some token

/-- A granted confirmation is usable until it expires. Whatever calls come after the one that
returned a token, repeating the request with it in time raises `RefreshConfirmationError` only if the
request has no binding and no cohort yet and the day of the submission has quota left; otherwise the
call is accepted, joins a cohort, replays a binding, or is refused for something else than its
confirmation. -/
theorem confirmation_usable (hu : Function.Injective env.platform.uuid) {w w' : World}
    (hw : Reachable env anyCall w) {args args' : RefreshArgs} {clock clock' : Nat → Time}
    {r : DurableRefreshResult} {token : String} {expiry : Time}
    (hcall : (((Op.submitAgentRefresh args clock false).exec env).run w.db).1 = .ok (.refresh r))
    (htoken : r.confirmationToken = some token) (hexpiry : r.confirmationExpiresAt = some expiry)
    (hform : token ≠ "" ∧ token.length ≤ 256)
    (hlater : Continues env anyCall (w.step env (.submitAgentRefresh args clock false)) w')
    (hrepeat : args.Repeat args' token) (hintime : args'.submittedAt < expiry) :
    Outcome env args' w'.db
      (((Op.submitAgentRefresh args' clock' false).exec env).run w'.db).1 := by
  obtain ⟨row, hrow, rfl, hfor, honspd⟩ := @RefreshCall.asked env ⟨args, clock, false⟩ w.db r token
    hcall htoken
  obtain rfl : row.confirmationToken = token := Option.some.inj htoken
  obtain rfl : row.expiresAt = expiry := Option.some.inj hexpiry
  have hreachable : Reachable env anyCall (w.step env (.submitAgentRefresh args clock false)) :=
    hw.call trivial trivial
  have hsound := hreachable.sound hu
  have heffects := Continues.effects (G := Guard.any) hu
    (hlater.mono fun w op _ => op.respects_any w.db) hsound
  have hlast : w'.db.confirmation? args'.requestId = some row := by
    rw [hrepeat.requestId]
    exact heffects.confirmation? hrow
  have hpresents : Presents args' row :=
    ⟨⟨hfor.principal.trans hrepeat.principal.symm,
        hfor.requestFingerprint.trans hrepeat.requestFingerprint.symm,
        hfor.datasourceId.trans hrepeat.datasourceId.symm,
        hfor.definitionVersion.trans hrepeat.definitionVersion.symm⟩,
      hrepeat.datasourceId.trans honspd, hrepeat.token, hform, hintime⟩
  exact hpresents.outcome (c := ⟨args', clock', false⟩) hlast rfl

namespace Sample

/-! ## A day without quota -/

/-- One of the submissions that use up the quota of the first day. -/
def budgetArgs (n : Nat) : EnqueueArgs where
  datasourceId := "ons.onspd.postcode"
  trigger := "agent_request"
  scheduledFor := some (tick 1)
  requestInstanceId := some (Nat.repr n)

/-- What they have in common. -/
def budgetPlan : Option EnqueuePlan := (enqueuePlan refreshEnv (budgetArgs 0) (tick 1)).toOption

def budgetKey (n : Nat) : Option String :=
  budgetPlan.bind fun plan => (dedupeKey refreshEnv (budgetArgs n) plan (some (Nat.repr n))).toOption

theorem budgetKey_nodup : ((List.range 20).map budgetKey).Nodup ∧
    (List.range 20).all (fun n => (budgetKey n).isSome) = true := by
  decide +kernel

/-- The store after `n` of the submissions. -/
structure Filled (n : Nat) (db : Db) : Prop where
  definitions : db.definitions = [⟨onspd, tick 1⟩]
  requests : db.refreshRequests = []
  confirmations : db.refreshConfirmations = []
  drawn : db.drawn = n
  length : db.jobs.length = n
  jobs : ∀ j ∈ db.jobs, j.datasourceId = some onspdRefreshDatasourceId ∧
    j.trigger = .agentRequest ∧ j.createdAt = tick 1 ∧ j.request.get? "_refresh_control" = none ∧
    ∃ i < n, j.requestInstanceId = some (Nat.repr i) ∧ budgetKey i = some j.dedupeKey ∧
      j.jobId = refreshEnv.newId "job" i

theorem sync_defined {db : Db} (h : db.definitions = [⟨onspd, tick 1⟩]) (t : Time) :
    syncRegistry refreshEnv t db = .ok ((), db) := by
  have hdefinition : syncDefinition refreshEnv t db onspd = .ok db := by
    simp [syncDefinition, insertDefinition, h, require, onspd]
  show (syncDefinition refreshEnv t db onspd >>= fun db => pure db) >>= (fun db => .ok ((), db)) = _
  rw [hdefinition]
  rfl

theorem Filled.step {n : Nat} {db : Db} (h : Filled n db) (hn : n < 20) :
    Filled (n + 1) (((Op.enqueue (budgetArgs n) fun _ => tick 1).exec refreshEnv).run db).2 := by
  have hkeys := budgetKey_nodup
  have hkey := List.all_eq_true.mp hkeys.2 n (List.mem_range.mpr hn)
  obtain ⟨key, hkey⟩ := Option.isSome_iff_exists.mp hkey
  obtain ⟨plan, hplan, hdedupe⟩ := Option.bind_eq_some_iff.mp hkey
  have hplan : enqueuePlan refreshEnv (budgetArgs n) (tick 1) = .ok plan := ok_of_toOption hplan
  have hdedupe := ok_of_toOption hdedupe
  obtain ⟨hlookup, htrigger, hpayload, -, hnow⟩ := enqueuePlan_ok hplan
  have hdefinition : plan.definition = onspd :=
    List.mem_singleton.mp (DatasourceRegistry.lookup_mem hlookup).1
  have htrigger : plan.trigger = .agentRequest := by
    have hname : Trigger.ofName? "agent_request" = some Trigger.agentRequest := by decide +kernel
    exact Option.some.inj (htrigger.symm.trans hname)
  have hpayload : plan.payload = [] := by
    rw [hpayload, hdefinition]
    rfl
  have hnow : plan.now = tick 1 := hnow
  have hfree : ∀ j ∈ db.jobs, j.dedupeKey ≠ key := by
    intro j hj heq
    obtain ⟨-, -, -, -, i, hi, -, hikey, -⟩ := h.jobs j hj
    rw [heq, ← hkey] at hikey
    have hinj := List.inj_on_of_nodup_map hkeys.1 (List.mem_range.mpr (hi.trans hn))
      (List.mem_range.mpr hn) hikey
    omega
  have hnew : ∀ j ∈ db.jobs, j.jobId ≠ refreshEnv.newId "job" n := by
    intro j hj heq
    obtain ⟨-, -, -, -, i, hi, -, -, hid⟩ := h.jobs j hj
    have := Platform.newId_injective platform uuid_injective "job" (hid.symm.trans heq)
    omega
  let job := queuedJob (budgetArgs n) plan (refreshEnv.newId "job" n) key (.obj [])
    (some (Nat.repr n))
  have htx : enqueueTx refreshEnv (budgetArgs n) plan key db =
      .ok (⟨job.jobId, true, .queued⟩, { db with jobs := db.jobs ++ [job], drawn := n + 1 }) := by
    unfold enqueueTx
    rw [find?_key_eq_none.mpr hfree]
    show acceptJob refreshEnv (budgetArgs n) plan key (some (Nat.repr n)) db = _
    unfold acceptJob
    rw [hpayload, h.drawn]
    show (insertJob job { db with drawn := n + 1 } >>= fun db =>
      Except.ok (EnqueueResult.mk job.jobId true .queued, db)) = _
    have hdefined : (Db.definition? { db with drawn := n + 1 } "ons.onspd.postcode" 1).isSome := by
      unfold Db.definition?
      rw [show ({ db with drawn := n + 1 } : Db).definitions = [⟨onspd, tick 1⟩] from h.definitions]
      decide
    have hinsert : insertJob job { db with drawn := n + 1 } =
        .ok { db with jobs := db.jobs ++ [job], drawn := n + 1 } := by
      simp only [insertJob, bind_ok, require_ok]
      refine ⟨(), hnew, (), hfree, (), le_rfl, (), ?_, (), ?_, (), ?_, trivial⟩
      · exact fun s hs => by cases hs
      · exact fun s hs => by cases hs
      · rintro d ⟨⟩ v hv
        have hv : v = 1 := by
          simpa [job, queuedJob, hdefinition, onspd, eq_comm] using hv
        rw [hv]
        exact hdefined
    rw [hinsert]
    rfl
  have hrun : ((Op.enqueue (budgetArgs n) fun _ => tick 1).exec refreshEnv).run db =
      (.ok (.job ⟨job.jobId, true, .queued⟩),
        { db with jobs := db.jobs ++ [job], drawn := n + 1 }) := by
    show Proc.run (enqueue refreshEnv (budgetArgs n) (fun _ => tick 1) >>= fun r =>
      pure (Reply.job r)) db = _
    refine (Proc.run_bind_of_ok ?_).trans (Proc.run_pure _ _)
    unfold enqueue
    rw [Proc.run_bind_of_ok (Proc.run_atomically_of_ok (sync_defined h.definitions _)),
      Proc.run_bind, Proc.run_query, hplan]
    show Proc.run (_ >>= _) db = _
    rw [Proc.run_bind, Proc.run_query,
      show (budgetArgs n).requestInstanceId = some (Nat.repr n) from rfl, hdedupe]
    exact Proc.run_atomically_of_ok htx
  rw [hrun]
  refine ⟨h.definitions, h.requests, h.confirmations, rfl, ?_, ?_⟩
  · simp [h.length]
  · intro j hj
    rcases List.mem_append.mp hj with hj | hj
    · obtain ⟨h₁, h₂, h₃, h₄, i, hi, hrest⟩ := h.jobs j hj
      exact ⟨h₁, h₂, h₃, h₄, i, hi.trans n.lt_succ_self, hrest⟩
    · obtain rfl := List.mem_singleton.mp hj
      exact ⟨rfl, htrigger, hnow, rfl, n, n.lt_succ_self, rfl, hkey, rfl⟩

/-- The quota of the first day is used up. -/
def exhausted : Nat → World
  | 0 => ({} : World).step refreshEnv (.syncRegistry (tick 1))
  | n + 1 => (exhausted n).step refreshEnv (.enqueue (budgetArgs n) fun _ => tick 1)

theorem exhausted_reachable (n : Nat) : Reachable refreshEnv anyCall (exhausted n) := by
  induction n with
  | zero => exact Continues.refl.call trivial trivial
  | succ n ih => exact ih.call trivial trivial

theorem exhausted_filled {n : Nat} (hn : n ≤ 20) : Filled n (exhausted n).db := by
  induction n with
  | zero =>
    have hsync : syncRegistry refreshEnv (tick 1) {} =
        .ok ((), { definitions := [⟨onspd, tick 1⟩] }) := by
      have hdefinition : syncDefinition refreshEnv (tick 1) {} onspd =
          .ok { definitions := [⟨onspd, tick 1⟩] } := by
        simp [syncDefinition, insertDefinition, require, onspd]
      show (syncDefinition refreshEnv (tick 1) {} onspd >>= fun db => pure db) >>=
        (fun db => .ok ((), db)) = _
      rw [hdefinition]
      rfl
    have hdb : (exhausted 0).db = { definitions := [⟨onspd, tick 1⟩] } := by
      show (Proc.run (Proc.atomically (syncRegistry refreshEnv (tick 1)) >>= fun _ =>
        pure Reply.done) {}).2 = _
      rw [Proc.run_bind_of_ok (Proc.run_atomically_of_ok hsync)]
      rfl
    rw [hdb]
    exact ⟨rfl, rfl, rfl, rfl, rfl, fun j hj => nomatch hj⟩
  | succ n ih => exact (ih (by omega)).step hn

/-- A request for one more, in the last second of the first day. -/
def lateArgs : RefreshArgs := { refreshArgs "late" "agent" with
  submittedAt := tick 86399
  cooldownUntil := tick 86399 }

/-- The same request in the second after midnight, with the token it was given. -/
def tokenArgs : RefreshArgs := { refreshArgs "late" "agent" with
  submittedAt := tick 86401
  cooldownUntil := tick 86401
  confirmationToken := some (refreshEnv.newId "refresh_confirmation" 20) }

theorem Filled.unbound {n : Nat} {db : Db} (hjobs : ∀ j ∈ db.jobs,
      j.request.get? "_refresh_control" = none ∧ ∃ i < n, j.requestInstanceId = some (Nat.repr i))
    (hn : n ≤ 20) (hrequests : db.refreshRequests = []) {args : RefreshArgs}
    (hid : args.requestId = "late")
    (hidentity : confirmationIdentity (db.confirmation? args.requestId) args = .ok ()) :
    Unbound args db where
  ledger r hr := by
    rw [hrequests] at hr
    exact nomatch hr
  identity := hidentity
  job := by
    have hnone : ∀ j ∈ db.jobs, j.requestInstanceId ≠ some args.requestId := by
      intro j hj heq
      obtain ⟨-, i, hi, hrequest⟩ := hjobs j hj
      have hlate : (List.range 20).all fun i => decide (Nat.repr i ≠ "late") := by decide +kernel
      have hne := List.all_eq_true.mp hlate i (List.mem_range.mpr (hi.trans_le hn))
      rw [hrequest, hid] at heq
      exact of_decide_eq_true hne (Option.some.inj heq)
    have hfilter : (db.jobs.filter fun j => j.requestInstanceId = some args.requestId ∧
        j.trigger = .agentRequest) = [] := by
      rw [List.filter_eq_nil_iff]
      intro j hj hmatch
      exact hnone j hj (of_decide_eq_true hmatch).1
    unfold refreshJobByRequestId
    rw [hfilter]
  cohort := by
    have hmembers : orphanMembers args.dedupeKey args.submittedAt db.orphanJobs = .ok [] := by
      have hplain : ∀ j ∈ db.orphanJobs, j.request.get? "_refresh_control" = none :=
        fun j hj => (hjobs j (List.mem_filter.mp hj).1).1
      generalize db.orphanJobs = jobs at hplain
      induction jobs with
      | nil => rfl
      | cons j jobs ih =>
        unfold orphanMembers
        rw [hplain j List.mem_cons_self]
        exact ih fun i hi => hplain i (List.mem_cons_of_mem _ hi)
    unfold activeRefreshDedupe activeLedgerRow
    rw [hmembers, hrequests]
    rfl

/-- The confirmation it is given. -/
def lateRow : RefreshConfirmationRow where
  confirmationToken := refreshEnv.newId "refresh_confirmation" 20
  requestId := "late"
  principal := "agent"
  requestFingerprint := zeros
  datasourceId := "ons.onspd.postcode"
  definitionVersion := 1
  dayStartAt := tick 0
  issuedAt := tick 86399
  expiresAt := tick 86999

theorem Filled.used {db : Db} (h : Filled 20 db) :
    refreshJobsInLondonDay refreshEnv (tick 86399) db = .ok 20 ∧
      refreshJobsInLondonDay refreshEnv (tick 86401) db = .ok 0 := by
  have hfirst : refreshEnv.londonDayWindow (tick 86399) = .ok (tick 0, tick 86400) := by rfl
  have hnext : refreshEnv.londonDayWindow (tick 86401) = .ok (tick 86400, tick 172800) := by rfl
  have hinside : tick 0 ≤ tick 1 ∧ tick 1 < tick 86400 := by decide
  constructor
  · unfold refreshJobsInLondonDay
    rw [hfirst]
    show Except.ok (rowcount _ db.jobs) = _
    rw [rowcount, List.filter_eq_self.mpr, h.length]
    intro j hj
    obtain ⟨hdatasource, htrigger, hcreated, -⟩ := h.jobs j hj
    exact decide_eq_true ⟨hdatasource, htrigger, hcreated ▸ hinside.1, hcreated ▸ hinside.2⟩
  · unfold refreshJobsInLondonDay
    rw [hnext]
    show Except.ok (rowcount _ db.jobs) = _
    rw [rowcount, List.filter_eq_nil_iff.mpr]
    · rfl
    intro j hj hday
    obtain ⟨-, -, hcreated, -⟩ := h.jobs j hj
    obtain ⟨-, -, hstart, -⟩ := of_decide_eq_true hday
    rw [hcreated] at hstart
    exact absurd hstart (not_le.mpr hinside.2)

theorem Filled.asked {db : Db} (h : Filled 20 db) :
    ((Op.submitAgentRefresh lateArgs (fun _ => tick 86399) false).exec refreshEnv).run db =
      (.ok (.refresh (confirmationRequired lateRow)),
        { db with refreshConfirmations := [lateRow], drawn := 21 }) := by
  have hvalid : validateRefreshArgs lateArgs = .ok () := by
    obtain ⟨⟨⟩, hvalid⟩ := ok_of_isOk (show (validateRefreshArgs lateArgs).isOk = true by
      decide +kernel)
    exact hvalid
  have hlookup : refreshEnv.registry.lookup refreshEnv.platform "ons.onspd.postcode" (some 1) =
      .ok onspd := @DatasourceRegistry.lookup_self refreshEnv.platform refreshEnv.registry onspd
        (List.mem_singleton_self onspd)
  have hnone : db.confirmation? lateArgs.requestId = none := by
    unfold Db.confirmation?
    rw [h.confirmations]
    rfl
  have hunbound : Unbound lateArgs db := Filled.unbound
    (fun j hj => by
      obtain ⟨-, -, -, hplain, i, hi, hid, -⟩ := h.jobs j hj
      exact ⟨hplain, i, hi, hid⟩) le_rfl h.requests rfl (by rw [hnone]; rfl)
  have hresolve : resolveRefresh lateArgs db = .ok (none, none) := by
    obtain ⟨pending, hresolve⟩ := hunbound.resolve
    rw [hresolve, (resolveRefresh_none hresolve).2, hnone]
  have hanswer : onspdRefreshConfirmation refreshEnv lateArgs none db =
      .ok (some (confirmationRequired lateRow),
        { db with refreshConfirmations := [lateRow], drawn := 21 }) := by
    have hexpires : (tick 86399).add? refreshConfirmationTtl = some (tick 86999) := by decide +kernel
    have hwindow : refreshEnv.londonDayWindow (tick 86399) = .ok (tick 0, tick 86400) := by rfl
    simp only [onspdRefreshConfirmation, bind_ok, show lateArgs.datasourceId =
      onspdRefreshDatasourceId from rfl, ne_eq, not_true_eq_false, if_false]
    refine ⟨20, h.used.1, ?_⟩
    rw [if_neg (by decide : ¬ 20 < onspdRefreshDailyLimit)]
    show (issueRefreshConfirmation refreshEnv lateArgs none db >>= fun r => .ok (some r.1, r.2)) = _
    have hissue : issueRefreshConfirmation refreshEnv lateArgs none db =
        .ok (confirmationRequired lateRow,
          { db with refreshConfirmations := [lateRow], drawn := 21 }) := by
      simp only [issueRefreshConfirmation, bind_ok, orThrow_ok, require_ok, h.confirmations, h.drawn]
      refine ⟨tick 86999, hexpires, (tick 0, tick 86400), hwindow, (), fun c hc => (by cases hc), ?_⟩
      rfl
    rw [hissue]
    rfl
  show Proc.run (submitAgentRefresh refreshEnv lateArgs _ >>= fun r => pure (Reply.refresh r)) db = _
  refine (Proc.run_bind_of_ok (a := confirmationRequired lateRow) ?_).trans (Proc.run_pure _ _)
  refine (Proc.run_bind_of_ok (a := RefreshStep.done (confirmationRequired lateRow)) ?_).trans
    (Proc.run_pure _ _)
  unfold prepareRefresh
  rw [Proc.run_bind, Proc.run_query, hvalid]
  show Proc.run (_ >>= _) db = _
  rw [Proc.run_bind_of_ok (Proc.run_atomically_of_ok (sync_defined h.definitions _)),
    Proc.run_bind, Proc.run_query,
    show registryAsOperational (refreshEnv.registry.lookup refreshEnv.platform
      lateArgs.datasourceId (some lateArgs.definitionVersion)) = .ok onspd from
        registryAsOperational_ok.mpr hlookup]
  show Proc.run (_ >>= _) db = _
  rw [Proc.run_bind, Proc.run_query, hresolve]
  show Proc.run (_ >>= _) db = _
  rw [Proc.run_bind_of_ok (Proc.run_atomically_of_ok hanswer)]
  rfl


/-- The call is refused although its confirmation has not expired. -/
theorem Filled.refused {db : Db} (h : Filled 20 db) : ∃ m,
    (((Op.submitAgentRefresh tokenArgs (fun _ => tick 86401) false).exec refreshEnv).run
      { db with refreshConfirmations := [lateRow], drawn := 21 }).1 =
        .error (.refreshConfirmation m) := by
  have hpresents : Presents tokenArgs lateRow :=
    ⟨⟨rfl, rfl, rfl, rfl⟩, rfl, rfl, by decide +kernel, by decide⟩
  have hrow : Db.confirmation? { db with refreshConfirmations := [lateRow], drawn := 21 }
      tokenArgs.requestId = some lateRow := by rfl
  have houtcome := @Presents.outcome refreshEnv ⟨tokenArgs, fun _ => tick 86401, false⟩
    { db with refreshConfirmations := [lateRow], drawn := 21 } lateRow hpresents hrow rfl
  refine houtcome.confirmation.mpr ⟨?_, ?_, 0, h.used.2, by decide⟩
  · obtain ⟨⟨⟩, hvalid⟩ := ok_of_isOk (show (validateRefreshArgs tokenArgs).isOk = true by
      decide +kernel)
    have hlookup : refreshEnv.registry.lookup refreshEnv.platform "ons.onspd.postcode" (some 1) =
        .ok onspd := @DatasourceRegistry.lookup_self refreshEnv.platform refreshEnv.registry onspd
      (List.mem_singleton_self onspd)
    exact ⟨_, hvalid, @sync_defined { db with refreshConfirmations := [lateRow], drawn := 21 }
      h.definitions _, onspd, hlookup⟩
  · refine @Filled.unbound 20 { db with refreshConfirmations := [lateRow], drawn := 21 }
      (fun j hj => ?_) le_rfl h.requests tokenArgs rfl ?_
    · obtain ⟨-, -, -, hplain, i, hi, hid, -⟩ := h.jobs j hj
      exact ⟨hplain, i, hi, hid⟩
    · rw [hrow]
      exact For.identity hpresents.identity

end Sample

theorem confirmation_usable_late :
    Outcome Sample.refreshEnv Sample.tokenArgs ((Sample.exhausted 20).step Sample.refreshEnv
      (.submitAgentRefresh Sample.lateArgs (fun _ => Sample.tick 86399) false)).db
      (((Op.submitAgentRefresh Sample.tokenArgs (fun _ => Sample.tick 86401) false).exec
        Sample.refreshEnv).run ((Sample.exhausted 20).step Sample.refreshEnv
          (.submitAgentRefresh Sample.lateArgs (fun _ => Sample.tick 86399) false)).db).1 := by
  have hasked := (Sample.exhausted_filled le_rfl).asked
  exact confirmation_usable Sample.uuid_injective (Sample.exhausted_reachable 20)
    (congrArg Prod.fst hasked) rfl rfl (by decide +kernel) .refl ⟨rfl, rfl, rfl, rfl, rfl, rfl⟩
    (by decide)

/-- Once the next day has begun the code refuses the token. -/
theorem not_confirmation_usable : ¬ ∀ (w w' : World), Reachable Sample.refreshEnv anyCall w →
    ∀ args args' clock clock' r token expiry,
      (((Op.submitAgentRefresh args clock false).exec Sample.refreshEnv).run w.db).1 =
        .ok (.refresh r) → r.confirmationToken = some token →
      r.confirmationExpiresAt = some expiry →
      Continues Sample.refreshEnv anyCall
        (w.step Sample.refreshEnv (.submitAgentRefresh args clock false)) w' →
      args.Repeat args' token → args'.submittedAt < expiry →
      ∀ m, (((Op.submitAgentRefresh args' clock' false).exec Sample.refreshEnv).run w'.db).1 ≠
        .error (.refreshConfirmation m) := by
  intro h
  obtain ⟨w, hw, hfilled⟩ : ∃ w, Reachable Sample.refreshEnv anyCall w ∧ Sample.Filled 20 w.db :=
    ⟨_, Sample.exhausted_reachable 20, Sample.exhausted_filled le_rfl⟩
  obtain ⟨m, hrefused⟩ := hfilled.refused
  have hdb : (w.step Sample.refreshEnv (.submitAgentRefresh Sample.lateArgs
      (fun _ => Sample.tick 86399) false)).db =
        { w.db with refreshConfirmations := [Sample.lateRow], drawn := 21 } :=
    congrArg Prod.snd hfilled.asked
  rw [← hdb] at hrefused
  exact h w _ hw Sample.lateArgs Sample.tokenArgs _ _ _ _ _ (congrArg Prod.fst hfilled.asked) rfl
    rfl .refl ⟨rfl, rfl, rfl, rfl, rfl, rfl⟩ (by decide) m hrefused

end NanFung
