import NanFung.RefreshBinding
import NanFung.Sample

/-!
# Replays of refresh requests

A request identifier is owned by the first principal and fingerprint that got a binding or a
confirmation for it. Repeating the request returns the first binding and creates nothing, also when
the process stopped between the job and its ledger row; anyone else is refused.
-/

namespace NanFung

variable {env : Env}

/-- The binding of a request: that of its ledger row, or of the submission which created its job. -/
inductive Binding (cs : List Creation) (db : Db) (requestId principal fingerprint : String)
    (r : DurableRefreshResult) : Prop where
  | ledger {row : RefreshRequestRow} (mem : row ∈ db.refreshRequests)
      (request : row.requestId = requestId) (owner : row.principal = principal)
      (content : row.requestFingerprint = fingerprint) (is : row.result = r)
  | job {x : Creation} (mem : x ∈ cs) (request : x.1.requestId = requestId)
      (owner : x.1.principal = principal) (content : x.1.requestFingerprint = fingerprint)
      (is : (acceptedRow x.1 x.2).result = r)

/-- The principal and the fingerprint a request identifier belongs to. -/
inductive Owned (cs : List Creation) (db : Db) (requestId principal fingerprint : String) : Prop where
  | bound {r : DurableRefreshResult} (binding : Binding cs db requestId principal fingerprint r)
  | pending {c : RefreshConfirmationRow} (mem : c ∈ db.refreshConfirmations)
      (request : c.requestId = requestId) (owner : c.principal = principal)
      (content : c.requestFingerprint = fingerprint)

/-- The request's confirmation, if it has one, is for the same definition. -/
def Repeats (db : Db) (args : RefreshArgs) : Prop :=
  ∀ c ∈ db.refreshConfirmations, c.requestId = args.requestId →
    c.datasourceId = args.datasourceId ∧ c.definitionVersion = args.definitionVersion

/-- The check each lookup makes of the caller against the owner it has found. -/
def refusal (principal fingerprint : String) (args : RefreshArgs) : Option StoreError :=
  if principal ≠ args.principal then
    some (.refreshAccess "request_instance_id belongs to another principal")
  else if fingerprint ≠ args.requestFingerprint then
    some (.refreshReplay "request_instance_id was reused for a different request")
  else none

namespace RefreshInv

variable {cs : List Creation} {db : Db} {requestId : String}

/-- A request has one owner and one binding. -/
theorem binding_unique (h : RefreshInv env cs db) {p p' f f' : String} {r r' : DurableRefreshResult}
    (hb : Binding cs db requestId p f r) (hb' : Binding cs db requestId p' f' r') :
    p = p' ∧ f = f' ∧ r = r' := by
  cases hb with
  | ledger mem request owner content is =>
    cases hb' with
    | ledger mem' request' owner' content' is' =>
      obtain rfl := eq_of_nodup_map h.ledger mem mem' (request.trans request'.symm)
      exact ⟨owner.symm.trans owner', content.symm.trans content', is.symm.trans is'⟩
    | job mem' request' owner' content' is' =>
      obtain ⟨hp, hf, hr⟩ := h.own _ mem _ mem' (request'.trans request.symm)
      exact ⟨owner.symm.trans (hp.symm.trans owner'), content.symm.trans (hf.symm.trans content'),
        is.symm.trans (hr.trans is')⟩
  | job mem request owner content is =>
    cases hb' with
    | ledger mem' request' owner' content' is' =>
      obtain ⟨hp, hf, hr⟩ := h.own _ mem' _ mem (request.trans request'.symm)
      exact ⟨owner.symm.trans (hp.trans owner'), content.symm.trans (hf.trans content'),
        is.symm.trans (hr.symm.trans is')⟩
    | job mem' request' owner' content' is' =>
      obtain rfl := eq_of_nodup_map h.requests mem mem' (request.trans request'.symm)
      exact ⟨owner.symm.trans owner', content.symm.trans content', is.symm.trans is'⟩

/-- The owner of a pending confirmation is that of the binding. -/
theorem binding_pending (h : RefreshInv env cs db) {p f : String} {r : DurableRefreshResult}
    (hb : Binding cs db requestId p f r) {c : RefreshConfirmationRow}
    (hc : c ∈ db.refreshConfirmations) (hid : c.requestId = requestId) :
    p = c.principal ∧ f = c.requestFingerprint := by
  cases hb with
  | ledger mem request owner content is =>
    obtain ⟨hp, hf⟩ := h.pendingRow c hc _ mem (request.trans hid.symm)
    exact ⟨owner.symm.trans hp, content.symm.trans hf⟩
  | job mem request owner content is =>
    obtain ⟨hp, hf⟩ := h.pendingJob c hc _ mem (request.trans hid.symm)
    exact ⟨owner.symm.trans hp, content.symm.trans hf⟩

theorem owned_unique (h : RefreshInv env cs db) {p p' f f' : String}
    (ho : Owned cs db requestId p f) (ho' : Owned cs db requestId p' f') : p = p' ∧ f = f' := by
  cases ho with
  | bound binding =>
    cases ho' with
    | bound binding' =>
      obtain ⟨hp, hf, -⟩ := h.binding_unique binding binding'
      exact ⟨hp, hf⟩
    | pending mem request owner content =>
      obtain ⟨hp, hf⟩ := h.binding_pending binding mem request
      exact ⟨hp.trans owner, hf.trans content⟩
  | pending mem request owner content =>
    cases ho' with
    | bound binding =>
      obtain ⟨hp, hf⟩ := h.binding_pending binding mem request
      exact ⟨owner.symm.trans hp.symm, content.symm.trans hf.symm⟩
    | pending mem' request' owner' content' =>
      obtain rfl := eq_of_nodup_map h.pending mem mem' (request.trans request'.symm)
      exact ⟨owner.symm.trans owner', content.symm.trans content'⟩

/-! ## Lookups of an owned request -/

/-- The owner's request passes the identity check of its confirmation. -/
theorem identity_ok {args : RefreshArgs} (hrepeats : Repeats db args)
    (howner : ∀ c ∈ db.refreshConfirmations, c.requestId = args.requestId →
      c.principal = args.principal ∧ c.requestFingerprint = args.requestFingerprint) :
    confirmationIdentity (db.confirmation? args.requestId) args = .ok () := by
  cases hfind : db.confirmation? args.requestId with
  | none => rfl
  | some c =>
    have hc : c ∈ db.refreshConfirmations := List.mem_of_find?_eq_some hfind
    have hid : c.requestId = args.requestId := by simpa using List.find?_some hfind
    obtain ⟨hp, hf⟩ := howner c hc hid
    obtain ⟨hd, hv⟩ := hrepeats c hc hid
    simp [confirmationIdentity, validateRefreshConfirmationIdentity, require, hp, hf, hd, hv]

/-- A repeated request is answered from its binding. -/
theorem resolve_binding (h : RefreshInv env cs db) (hascii : env.platform.NfcAscii)
    {args : RefreshArgs} {r : DurableRefreshResult}
    (hb : Binding cs db args.requestId args.principal args.requestFingerprint r)
    (hrepeats : Repeats db args) :
    (∃ pending, resolveRefresh args db = .ok (some (.done r), pending)) ∨
      ∃ row pending, resolveRefresh args db = .ok (some (.bind row), pending) ∧ row.result = r := by
  rcases resolveRefresh_cases args db with ⟨row, hrow, hid, heq⟩ | ⟨hnone, heq⟩
  · obtain ⟨hp, hf, hr⟩ := h.binding_unique (.ledger hrow hid rfl rfl rfl) hb
    refine .inl ⟨none, heq.trans ?_⟩
    simp only [validateExistingRefreshRequest, require, hp, hf, ← hr]
    rfl
  · cases hb with
    | ledger mem request _ _ _ => exact absurd request (hnone _ mem)
    | @job x mem request owner content is =>
      have hidentity := identity_ok hrepeats fun c hc hid => by
        obtain ⟨hp, hf⟩ := h.pendingJob c hc x mem (request.trans hid.symm)
        exact ⟨hp.symm.trans owner, hf.symm.trans content⟩
      rcases h.job args.requestId with ⟨y, hy, hyid, hjob⟩ | ⟨hfree, -⟩
      · obtain rfl := eq_of_nodup_map h.requests hy mem (hyid.trans request.symm)
        have hcontrol := h.control hascii hy (hyid ▸ hnone)
        refine .inr ⟨ledgerRow args y.1.dedupeKey y.2.jobId .accepted "queued" y.1.submittedAt
          y.1.cooldownUntil, db.confirmation? args.requestId, heq.trans ?_, is⟩
        simp only [resolveJob, bind_ok]
        refine ⟨(), hidentity, some y.2, hjob, ?_⟩
        simp only [bind_ok, require_ok]
        exact ⟨y.1.control, hcontrol, (), owner, (), content, rfl⟩
      · exact absurd request (hfree x mem)

theorem require_owner {α : Type} {principal fingerprint : String} {args : RefreshArgs}
    {e : StoreError} (h : refusal principal fingerprint args = some e) (rest : Except StoreError α) :
    (require (principal = args.principal)
      (.refreshAccess "request_instance_id belongs to another principal") >>= fun _ =>
      require (fingerprint = args.requestFingerprint)
        (.refreshReplay "request_instance_id was reused for a different request") >>= fun _ =>
          rest) = .error e := by
  unfold refusal at h
  split at h
  · next hne =>
    cases h
    rw [require, if_neg hne]
    rfl
  · next hp =>
    rw [require, if_pos (not_not.mp hp)]
    split at h
    · next hne =>
      cases h
      rw [require, if_neg hne]
      rfl
    · cases h

/-- A request of another owner is refused by the lookups. -/
theorem resolve_refused (h : RefreshInv env cs db) (hascii : env.platform.NfcAscii)
    {args : RefreshArgs} {principal fingerprint : String} {e : StoreError}
    (ho : Owned cs db args.requestId principal fingerprint)
    (he : refusal principal fingerprint args = some e) : resolveRefresh args db = .error e := by
  rcases resolveRefresh_cases args db with ⟨row, hrow, hid, heq⟩ | ⟨hnone, heq⟩
  · obtain ⟨rfl, rfl⟩ := h.owned_unique ho (.bound (.ledger hrow hid rfl rfl rfl))
    rw [heq, validateExistingRefreshRequest, require_owner he]
    rfl
  · rw [heq]
    cases hfind : db.confirmation? args.requestId with
    | some c =>
      have hc : c ∈ db.refreshConfirmations := List.mem_of_find?_eq_some hfind
      have hid : c.requestId = args.requestId := by simpa using List.find?_some hfind
      obtain ⟨rfl, rfl⟩ := h.owned_unique ho (.pending hc hid rfl rfl)
      rw [confirmationIdentity, validateRefreshConfirmationIdentity, require_owner he]
      rfl
    | none =>
      cases ho with
      | pending mem request _ _ =>
        rw [← request, h.confirmation mem] at hfind
        cases hfind
      | bound binding =>
        cases binding with
        | ledger mem request _ _ _ => exact absurd request (hnone _ mem)
        | @job x mem request owner content is =>
          rcases h.job args.requestId with ⟨y, hy, hyid, hjob⟩ | ⟨hfree, -⟩
          · obtain rfl := eq_of_nodup_map h.requests hy mem (hyid.trans request.symm)
            have hcontrol := h.control hascii hy (hyid ▸ hnone)
            rw [← owner, ← content] at he
            show resolveJob args none db = .error e
            unfold resolveJob
            rw [hjob]
            show (refreshControl y.2.request >>= _) = _
            rw [hcontrol]
            exact require_owner he _
          · exact absurd request (hfree x mem)

/-- The ledger row a call has found can be inserted. -/
theorem recorded (h : RefreshInv env cs db) (hascii : env.platform.NfcAscii) {args : RefreshArgs}
    {row : RefreshRequestRow} {pending : Option RefreshConfirmationRow}
    (hresolve : resolveRefresh args db = .ok (some (.bind row), pending)) {db₁ : Db}
    (same : db.SameRefresh db₁) (e : StoreError) : recordRefreshRequest row db₁ ≠ .error e := by
  obtain ⟨hnone, hidentity, hbinds⟩ := resolveRefresh_bind hresolve
  have hchecks : row.requestId = args.requestId ∧ row.submittedAt ≤ row.cooldownUntil ∧
      ∃ x ∈ cs, x.2.jobId = row.jobId := by
    cases hbinds with
    | own found read principal fingerprint is =>
      rcases h.job args.requestId with ⟨x, hx, hxid, hjob⟩ | ⟨-, hjob⟩
      · obtain rfl := Option.some.inj (Except.ok.inj (hjob.symm.trans found))
        rw [h.control hascii hx (hxid ▸ hnone)] at read
        cases read
        exact is ▸ ⟨rfl, (h.new x hx).1.cooldown, x, hx, rfl⟩
      · exact nomatch hjob.symm.trans found
    | cohort none active is =>
      rcases h.cohort hascii args.dedupeKey args.submittedAt with
        ⟨prior, hprior, x, hx, hjob, -, huntil, hlt⟩ | ⟨hnone, -⟩
      · obtain rfl := Option.some.inj (Except.ok.inj (hprior.symm.trans active))
        exact is ▸ ⟨rfl, (huntil ▸ hlt).le, x, hx, hjob.symm⟩
      · exact nomatch hnone.symm.trans active
  obtain ⟨hid, hle, x, hx, hjob⟩ := hchecks
  have hunique : ∀ r ∈ db₁.refreshRequests, r.requestId ≠ row.requestId := by
    rw [same.requests, hid]
    exact hnone
  have hforeign : ∃ j ∈ db₁.jobs, j.jobId = row.jobId := by
    rw [same.jobs, h.jobs]
    exact ⟨x.2, List.mem_map_of_mem hx, hjob⟩
  intro herror
  rw [recordRefreshRequest, require, if_pos hunique, require, if_pos hle, require,
    if_pos hforeign] at herror
  exact nomatch herror

end RefreshInv

/-! ## Steps on an owned request -/

namespace RefreshCall.Step

variable {c : RefreshCall} {db db' : Db} {result : Except StoreError Reply}

/-- A call whose lookups fail raises what they raise, on the synchronised store. -/
theorem of_error (h : c.Step env db result db') (hadmitted : Admitted env c.args db)
    {e : StoreError} (hresolve : resolveRefresh c.args db = .error e) :
    result = .error e ∧ syncRegistry env c.args.submittedAt db = .ok ((), db') := by
  cases h with
  | refused _ refused _ => exact absurd hadmitted refused
  | rejected synced resolve =>
    obtain rfl := Except.error.inj (hresolve.symm.trans resolve)
    exact ⟨rfl, synced.sync⟩
  | replayed _ resolve => exact nomatch hresolve.symm.trans resolve
  | bound _ resolve _ _ _ => exact nomatch hresolve.symm.trans resolve
  | unrecorded _ resolve _ => exact nomatch hresolve.symm.trans resolve
  | unconfirmed _ resolve _ => exact nomatch hresolve.symm.trans resolve
  | answered _ resolve _ => exact nomatch hresolve.symm.trans resolve
  | unqueued _ resolve _ _ _ => exact nomatch hresolve.symm.trans resolve
  | created _ resolve _ _ _ _ _ _ => exact nomatch hresolve.symm.trans resolve

/-- A call whose lookups find an answer returns it. -/
theorem of_done (h : c.Step env db result db') (hadmitted : Admitted env c.args db)
    {r : DurableRefreshResult} {pending : Option RefreshConfirmationRow}
    (hresolve : resolveRefresh c.args db = .ok (some (.done r), pending)) :
    result = .ok (c.reply r) ∧ db'.jobs = db.jobs := by
  cases h with
  | refused _ refused _ => exact absurd hadmitted refused
  | rejected _ resolve => exact nomatch hresolve.symm.trans resolve
  | replayed synced resolve =>
    cases hresolve.symm.trans resolve
    exact ⟨rfl, synced.same.jobs⟩
  | bound _ resolve _ _ _ => exact nomatch hresolve.symm.trans resolve
  | unrecorded _ resolve _ => exact nomatch hresolve.symm.trans resolve
  | unconfirmed _ resolve _ => exact nomatch hresolve.symm.trans resolve
  | answered _ resolve _ => exact nomatch hresolve.symm.trans resolve
  | unqueued _ resolve _ _ _ => exact nomatch hresolve.symm.trans resolve
  | created _ resolve _ _ _ _ _ _ => exact nomatch hresolve.symm.trans resolve

/-- A call whose lookups find a binding still to be recorded returns it, if it can be recorded. -/
theorem of_bind (h : c.Step env db result db') (hadmitted : Admitted env c.args db)
    {row : RefreshRequestRow} {pending : Option RefreshConfirmationRow}
    (hresolve : resolveRefresh c.args db = .ok (some (.bind row), pending))
    (hrecord : ∀ {db₁}, db.SameRefresh db₁ → ∀ e, recordRefreshRequest row db₁ ≠ .error e) :
    result = .ok (c.reply row.result) ∧ db'.jobs = db.jobs := by
  cases h with
  | refused _ refused _ => exact absurd hadmitted refused
  | rejected _ resolve => exact nomatch hresolve.symm.trans resolve
  | replayed _ resolve => exact nomatch hresolve.symm.trans resolve
  | bound _ resolve jobs _ _ =>
    cases hresolve.symm.trans resolve
    exact ⟨rfl, jobs⟩
  | unrecorded synced resolve record =>
    cases hresolve.symm.trans resolve
    exact absurd record (hrecord synced.same _)
  | unconfirmed _ resolve _ => exact nomatch hresolve.symm.trans resolve
  | answered _ resolve _ => exact nomatch hresolve.symm.trans resolve
  | unqueued _ resolve _ _ _ => exact nomatch hresolve.symm.trans resolve
  | created _ resolve _ _ _ _ _ _ => exact nomatch hresolve.symm.trans resolve

/-- The ledger after a call: the rows before it, and perhaps one for its request. -/
theorem rows_cases (h : c.Step env db result db') :
    db'.refreshRequests = db.refreshRequests ∨ ∃ row : RefreshRequestRow,
      db'.refreshRequests = db.refreshRequests ++ [row] ∧ row.requestId = c.args.requestId ∧
        row.principal = c.args.principal ∧ row.requestFingerprint = c.args.requestFingerprint ∧
        result = .ok (c.reply row.result) := by
  have hrow : ∀ {rows : List RefreshRequestRow} {row : RefreshRequestRow},
      rows = db.refreshRequests ++ (if c.stops then [] else [row]) →
        rows = db.refreshRequests ∨ rows = db.refreshRequests ++ [row] := by
    intro rows row hrows
    rw [hrows]
    cases c.stops with
    | true => exact .inl (List.append_nil _)
    | false => exact .inr rfl
  cases h with
  | refused same _ _ => exact .inl same.requests
  | rejected synced _ => exact .inl synced.same.requests
  | replayed synced _ => exact .inl synced.same.requests
  | unrecorded synced _ _ => exact .inl synced.same.requests
  | unconfirmed synced _ _ => exact .inl synced.same.requests
  | unqueued _ _ _ same _ => exact .inl same.requests
  | answered synced _ answer =>
    exact .inl ((onspdRefreshConfirmation_jobs answer).2.trans synced.same.requests)
  | @bound row _ _ _ _ resolve _ requests _ =>
    refine (hrow requests).imp_right fun hnew => ⟨row, hnew, ?_⟩
    obtain ⟨-, -, hbinds⟩ := resolveRefresh_bind resolve
    cases hbinds with
    | own _ _ _ _ is => exact is ▸ ⟨rfl, rfl, rfl, rfl⟩
    | cohort _ _ is => exact is ▸ ⟨rfl, rfl, rfl, rfl⟩
  | @created _ _ _ j _ _ _ _ _ _ requests _ =>
    exact (hrow requests).imp_right fun hnew => ⟨acceptedRow c.args j, hnew, rfl, rfl, rfl, rfl⟩

end RefreshCall.Step

/-! ## Runs -/

/-- What a move leaves of the bindings of requests, and what it returns on an owned one. -/
structure RefreshMove.Idempotent (env : Env) (cs : List Creation) (m : RefreshMove) : Prop where
  persists : ∀ {requestId p f r}, Binding cs m.before requestId p f r →
    Binding (cs ++ m.creation.toList) m.after requestId p f r
  first : ∀ {requestId p f r}, Binding (cs ++ m.creation.toList) m.after requestId p f r →
    (∀ p f r, ¬ Binding cs m.before requestId p f r) → m.call.args.requestId = requestId ∧
      m.call.args.principal = p ∧ m.call.args.requestFingerprint = f ∧
      m.result = .ok (m.call.reply r)
  repeated : ∀ {r}, Admitted env m.call.args m.before →
    Binding cs m.before m.call.args.requestId m.call.args.principal m.call.args.requestFingerprint r →
    Repeats m.before m.call.args → m.result = .ok (m.call.reply r) ∧ m.after.jobs = m.before.jobs
  refused : ∀ {p f e}, Admitted env m.call.args m.before →
    Owned cs m.before m.call.args.requestId p f → refusal p f m.call.args = some e →
    m.result = .error e ∧ syncRegistry env m.call.args.submittedAt m.before = .ok ((), m.after)

/-- Each request has at most one job and one ledger row, of one owner. -/
structure OneOwner (cs : List Creation) (db : Db) : Prop where
  jobs : db.jobs = cs.map Prod.snd
  request : ∀ x ∈ cs, x.2.trigger = .agentRequest ∧ x.2.requestInstanceId = some x.1.requestId
  oneJob : ∀ requestId, (db.jobs.filter fun j => j.requestInstanceId = some requestId ∧
    j.trigger = .agentRequest).length ≤ 1
  oneRow : ∀ requestId, (db.refreshRequests.filter fun r => r.requestId = requestId).length ≤ 1
  owner : ∀ {requestId p p' f f'}, Owned cs db requestId p f → Owned cs db requestId p' f' →
    p = p' ∧ f = f'
  metadata : ∀ x ∈ cs, (∀ r ∈ db.refreshRequests, r.requestId ≠ x.1.requestId) →
    refreshControl x.2.request = .ok x.1.control

/-- At most one row has a key that no two rows share. -/
theorem length_filter_le_one {α : Type} {f : α → String} {l : List α} (h : (l.map f).Nodup)
    (key : String) : (l.filter fun x => f x = key).length ≤ 1 := by
  have hnodup : ((l.filter fun x => f x = key).map f).Nodup :=
    h.sublist (List.Sublist.map _ List.filter_sublist)
  have hkey : ∀ x ∈ l.filter (fun x => f x = key), f x = key := fun x hx =>
    of_decide_eq_true (List.mem_filter.mp hx).2
  generalize l.filter (fun x => f x = key) = rows at hnodup hkey
  match rows with
  | [] => exact Nat.zero_le _
  | [_] => exact le_rfl
  | x :: y :: _ =>
    have hx := hkey x (by simp)
    have hy := hkey y (by simp)
    simp [hx, hy] at hnodup

theorem RefreshInv.oneOwner {cs : List Creation} {db : Db} (h : RefreshInv env cs db)
    (hascii : env.platform.NfcAscii) : OneOwner cs db where
  jobs := h.jobs
  request x hx := ⟨(h.new x hx).2.trigger, (h.new x hx).2.requestInstanceId⟩
  oneJob requestId := by
    rw [h.requestJobs, List.length_map]
    exact length_filter_le_one h.requests requestId
  oneRow := length_filter_le_one h.ledger
  owner := h.owned_unique
  metadata _ hx := h.control hascii hx

/-- The job a call creates, and what the call returns with it. -/
theorem RefreshCall.creation_cases (c : RefreshCall) (db : Db) {x : Creation}
    (hx : (c.move env db).creation = some x) :
    x.1 = c.args ∧ (c.run env db).1 = .ok (c.reply (acceptedRow x.1 x.2).result) := by
  obtain ⟨j, hj, rfl⟩ := Option.map_eq_some_iff.mp hx
  refine ⟨rfl, ?_⟩
  have hnone : (c.run env db).2.jobs ≠ db.jobs := by
    intro h
    rw [RefreshMove.created, RefreshCall.move, h] at hj
    simp at hj
  have hstep := @RefreshCall.step env c db
  generalize hresult : (c.run env db).1 = result at hstep ⊢
  generalize hafter : (c.run env db).2 = after at hstep hnone
  cases hstep with
  | refused same _ _ => exact absurd same.jobs hnone
  | rejected synced _ => exact absurd synced.same.jobs hnone
  | replayed synced _ => exact absurd synced.same.jobs hnone
  | bound _ _ jobs _ _ => exact absurd jobs hnone
  | unrecorded synced _ _ => exact absurd synced.same.jobs hnone
  | unconfirmed synced _ _ => exact absurd synced.same.jobs hnone
  | unqueued _ _ _ same _ => exact absurd same.jobs hnone
  | answered synced _ answer =>
    exact absurd ((onspdRefreshConfirmation_jobs answer).1.trans synced.same.jobs) hnone
  | @created _ _ _ i _ _ _ _ _ jobs _ _ =>
    rw [RefreshMove.created, RefreshCall.move, hafter, jobs] at hj
    obtain rfl : i = j := by simpa using hj
    rfl

/-- One call, on a store whose tables agree with the submissions before it. -/
theorem RefreshInv.idempotent {cs : List Creation} {db : Db} (h : RefreshInv env cs db)
    (hascii : env.platform.NfcAscii) (c : RefreshCall) : (c.move env db).Idempotent env cs := by
  have hstep := @RefreshCall.step env c db
  refine ⟨?_, ?_, ?_, ?_⟩
  · intro requestId p f r hb
    cases hb with
    | ledger mem request owner content is =>
      refine .ledger ?_ request owner content is
      rcases hstep.rows_cases with hrows | ⟨row, hrows, -⟩
      · exact hrows ▸ mem
      · exact hrows ▸ List.mem_append_left _ mem
    | job mem request owner content is =>
      exact .job (List.mem_append_left _ mem) request owner content is
  · intro requestId p f r hb hnone
    cases hb with
    | @ledger row mem request owner content is =>
      have hnew : row ∉ db.refreshRequests := fun hold =>
        hnone _ _ _ (.ledger hold request owner content is)
      rcases hstep.rows_cases with hrows | ⟨row', hrows, hid, hp, hf, hresult⟩
      · exact absurd (hrows ▸ mem) hnew
      · have hmem : row ∈ db.refreshRequests ++ [row'] := hrows ▸ mem
        rcases List.mem_append.mp hmem with hold | hlast
        · exact absurd hold hnew
        · obtain rfl := List.mem_singleton.mp hlast
          exact ⟨hid.symm.trans request, hp.symm.trans owner, hf.symm.trans content,
            hresult.trans (is ▸ rfl)⟩
    | @job x mem request owner content is =>
      rcases List.mem_append.mp mem with hold | hlast
      · exact absurd (.job hold request owner content is) (hnone _ _ _)
      · obtain ⟨hargs, hresult⟩ := c.creation_cases db (Option.mem_toList.mp hlast)
        exact ⟨hargs ▸ request, hargs ▸ owner, hargs ▸ content, hresult.trans (is ▸ rfl)⟩
  · intro r hadmitted hb hrepeats
    rcases h.resolve_binding hascii hb hrepeats with ⟨pending, hresolve⟩ | ⟨row, pending, hresolve, rfl⟩
    · exact hstep.of_done hadmitted hresolve
    · exact hstep.of_bind hadmitted hresolve fun same => h.recorded hascii hresolve same
  · intro p f e hadmitted ho he
    exact hstep.of_error hadmitted (h.resolve_refused hascii ho he)

/-- Refresh submissions are idempotent, also across stops between the job and its ledger row. In
every state of a run each request has at most one job and one ledger row, of one owner; the call that
first binds a request returns the binding, which stays; repeating the request returns it and creates
no job; another owner is refused and leaves the synchronised store. A call that stops after it has
created a job is to have its principal in NFC. -/
theorem refresh_idempotent {moves : List RefreshMove} {db : Db} (run : RefreshRun env moves db)
    (hascii : env.platform.NfcAscii) (hreadable : ∀ m ∈ moves, m.Readable env) :
    OneOwner (creations moves) db ∧ ∀ {earlier m later}, moves = earlier ++ m :: later →
      m.Idempotent env (creations earlier) := by
  refine ⟨(run.inv hascii hreadable).oneOwner hascii, ?_⟩
  intro earlier m later h
  obtain ⟨before, hm⟩ := run.split h
  have hinv := before.inv hascii fun i hi => hreadable i (by simp [h, hi])
  exact hm ▸ hinv.idempotent hascii m.call

namespace Sample

theorem composeAcute_ascii (cs : List Char) (h : ∀ c ∈ cs, c.toNat < 128) : composeAcute cs = cs := by
  induction cs using composeAcute.induct with
  | case1 cs ih =>
    -- the combining accent is not ASCII
    exact absurd (h '\u0301' (by simp)) (by decide)
  | case2 c cs hne ih =>
    rw [composeAcute, ih fun d hd => h d (List.mem_cons_of_mem _ hd)]
    exact hne
  | case3 => rfl

theorem nfc_ascii : platform.NfcAscii := by
  intro s h
  show nfc s = s
  unfold nfc
  split
  · rfl
  · rw [composeAcute_ascii s.toList h, String.ofList_toList]

/-- A principal's call for the postcodes. -/
def refreshCall (principal : String) (stops : Bool) : RefreshCall :=
  ⟨refreshArgs "request" principal, fun _ => tick 1, stops⟩

/-- The call that stops after it has created its job. -/
def stopped (principal : String) : RefreshMove := (refreshCall principal true).move refreshEnv {}

/-- The same call again. -/
def retried (principal : String) : RefreshMove :=
  (refreshCall principal false).move refreshEnv (stopped principal).after

theorem retried_run (principal : String) :
    RefreshRun refreshEnv [stopped principal, retried principal] (retried principal).after :=
  (RefreshRun.empty.call (refreshCall principal true)).call (refreshCall principal false)

theorem readable {principal : String} (h : nfc principal = principal) :
    ∀ m ∈ [stopped principal, retried principal], m.Readable refreshEnv := by
  intro m hm _ _
  rcases List.mem_cons.mp hm with rfl | hm
  · exact h
  · rw [List.mem_singleton.mp hm]
    exact h

theorem creations_stopped {principal : String} (h : (stopped principal).created.isSome = true) :
    ∃ j, creations [stopped principal] = [(refreshArgs "request" principal, j)] := by
  obtain ⟨j, hj⟩ := Option.isSome_iff_exists.mp h
  refine ⟨j, ?_⟩
  simp only [creations, RefreshMove.creation, List.filterMap_cons, hj, Option.map_some,
    List.filterMap_nil]
  rfl

end Sample

theorem refresh_idempotent_retried :
    (Sample.retried "agent").Idempotent Sample.refreshEnv (creations [Sample.stopped "agent"]) :=
  (refresh_idempotent (Sample.retried_run "agent") Sample.nfc_ascii
    (Sample.readable (by decide +kernel))).2 rfl

namespace Sample

def errorOf : Except StoreError Reply → Option StoreError
  | .error e => some e
  | .ok _ => none

/-- A principal of a decomposed letter. -/
def decomposed : String := "jose\u0301"

/-- After a stop the submission of a principal not in NFC is not recognised. -/
theorem decomposed_refused : (stopped decomposed).created.isSome = true ∧
    (stopped decomposed).after.refreshRequests.length = 0 ∧
    (stopped decomposed).after.refreshConfirmations.length = 0 ∧
    (syncRegistry refreshEnv (tick 1) (stopped decomposed).after).isOk = true ∧
    errorOf (retried decomposed).result =
      some (.refreshAccess "request_instance_id belongs to another principal") := by
  decide +kernel

theorem decomposed_valid :
    (validateRefreshArgs (refreshArgs "request" decomposed)).isOk = true := by
  decide +kernel

theorem decomposed_admitted :
    Admitted refreshEnv (retried decomposed).call.args (retried decomposed).before := by
  obtain ⟨-, -, -, hsync, -⟩ := decomposed_refused
  obtain ⟨⟨⟩, hvalid⟩ := ok_of_isOk decomposed_valid
  obtain ⟨⟨⟨⟩, db⟩, hsync⟩ := ok_of_isOk hsync
  have hlookup : (refreshEnv.registry.lookup refreshEnv.platform "ons.onspd.postcode"
      (some 1)).isOk = true := by decide +kernel
  exact ⟨db, hvalid, hsync, ok_of_isOk hlookup⟩

theorem decomposed_repeats : Repeats (retried decomposed).before (retried decomposed).call.args := by
  intro c hc
  obtain ⟨-, -, hnone, -⟩ := decomposed_refused
  rw [show (retried decomposed).before.refreshConfirmations = [] from
    List.length_eq_zero_iff.mp hnone] at hc
  exact nomatch hc

theorem decomposed_raises (r : DurableRefreshResult) :
    (retried decomposed).result ≠ .ok ((retried decomposed).call.reply r) := by
  intro h
  obtain ⟨-, -, -, -, herror⟩ := decomposed_refused
  rw [h] at herror
  exact nomatch herror

end Sample

/-- A submission that stopped is not always recognised: the metadata of its job names the principal
in NFC. -/
theorem not_refresh_idempotent : ¬ ∀ moves db, RefreshRun Sample.refreshEnv moves db →
    ∀ earlier m later, moves = earlier ++ m :: later →
      m.Idempotent Sample.refreshEnv (creations earlier) := by
  intro h
  obtain ⟨j, hj⟩ := Sample.creations_stopped Sample.decomposed_refused.1
  have hstep := h _ _ (Sample.retried_run Sample.decomposed) [Sample.stopped Sample.decomposed] _ []
    rfl
  rw [hj] at hstep
  have hbinding : Binding _ (Sample.retried Sample.decomposed).before _ _ _ _ :=
    .job (List.mem_singleton_self (Sample.refreshArgs "request" Sample.decomposed, j)) rfl rfl rfl rfl
  exact Sample.decomposed_raises _
    (hstep.repeated Sample.decomposed_admitted hbinding Sample.decomposed_repeats).1

end NanFung
