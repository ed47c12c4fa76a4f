import NanFung.RefreshRuns

/-!
# Bindings of refresh requests

Over a run of refresh calls a request identifier is bound once: to the job one of its calls created,
or to the job of the cohort it joined. The invariant relates the ledger to the submissions that
created the jobs. It needs the metadata of a job without a ledger row to name its principal as the
submission did, and so asks of a call that may leave such a job that its principal is in NFC.
-/

namespace NanFung

open Table

variable {env : Env}

/-! ## Submissions that created a job -/

/-- A submission with the job it created. -/
abbrev Creation := RefreshArgs × JobRow

/-- The job a move creates, with the submission it was created for. -/
def RefreshMove.creation (m : RefreshMove) : Option Creation := m.created.map (m.call.args, ·)

/-- The submissions that created a job, oldest first. -/
def creations (moves : List RefreshMove) : List Creation := moves.filterMap RefreshMove.creation

/-- A call that may leave a job without a ledger row has its principal in NFC. -/
def RefreshMove.Readable (env : Env) (m : RefreshMove) : Prop :=
  m.call.stops = true → Unbound m.call.args m.before →
    env.platform.nfc m.call.args.principal = m.call.args.principal

/-- What the tables say about the submissions that created the jobs. -/
structure RefreshInv (env : Env) (cs : List Creation) (db : Db) : Prop where
  jobs : db.jobs = cs.map Prod.snd
  new : ∀ x ∈ cs, x.1.Valid ∧ NewJob env x.1 x.2
  ids : (cs.map fun x => x.2.jobId).Nodup
  requests : (cs.map fun x => x.1.requestId).Nodup
  ledger : (db.refreshRequests.map (·.requestId)).Nodup
  bound : ∀ r ∈ db.refreshRequests, ∃ x ∈ cs, x.2.jobId = r.jobId ∧
    x.1.dedupeKey = r.dedupeKey ∧ x.1.cooldownUntil = r.cooldownUntil
  own : ∀ r ∈ db.refreshRequests, ∀ x ∈ cs, x.1.requestId = r.requestId →
    x.1.principal = r.principal ∧ x.1.requestFingerprint = r.requestFingerprint ∧
      r.result = (acceptedRow x.1 x.2).result
  readable : ∀ x ∈ cs, env.platform.nfc x.1.principal = x.1.principal ∨
    ∃ r ∈ db.refreshRequests, r.requestId = x.1.requestId
  pending : (db.refreshConfirmations.map (·.requestId)).Nodup
  pendingRow : ∀ c ∈ db.refreshConfirmations, ∀ r ∈ db.refreshRequests,
    r.requestId = c.requestId → r.principal = c.principal ∧
      r.requestFingerprint = c.requestFingerprint
  pendingJob : ∀ c ∈ db.refreshConfirmations, ∀ x ∈ cs, x.1.requestId = c.requestId →
    x.1.principal = c.principal ∧ x.1.requestFingerprint = c.requestFingerprint
  exclusive : cs.Pairwise fun x y =>
    x.1.dedupeKey = y.1.dedupeKey → x.1.cooldownUntil ≤ y.1.submittedAt

/-- Two members of a list with distinct keys are equal when their keys are. -/
theorem eq_of_nodup_map {α β : Type} {f : α → β} {l : List α} (h : (l.map f).Nodup) {x y : α}
    (hx : x ∈ l) (hy : y ∈ l) (hf : f x = f y) : x = y :=
  List.inj_on_of_nodup_map h hx hy hf

namespace RefreshInv

variable {cs : List Creation} {db : Db}

theorem empty : RefreshInv env [] {} := by
  refine ⟨rfl, ?_, ?_, ?_, ?_, ?_, ?_, ?_, ?_, ?_, ?_, ?_⟩ <;> simp

/-! ## Lookups -/

/-- The metadata of a job whose request has no ledger row is the submission's. -/
theorem control (h : RefreshInv env cs db) (hascii : env.platform.NfcAscii) {x : Creation}
    (hx : x ∈ cs) (hnone : ∀ r ∈ db.refreshRequests, r.requestId ≠ x.1.requestId) :
    refreshControl x.2.request = .ok x.1.control := by
  obtain ⟨hvalid, hnew⟩ := h.new x hx
  obtain ⟨definition, hrequest⟩ := hnew.request
  obtain ⟨members, hmembers, hlookup⟩ := lookup_storedRequest hascii hvalid hrequest
  rcases h.readable x hx with hnfc | ⟨r, hr, hid⟩
  · rw [hmembers]
    exact refreshControl_storedControl hvalid hnfc hlookup
  · exact absurd hid (hnone r hr)

/-- A job no ledger row refers to is one whose request has no ledger row. -/
theorem orphan (h : RefreshInv env cs db) {j : JobRow} (hj : j ∈ db.orphanJobs) :
    ∃ x ∈ cs, x.2 = j ∧ ∀ r ∈ db.refreshRequests, r.requestId ≠ x.1.requestId := by
  obtain ⟨hj, horphan⟩ := List.mem_filter.mp hj
  obtain ⟨-, horphan⟩ := of_decide_eq_true horphan
  rw [h.jobs] at hj
  obtain ⟨x, hx, rfl⟩ := List.mem_map.mp hj
  refine ⟨x, hx, rfl, fun r hr hid => ?_⟩
  obtain ⟨-, -, hresult⟩ := h.own r hr x hx hid.symm
  have hjob : some r.jobId = some x.2.jobId := congrArg DurableRefreshResult.jobId hresult
  exact horphan r hr (Option.some.inj hjob)

/-- The jobs of a request are those of the submissions which created them. -/
theorem requestJobs (h : RefreshInv env cs db) (requestId : String) :
    (db.jobs.filter fun j => j.requestInstanceId = some requestId ∧ j.trigger = .agentRequest) =
      (cs.filter fun x => x.1.requestId = requestId).map Prod.snd := by
  rw [h.jobs, List.filter_map]
  congr 1
  refine List.filter_congr fun x hx => ?_
  have hnew := (h.new x hx).2
  simp [hnew.requestInstanceId, hnew.trigger]

/-- The job of a request is that of the submission which created it. -/
theorem job (h : RefreshInv env cs db) (requestId : String) :
    (∃ x ∈ cs, x.1.requestId = requestId ∧ refreshJobByRequestId requestId db = .ok (some x.2)) ∨
      ((∀ x ∈ cs, x.1.requestId ≠ requestId) ∧ refreshJobByRequestId requestId db = .ok none) := by
  have hnodup : ((cs.filter fun x => x.1.requestId = requestId).map fun x => x.1.requestId).Nodup :=
    h.requests.sublist (List.Sublist.map _ List.filter_sublist)
  have hmem : ∀ x ∈ cs.filter (fun x => x.1.requestId = requestId),
      x ∈ cs ∧ x.1.requestId = requestId := by
    intro x hx
    obtain ⟨hx, hid⟩ := List.mem_filter.mp hx
    exact ⟨hx, of_decide_eq_true hid⟩
  unfold refreshJobByRequestId
  rw [h.requestJobs]
  cases hcs : cs.filter (fun x => x.1.requestId = requestId) with
  | nil =>
    refine .inr ⟨fun x hx hid => ?_, rfl⟩
    have hin : x ∈ cs.filter (fun x => x.1.requestId = requestId) :=
      List.mem_filter.mpr ⟨hx, decide_eq_true hid⟩
    rw [hcs] at hin
    exact nomatch hin
  | cons x rest =>
    obtain ⟨hx, hid⟩ := hmem x (by simp [hcs])
    cases rest with
    | nil => exact .inl ⟨x, hx, hid, rfl⟩
    | cons y rest =>
      -- the second one would have the same request
      obtain ⟨-, hid'⟩ := hmem y (by simp [hcs])
      rw [hcs] at hnodup
      simp [hid, hid'] at hnodup

/-- The cohorts of orphan jobs can be read. -/
theorem orphanMembers_ok (h : RefreshInv env cs db) (hascii : env.platform.NfcAscii) (key : String)
    (now : Time) : ∃ members, orphanMembers key now db.orphanJobs = .ok members := by
  have hread : ∀ j ∈ db.orphanJobs, ∃ c, refreshControl j.request = .ok c := by
    intro j hj
    obtain ⟨x, hx, rfl, hnone⟩ := h.orphan hj
    exact ⟨_, h.control hascii hx hnone⟩
  generalize db.orphanJobs = jobs at hread
  induction jobs with
  | nil => exact ⟨[], rfl⟩
  | cons j jobs ih =>
    obtain ⟨members, hmembers⟩ := ih fun i hi => hread i (List.mem_cons_of_mem _ hi)
    obtain ⟨c, hc⟩ := hread j List.mem_cons_self
    unfold orphanMembers
    split
    · exact ⟨members, hmembers⟩
    · rw [hc, hmembers]
      by_cases hactive : c.dedupeKey = key ∧ now < c.cooldownUntil
      · exact ⟨_, if_pos hactive⟩
      · exact ⟨_, if_neg hactive⟩

/-- The cohort lookup finds a member of an active cohort, or there is none. -/
theorem cohort (h : RefreshInv env cs db) (hascii : env.platform.NfcAscii) (key : String)
    (now : Time) :
    (∃ prior, activeRefreshDedupe key now db = .ok (some prior) ∧ ∃ x ∈ cs,
        prior.jobId = x.2.jobId ∧ x.1.dedupeKey = key ∧ prior.cooldownUntil = x.1.cooldownUntil ∧
        now < x.1.cooldownUntil) ∨
      (activeRefreshDedupe key now db = .ok none ∧
        ∀ x ∈ cs, x.1.dedupeKey = key → x.1.cooldownUntil ≤ now) := by
  obtain ⟨members, hmembers⟩ := h.orphanMembers_ok hascii key now
  cases hactive : activeRefreshDedupe key now db with
  | error e =>
    unfold activeRefreshDedupe at hactive
    rw [hmembers] at hactive
    exact nomatch hactive
  | ok prior =>
    cases prior with
    | some prior =>
      refine .inl ⟨prior, rfl, ?_⟩
      rcases activeRefreshDedupe_some hactive with
        ⟨r, hr, hkey, hlt, hjob, hcooldown⟩ | ⟨j, hj, c, hc, hkey, hlt, hjob, hcooldown⟩
      · obtain ⟨x, hx, hid, hdedupe, huntil⟩ := h.bound r hr
        exact ⟨x, hx, hjob.trans hid.symm, hdedupe.trans hkey, hcooldown.trans huntil.symm,
          huntil ▸ hlt⟩
      · obtain ⟨x, hx, rfl, hnone⟩ := h.orphan hj
        rw [h.control hascii hx hnone] at hc
        cases hc
        exact ⟨x, hx, hjob, hkey, hcooldown, hlt⟩
    | none =>
      refine .inr ⟨rfl, fun x hx hkey => ?_⟩
      obtain ⟨hrows, horphans⟩ := activeRefreshDedupe_none hactive
      by_cases horphan : ∃ r ∈ db.refreshRequests, r.jobId = x.2.jobId
      · obtain ⟨r, hr, hjob⟩ := horphan
        obtain ⟨y, hy, hid, hdedupe, huntil⟩ := h.bound r hr
        obtain rfl := eq_of_nodup_map h.ids hy hx (hid.trans hjob)
        rw [huntil]
        exact hrows r hr (hdedupe.symm.trans hkey)
      · have hj : x.2 ∈ db.orphanJobs := by
          refine List.mem_filter.mpr ⟨?_, decide_eq_true ⟨(h.new x hx).2.trigger, ?_⟩⟩
          · rw [h.jobs]
            exact List.mem_map_of_mem hx
          · exact fun r hr hjob => horphan ⟨r, hr, hjob⟩
        obtain ⟨y, hy, hyx, hnone⟩ := h.orphan hj
        obtain rfl := eq_of_nodup_map h.ids hy hx (congrArg JobRow.jobId hyx)
        exact horphans _ hj _ (h.control hascii hy hnone) hkey

/-- A pending confirmation is the one a request is checked against. -/
theorem confirmation (h : RefreshInv env cs db) {c : RefreshConfirmationRow}
    (hc : c ∈ db.refreshConfirmations) : db.confirmation? c.requestId = some c := by
  unfold Db.confirmation?
  cases hfind : db.refreshConfirmations.find? fun d => d.requestId = c.requestId with
  | none => exact absurd rfl (find?_key_eq_none.mp hfind c hc)
  | some d =>
    have hid : d.requestId = c.requestId := by simpa using List.find?_some hfind
    rw [eq_of_nodup_map h.pending (List.mem_of_find?_eq_some hfind) hc hid]

/-! ## Steps -/

/-- Only the three tables count. -/
theorem congr (h : RefreshInv env cs db) {db' : Db} (same : db.SameRefresh db') :
    RefreshInv env cs db' where
  jobs := same.jobs ▸ h.jobs
  new := h.new
  ids := h.ids
  requests := h.requests
  ledger := same.requests ▸ h.ledger
  bound := same.requests ▸ h.bound
  own := same.requests ▸ h.own
  readable := same.requests ▸ h.readable
  pending := same.confirmations ▸ h.pending
  pendingRow := by
    rw [same.confirmations, same.requests]
    exact h.pendingRow
  pendingJob := same.confirmations ▸ h.pendingJob
  exclusive := h.exclusive

/-- A ledger row for a request without one: what it must agree with. -/
theorem record (h : RefreshInv env cs db) {db' : Db} {row : RefreshRequestRow}
    (hnone : ∀ r ∈ db.refreshRequests, r.requestId ≠ row.requestId)
    (hbound : ∃ x ∈ cs, x.2.jobId = row.jobId ∧ x.1.dedupeKey = row.dedupeKey ∧
      x.1.cooldownUntil = row.cooldownUntil)
    (hown : ∀ x ∈ cs, x.1.requestId = row.requestId → x.1.principal = row.principal ∧
      x.1.requestFingerprint = row.requestFingerprint ∧ row.result = (acceptedRow x.1 x.2).result)
    (hpending : ∀ c ∈ db.refreshConfirmations, row.requestId = c.requestId →
      row.principal = c.principal ∧ row.requestFingerprint = c.requestFingerprint)
    (jobs : db'.jobs = db.jobs) (requests : db'.refreshRequests = db.refreshRequests ++ [row])
    (confirmations : db'.refreshConfirmations = db.refreshConfirmations) :
    RefreshInv env cs db' where
  jobs := jobs.trans h.jobs
  new := h.new
  ids := h.ids
  requests := h.requests
  ledger := by
    rw [requests, List.map_append]
    refine List.nodup_append'.mpr ⟨h.ledger, List.nodup_singleton _, ?_⟩
    intro id hid hnew
    obtain ⟨r, hr, rfl⟩ := List.mem_map.mp hid
    exact hnone r hr (List.mem_singleton.mp hnew)
  bound := by
    intro r hr
    rw [requests] at hr
    rcases List.mem_append.mp hr with hr | hr
    · exact h.bound r hr
    · rw [List.mem_singleton.mp hr]
      exact hbound
  own := by
    intro r hr
    rw [requests] at hr
    rcases List.mem_append.mp hr with hr | hr
    · exact h.own r hr
    · rw [List.mem_singleton.mp hr]
      exact hown
  readable := by
    intro x hx
    rcases h.readable x hx with hnfc | ⟨r, hr, hid⟩
    · exact .inl hnfc
    · refine .inr ⟨r, ?_, hid⟩
      rw [requests]
      exact List.mem_append_left _ hr
  pending := confirmations ▸ h.pending
  pendingRow := by
    intro c hc r hr
    rw [confirmations] at hc
    rw [requests] at hr
    rcases List.mem_append.mp hr with hr | hr
    · exact h.pendingRow c hc r hr
    · rw [List.mem_singleton.mp hr]
      exact hpending c hc
  pendingJob := confirmations ▸ h.pendingJob
  exclusive := h.exclusive

/-- What the identity check of a pending confirmation says. -/
theorem identity (h : RefreshInv env cs db) {args : RefreshArgs}
    (hidentity : confirmationIdentity (db.confirmation? args.requestId) args = .ok ())
    {c : RefreshConfirmationRow} (hc : c ∈ db.refreshConfirmations)
    (hid : c.requestId = args.requestId) :
    c.principal = args.principal ∧ c.requestFingerprint = args.requestFingerprint := by
  rw [← hid, h.confirmation hc] at hidentity
  simp only [confirmationIdentity, validateRefreshConfirmationIdentity, bind_ok,
    require_ok] at hidentity
  obtain ⟨-, hprincipal, -, hfingerprint, -⟩ := hidentity
  exact ⟨hprincipal, hfingerprint⟩

/-- Recording the row a call has found keeps the invariant. -/
theorem binds (h : RefreshInv env cs db) (hascii : env.platform.NfcAscii) {args : RefreshArgs}
    {row : RefreshRequestRow} {db' : Db}
    (hnone : ∀ r ∈ db.refreshRequests, r.requestId ≠ args.requestId)
    (hidentity : confirmationIdentity (db.confirmation? args.requestId) args = .ok ())
    (hbinds : Binds args db row)
    (jobs : db'.jobs = db.jobs) (requests : db'.refreshRequests = db.refreshRequests ++ [row])
    (confirmations : db'.refreshConfirmations = db.refreshConfirmations) :
    RefreshInv env cs db' := by
  have hargs : row.requestId = args.requestId ∧ row.principal = args.principal ∧
      row.requestFingerprint = args.requestFingerprint := by
    cases hbinds with
    | own _ _ _ _ is => exact is ▸ ⟨rfl, rfl, rfl⟩
    | cohort _ _ is => exact is ▸ ⟨rfl, rfl, rfl⟩
  obtain ⟨hid, hprincipal, hfingerprint⟩ := hargs
  refine h.record (hid ▸ hnone) ?_ ?_ ?_ jobs requests confirmations
  · cases hbinds with
    | own found read principal fingerprint is =>
      rcases h.job args.requestId with ⟨x, hx, hxid, hjob⟩ | ⟨-, hjob⟩
      · obtain rfl := Option.some.inj (Except.ok.inj (hjob.symm.trans found))
        rw [h.control hascii hx (hxid ▸ hnone)] at read
        cases read
        exact ⟨x, hx, is ▸ ⟨rfl, rfl, rfl⟩⟩
      · exact nomatch hjob.symm.trans found
    | cohort none active is =>
      rcases h.cohort hascii args.dedupeKey args.submittedAt with
        ⟨prior, hprior, x, hx, hjob, hkey, huntil, -⟩ | ⟨hnone, -⟩
      · obtain rfl := Option.some.inj (Except.ok.inj (hprior.symm.trans active))
        exact ⟨x, hx, is ▸ ⟨hjob.symm, hkey, huntil.symm⟩⟩
      · exact nomatch hnone.symm.trans active
  · intro x hx hxid
    cases hbinds with
    | own found read principal fingerprint is =>
      rcases h.job args.requestId with ⟨y, hy, hyid, hjob⟩ | ⟨-, hjob⟩
      · obtain rfl := Option.some.inj (Except.ok.inj (hjob.symm.trans found))
        obtain rfl := eq_of_nodup_map h.requests hx hy (hxid.trans (hid.trans hyid.symm))
        rw [h.control hascii hx (hyid ▸ hnone)] at read
        cases read
        exact ⟨principal.trans hprincipal.symm, fingerprint.trans hfingerprint.symm, is ▸ rfl⟩
      · exact nomatch hjob.symm.trans found
    | cohort none active is =>
      rcases h.job args.requestId with ⟨y, -, -, hjob⟩ | ⟨hfree, -⟩
      · exact nomatch hjob.symm.trans none
      · exact absurd (hxid.trans hid) (hfree x hx)
  · intro c hc hcid
    obtain ⟨hp, hf⟩ := h.identity hidentity hc (hcid.symm.trans hid)
    exact ⟨hprincipal.trans hp.symm, hfingerprint.trans hf.symm⟩

/-- A submission that found nothing is of a request no job was created for. -/
theorem unbound (h : RefreshInv env cs db) {args : RefreshArgs} (hunbound : Unbound args db)
    {x : Creation} (hx : x ∈ cs) : x.1.requestId ≠ args.requestId := by
  rcases h.job args.requestId with ⟨y, -, -, hjob⟩ | ⟨hfree, -⟩
  · exact nomatch hjob.symm.trans hunbound.job
  · exact hfree x hx

/-- Issuing a confirmation keeps the invariant. -/
theorem confirm (h : RefreshInv env cs db) {args : RefreshArgs} (hunbound : Unbound args db)
    {row : RefreshConfirmationRow} (hid : row.requestId = args.requestId)
    (hnew : ∀ c ∈ db.refreshConfirmations, c.requestId ≠ args.requestId) {db' : Db}
    (jobs : db'.jobs = db.jobs) (requests : db'.refreshRequests = db.refreshRequests)
    (confirmations : db'.refreshConfirmations = db.refreshConfirmations ++ [row]) :
    RefreshInv env cs db' where
  jobs := jobs.trans h.jobs
  new := h.new
  ids := h.ids
  requests := h.requests
  ledger := requests ▸ h.ledger
  bound := requests ▸ h.bound
  own := requests ▸ h.own
  readable := requests ▸ h.readable
  pending := by
    rw [confirmations, List.map_append]
    refine List.nodup_append'.mpr ⟨h.pending, List.nodup_singleton _, ?_⟩
    intro id hold hrow
    obtain ⟨c, hc, rfl⟩ := List.mem_map.mp hold
    exact hnew c hc ((List.mem_singleton.mp hrow).trans hid)
  pendingRow := by
    intro c hc r hr
    rw [confirmations] at hc
    rw [requests] at hr
    rcases List.mem_append.mp hc with hc | hc
    · exact h.pendingRow c hc r hr
    · rw [List.mem_singleton.mp hc, hid]
      exact fun hrow => absurd hrow (hunbound.ledger r hr)
  pendingJob := by
    intro c hc x hx
    rw [confirmations] at hc
    rcases List.mem_append.mp hc with hc | hc
    · exact h.pendingJob c hc x hx
    · rw [List.mem_singleton.mp hc, hid]
      exact fun hjob => absurd hjob (h.unbound hunbound hx)
  exclusive := h.exclusive

/-- A job created for a request that found nothing keeps the invariant, with its ledger row or, for
a principal in NFC, without. -/
theorem create (h : RefreshInv env cs db) (hascii : env.platform.NfcAscii) {args : RefreshArgs}
    (hvalid : args.Valid) (hunbound : Unbound args db) {j : JobRow} (hjob : NewJob env args j)
    (hnew : ∀ i ∈ db.jobs, i.jobId ≠ j.jobId) {stops : Bool}
    (hreadable : stops = true → env.platform.nfc args.principal = args.principal) {db' : Db}
    (jobs : db'.jobs = db.jobs ++ [j])
    (requests : db'.refreshRequests = db.refreshRequests ++
      if stops then [] else [acceptedRow args j])
    (confirmations : db'.refreshConfirmations = db.refreshConfirmations) :
    RefreshInv env (cs ++ [(args, j)]) db' := by
  have hcs : ∀ x ∈ cs ++ [(args, j)], x ∈ cs ∨ x = (args, j) := fun x hx => by simpa using hx
  have hrows : ∀ r ∈ db'.refreshRequests, r ∈ db.refreshRequests ∨
      (r = acceptedRow args j ∧ stops = false) := by
    intro r hr
    rw [requests] at hr
    rcases List.mem_append.mp hr with hr | hr
    · exact .inl hr
    · cases stops with
      | true => exact nomatch hr
      | false => exact .inr ⟨List.mem_singleton.mp hr, rfl⟩
  have hfree := fun x hx => h.unbound hunbound (x := x) hx
  refine ⟨?_, ?_, ?_, ?_, ?_, ?_, ?_, ?_, confirmations ▸ h.pending, ?_, ?_, ?_⟩
  · rw [jobs, h.jobs, List.map_append]
    rfl
  · intro x hx
    rcases hcs x hx with hx | rfl
    · exact h.new x hx
    · exact ⟨hvalid, hjob⟩
  · rw [List.map_append]
    refine List.nodup_append'.mpr ⟨h.ids, List.nodup_singleton _, ?_⟩
    intro id hid hrow
    obtain ⟨x, hx, rfl⟩ := List.mem_map.mp hid
    refine hnew x.2 ?_ (List.mem_singleton.mp hrow)
    rw [h.jobs]
    exact List.mem_map_of_mem hx
  · rw [List.map_append]
    refine List.nodup_append'.mpr ⟨h.requests, List.nodup_singleton _, ?_⟩
    intro id hid hrow
    obtain ⟨x, hx, rfl⟩ := List.mem_map.mp hid
    exact hfree x hx (List.mem_singleton.mp hrow)
  · rw [requests, List.map_append]
    refine List.nodup_append'.mpr ⟨h.ledger, ?_, ?_⟩
    · cases stops <;> simp
    · intro id hid hrow
      obtain ⟨r, hr, rfl⟩ := List.mem_map.mp hid
      cases stops with
      | true => exact nomatch hrow
      | false => exact hunbound.ledger r hr (List.mem_singleton.mp hrow)
  · intro r hr
    rcases hrows r hr with hr | ⟨rfl, -⟩
    · obtain ⟨x, hx, hrow⟩ := h.bound r hr
      exact ⟨x, List.mem_append_left _ hx, hrow⟩
    · exact ⟨(args, j), List.mem_append_right _ (List.mem_singleton_self _), rfl, rfl, rfl⟩
  · intro r hr x hx hid
    rcases hrows r hr with hr | ⟨rfl, -⟩ <;> rcases hcs x hx with hx | rfl
    · exact h.own r hr x hx hid
    · exact absurd hid.symm (hunbound.ledger r hr)
    · exact absurd hid (hfree x hx)
    · exact ⟨rfl, rfl, rfl⟩
  · intro x hx
    rcases hcs x hx with hx | rfl
    · rcases h.readable x hx with hnfc | ⟨r, hr, hid⟩
      · exact .inl hnfc
      · refine .inr ⟨r, ?_, hid⟩
        rw [requests]
        exact List.mem_append_left _ hr
    · cases stops with
      | true => exact .inl (hreadable rfl)
      | false => exact .inr ⟨acceptedRow args j, by simp [requests], rfl⟩
  · intro c hc r hr hid
    rw [confirmations] at hc
    rcases hrows r hr with hr | ⟨rfl, -⟩
    · exact h.pendingRow c hc r hr hid
    · obtain ⟨hp, hf⟩ := h.identity hunbound.identity hc hid.symm
      exact ⟨hp.symm, hf.symm⟩
  · intro c hc x hx hid
    rw [confirmations] at hc
    rcases hcs x hx with hx | rfl
    · exact h.pendingJob c hc x hx hid
    · obtain ⟨hp, hf⟩ := h.identity hunbound.identity hc hid.symm
      exact ⟨hp.symm, hf.symm⟩
  · refine List.pairwise_append.mpr ⟨h.exclusive, List.pairwise_singleton _ _, ?_⟩
    intro x hx y hy hkey
    obtain rfl := List.mem_singleton.mp hy
    -- no cohort of the key was active
    rcases h.cohort hascii args.dedupeKey args.submittedAt with ⟨prior, hprior, -⟩ | ⟨-, hpast⟩
    · exact nomatch hprior.symm.trans hunbound.cohort
    · exact hpast x hx hkey

/-- A call keeps the invariant, with the job it creates. -/
theorem step (h : RefreshInv env cs db) (hascii : env.platform.NfcAscii) (c : RefreshCall)
    (hreadable : (c.move env db).Readable env) :
    RefreshInv env (cs ++ (c.move env db).creation.toList) (c.run env db).2 := by
  have hkeeps : ∀ {db'}, (c.run env db).2 = db' → db'.jobs = db.jobs → RefreshInv env cs db' →
      RefreshInv env (cs ++ (c.move env db).creation.toList) db' := by
    intro db' hrun hjobs hinv
    rcases @RefreshCall.move_created env c db with ⟨hnone, -⟩ | ⟨j, -, -, hnew⟩
    · rw [RefreshMove.creation, hnone]
      simpa using hinv
    · rw [hrun, hjobs] at hnew
      exact absurd hnew (by simp)
  have hstep := @RefreshCall.step env c db
  generalize hresult : (c.run env db).1 = result at hstep
  generalize hafter : (c.run env db).2 = after at hstep ⊢
  cases hstep with
  | refused same _ _ => exact hkeeps hafter same.jobs (h.congr same)
  | rejected synced _ => exact hkeeps hafter synced.same.jobs (h.congr synced.same)
  | replayed synced _ => exact hkeeps hafter synced.same.jobs (h.congr synced.same)
  | unrecorded synced _ _ => exact hkeeps hafter synced.same.jobs (h.congr synced.same)
  | unconfirmed synced _ _ => exact hkeeps hafter synced.same.jobs (h.congr synced.same)
  | unqueued _ _ _ same _ => exact hkeeps hafter same.jobs (h.congr same)
  | bound synced resolve jobs requests confirmations =>
    obtain ⟨hnone, hidentity, hbinds⟩ := resolveRefresh_bind resolve
    refine hkeeps hafter jobs ?_
    cases hstops : c.stops with
    | true =>
      rw [hstops] at requests
      exact h.congr ⟨jobs, by simpa using requests, confirmations⟩
    | false =>
      rw [hstops] at requests
      exact h.binds hascii hnone hidentity hbinds jobs (by simpa using requests) confirmations
  | answered synced resolve answer =>
    obtain ⟨hunbound, -⟩ := resolveRefresh_none resolve
    obtain ⟨-, -, ⟨row, -, -, -, rfl⟩ | ⟨row, -, -, hid, -, -, -, -, -, -, hnew, rfl⟩⟩ :=
      onspdRefreshConfirmation_some answer
    · exact hkeeps hafter synced.same.jobs (h.congr synced.same)
    · rw [synced.same.confirmations] at hnew
      refine hkeeps hafter synced.same.jobs
        (h.confirm hunbound hid hnew synced.same.jobs synced.same.requests ?_)
      show _ ++ [row] = _
      rw [synced.same.confirmations]
  | @created _ _ _ j synced resolve answer job newId jobs requests confirmations =>
    obtain ⟨hunbound, -⟩ := resolveRefresh_none resolve
    have hcreation : (c.move env db).creation = some (c.args, j) := by
      simp [RefreshMove.creation, RefreshMove.created, RefreshCall.move, hafter, jobs]
    rw [hcreation]
    exact h.create hascii (validateRefreshArgs_ok synced.valid) hunbound job newId
      (fun hstops => hreadable hstops hunbound) jobs requests confirmations

end RefreshInv

/-- The tables of a run agree with the submissions that created its jobs. -/
theorem RefreshRun.inv {moves : List RefreshMove} {db : Db} (run : RefreshRun env moves db)
    (hascii : env.platform.NfcAscii) (hreadable : ∀ m ∈ moves, m.Readable env) :
    RefreshInv env (creations moves) db := by
  induction run with
  | empty => exact RefreshInv.empty
  | @call moves db run c ih =>
    have hinv := ih fun m hm => hreadable m (List.mem_append_left _ hm)
    have hlast := hreadable _ (List.mem_append_right _ (List.mem_singleton_self (c.move env db)))
    rw [creations, List.filterMap_append]
    have hnext := hinv.step hascii c hlast
    cases hcreation : (c.move env db).creation with
    | none => simpa [creations, hcreation] using hnext
    | some x => simpa [creations, hcreation] using hnext

end NanFung
