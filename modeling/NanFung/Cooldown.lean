import NanFung.Replays

/-!
# Cooldowns of refresh requests

A cohort is a job with the requests its submission and later ones were bound to. While it cools down
no other job is created for its dedupe key, whichever instants the calls name: the lookups find the
cohort in the ledger, or in the metadata of a job without a ledger row.
-/

namespace NanFung

variable {env : Env}

/-- A submission whose cohort is cooling down when the call is made. -/
structure Active (cs : List Creation) (args : RefreshArgs) (x : Creation) : Prop where
  mem : x ∈ cs
  key : x.1.dedupeKey = args.dedupeKey
  cooling : args.submittedAt < x.1.cooldownUntil

/-- No other owner has the request. -/
def Entitled (cs : List Creation) (db : Db) (args : RefreshArgs) : Prop :=
  ∀ p f, Owned cs db args.requestId p f → refusal p f args = none

theorem refusal_none {p f : String} {args : RefreshArgs} (h : refusal p f args = none) :
    p = args.principal ∧ f = args.requestFingerprint := by
  unfold refusal at h
  split at h
  · exact nomatch h
  · next hp =>
    split at h
    · exact nomatch h
    · next hf => exact ⟨not_not.mp hp, not_not.mp hf⟩

namespace RefreshInv

variable {cs : List Creation} {db : Db} {args : RefreshArgs}

/-- While a cohort cools down the cohort lookup finds a member of such a one. -/
theorem activeCohort (h : RefreshInv env cs db) (hascii : env.platform.NfcAscii) {x : Creation}
    (hx : Active cs args x) : ∃ prior y,
      activeRefreshDedupe args.dedupeKey args.submittedAt db = .ok (some prior) ∧ Active cs args y ∧
        prior.jobId = y.2.jobId := by
  rcases h.cohort hascii args.dedupeKey args.submittedAt with
    ⟨prior, hprior, y, hy, hjob, hkey, -, hlt⟩ | ⟨-, hpast⟩
  · exact ⟨prior, y, hprior, ⟨hy, hkey, hlt⟩, hjob⟩
  · exact absurd (hpast x hx.mem hx.key) (not_le.mpr hx.cooling)

/-- A request without a binding joins the cohort. -/
theorem resolve_cohort (h : RefreshInv env cs db) (hascii : env.platform.NfcAscii) {x : Creation}
    (hx : Active cs args x) (hfree : ∀ p f r, ¬ Binding cs db args.requestId p f r)
    (hentitled : Entitled cs db args) (hrepeats : Repeats db args) :
    ∃ row pending y, resolveRefresh args db = .ok (some (.bind row), pending) ∧ Active cs args y ∧
      row.disposition = .deduplicated ∧ row.jobId = y.2.jobId ∧
      row.submittedAt = args.submittedAt := by
  obtain ⟨prior, y, hprior, hy, hjob⟩ := h.activeCohort hascii hx
  rcases resolveRefresh_cases args db with ⟨row, hrow, hid, -⟩ | ⟨-, heq⟩
  · exact absurd (.ledger hrow hid rfl rfl rfl) (hfree _ _ _)
  have hidentity := identity_ok hrepeats fun c hc hid =>
    refusal_none (hentitled _ _ (.pending hc hid rfl rfl))
  rcases h.job args.requestId with ⟨z, hz, hid, -⟩ | ⟨-, hnojob⟩
  · exact absurd (.job hz hid rfl rfl rfl) (hfree _ _ _)
  refine ⟨ledgerRow args args.dedupeKey prior.jobId .deduplicated prior.initialState
    args.submittedAt prior.cooldownUntil, db.confirmation? args.requestId, y, heq.trans ?_, hy, rfl,
    hjob, rfl⟩
  simp only [resolveJob, bind_ok]
  refine ⟨(), hidentity, none, hnojob, ?_⟩
  simp only [bind_ok]
  exact ⟨some prior, hprior, rfl⟩

end RefreshInv

/-- What a call made while a cohort of its key cools down does. -/
structure RefreshMove.Cools (env : Env) (cs : List Creation) (m : RefreshMove) : Prop where
  jobs : m.after.jobs = m.before.jobs
  answer : Admitted env m.call.args m.before → Entitled cs m.before m.call.args →
    Repeats m.before m.call.args →
      (∃ r, Binding cs m.before m.call.args.requestId m.call.args.principal
          m.call.args.requestFingerprint r ∧ m.result = .ok (m.call.reply r)) ∨
      ∃ r y, Active cs m.call.args y ∧ r.disposition = .deduplicated ∧ r.jobId = some y.2.jobId ∧
        r.submittedAt = m.call.args.submittedAt ∧ m.result = .ok (m.call.reply r)

theorem RefreshInv.cools {cs : List Creation} {db : Db} (h : RefreshInv env cs db)
    (hascii : env.platform.NfcAscii) (c : RefreshCall) {x : Creation} (hx : Active cs c.args x) :
    (c.move env db).Cools env cs := by
  have hstep := @RefreshCall.step env c db
  constructor
  · obtain ⟨prior, -, hprior, -⟩ := h.activeCohort hascii hx
    generalize hafter : (c.run env db).2 = after at hstep
    generalize (c.run env db).1 = result at hstep
    show (c.run env db).2.jobs = db.jobs
    rw [hafter]
    cases hstep with
    | refused same _ _ => exact same.jobs
    | rejected synced _ => exact synced.same.jobs
    | replayed synced _ => exact synced.same.jobs
    | bound _ _ jobs _ _ => exact jobs
    | unrecorded synced _ _ => exact synced.same.jobs
    | unconfirmed synced _ _ => exact synced.same.jobs
    | answered synced _ answer =>
      exact (onspdRefreshConfirmation_jobs answer).1.trans synced.same.jobs
    | unqueued _ _ _ same _ => exact same.jobs
    | created _ resolve _ _ _ _ _ _ =>
      -- its lookups had found no cohort
      have hnone := (resolveRefresh_none resolve).1.cohort
      exact nomatch hnone.symm.trans hprior
  · intro hadmitted hentitled hrepeats
    by_cases hbound : ∃ p f r, Binding cs db c.args.requestId p f r
    · obtain ⟨p, f, r, hb⟩ := hbound
      obtain ⟨rfl, rfl⟩ := refusal_none (hentitled p f (.bound hb))
      exact .inl ⟨r, hb, ((h.idempotent hascii c).repeated hadmitted hb hrepeats).1⟩
    · have hfree : ∀ p f r, ¬ Binding cs db c.args.requestId p f r :=
        fun p f r hb => hbound ⟨p, f, r, hb⟩
      obtain ⟨row, pending, y, hresolve, hy, hdisposition, hjob, hsubmitted⟩ :=
        h.resolve_cohort hascii hx hfree hentitled hrepeats
      obtain ⟨hresult, -⟩ := hstep.of_bind hadmitted hresolve fun same =>
        h.recorded hascii hresolve same
      exact .inr ⟨row.result, y, hy, hdisposition, congrArg some hjob, hsubmitted, hresult⟩

/-- Cooldowns are exclusive. Of two jobs a run creates for one dedupe key, the later one was
submitted when the earlier one's cooldown had passed; a call made inside a cooldown creates nothing
and is answered by its own binding or joins a cohort that is cooling down; and the ledger keeps the
cooldown of the submission that created the job. A call that stops after it has created a job is to
have its principal in NFC. -/
theorem cooldown_exclusive {moves : List RefreshMove} {db : Db} (run : RefreshRun env moves db)
    (hascii : env.platform.NfcAscii) (hreadable : ∀ m ∈ moves, m.Readable env) :
    db.jobs = (creations moves).map Prod.snd ∧
      ((creations moves).Pairwise fun x y => x.1.dedupeKey = y.1.dedupeKey →
        x.1.cooldownUntil ≤ y.1.submittedAt) ∧
      (∀ r ∈ db.refreshRequests, ∃ x ∈ creations moves, x.2.jobId = r.jobId ∧
        x.1.dedupeKey = r.dedupeKey ∧ x.1.cooldownUntil = r.cooldownUntil) ∧
      ∀ {earlier m later}, moves = earlier ++ m :: later →
        ∀ {x}, Active (creations earlier) m.call.args x → m.Cools env (creations earlier) := by
  have hinv := run.inv hascii hreadable
  refine ⟨hinv.jobs, hinv.exclusive, hinv.bound, ?_⟩
  intro earlier m later h x hx
  obtain ⟨before, hm⟩ := run.split h
  have hbefore := before.inv hascii fun i hi => hreadable i (by simp [h, hi])
  exact hm ▸ hbefore.cools hascii m.call hx

theorem Sample.active_stopped {principal : String} {j : JobRow}
    (h : creations [Sample.stopped principal] = [(Sample.refreshArgs "request" principal, j)]) :
    Active (creations [Sample.stopped principal]) (Sample.retried principal).call.args
      (Sample.refreshArgs "request" principal, j) := by
  have hcooling : Sample.tick 1 < Sample.tick 10 := by decide
  rw [h]
  exact ⟨List.mem_singleton_self _, rfl, hcooling⟩

/-- The same request again, inside its cooldown. -/
theorem cooldown_exclusive_retried :
    (Sample.retried "agent").Cools Sample.refreshEnv (creations [Sample.stopped "agent"]) := by
  obtain ⟨j, hj⟩ := @Sample.creations_stopped "agent" (by decide +kernel)
  exact (cooldown_exclusive (Sample.retried_run "agent") Sample.nfc_ascii
    (Sample.readable (by decide +kernel))).2.2.2 rfl (Sample.active_stopped hj)

/-- Inside its cooldown a submission that stopped is not always answered: the metadata of its job
names the principal in NFC. -/
theorem not_cooldown_exclusive : ¬ ∀ moves db, RefreshRun Sample.refreshEnv moves db →
    ∀ earlier m later, moves = earlier ++ m :: later → ∀ x, Active (creations earlier) m.call.args x →
      m.Cools Sample.refreshEnv (creations earlier) := by
  intro h
  obtain ⟨hcreated, hrows, hpending, -⟩ := Sample.decomposed_refused
  obtain ⟨j, hj⟩ := Sample.creations_stopped hcreated
  have hcools := h _ _ (Sample.retried_run Sample.decomposed) [Sample.stopped Sample.decomposed] _ []
    rfl _ (Sample.active_stopped hj)
  have hentitled : Entitled (creations [Sample.stopped Sample.decomposed])
      (Sample.retried Sample.decomposed).before (Sample.retried Sample.decomposed).call.args := by
    intro p f ho
    cases ho with
    | pending mem _ _ _ =>
      rw [show (Sample.retried Sample.decomposed).before.refreshConfirmations = [] from
        List.length_eq_zero_iff.mp hpending] at mem
      exact nomatch mem
    | bound binding =>
      cases binding with
      | ledger mem _ _ _ _ =>
        rw [show (Sample.retried Sample.decomposed).before.refreshRequests = [] from
          List.length_eq_zero_iff.mp hrows] at mem
        exact nomatch mem
      | job mem _ owner content _ =>
        rw [hj] at mem
        obtain rfl := List.mem_singleton.mp mem
        rw [← owner, ← content]
        simp [refusal, Sample.retried, Sample.refreshCall, RefreshCall.move]
  rcases hcools.answer Sample.decomposed_admitted hentitled Sample.decomposed_repeats with
    ⟨r, -, hresult⟩ | ⟨r, -, -, -, -, -, hresult⟩
  · exact Sample.decomposed_raises r hresult
  · exact Sample.decomposed_raises r hresult

end NanFung
