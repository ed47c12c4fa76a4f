import NanFung.Handles

/-!
# Job operations as chains of effects

One lemma for each job operation: when its transaction commits, the database has moved by a chain of
effects, and what it returns is valid. The lemmas are what the rest of the development knows about
these operations.
-/

namespace NanFung

open Table

variable {env : Env} {G : Guard} {db db' : Db}

instance : Std.Refl (Effects env G) := ⟨fun _ => Relation.ReflTransGen.refl⟩

instance : IsTrans Db (Effects env G) := ⟨fun _ _ _ => Relation.ReflTransGen.trans⟩

theorem Effects.one {t : Time} (ht : G.clock t) (e : Effect env G t db db') : Effects env G db db' :=
  Relation.ReflTransGen.single ⟨t, ht, e⟩

theorem Effects.then {t : Time} {db'' : Db} (es : Effects env G db db') (ht : G.clock t)
    (e : Effect env G t db' db'') : Effects env G db db'' :=
  Relation.ReflTransGen.tail es ⟨t, ht, e⟩

theorem Effects.claimOk (es : Effects env G db db') {c : ClaimedJob} (h : ClaimOk env db c) :
    ClaimOk env db' c :=
  es.preserve (fun _ he => he.claimOk) h

theorem Effects.runOk (es : Effects env G db db') {h : RunHandle} (hok : RunOk db h) :
    RunOk db' h :=
  es.preserve (fun _ he => he.runOk) hok

theorem Effects.sysOk (hu : Function.Injective env.platform.uuid) (es : Effects env G db db')
    (hinv : db.Leases) {h : SystemJobHandle} (hok : SysOk env db h) : SysOk env db' h :=
  (es.preserve (I := fun db => db.Leases ∧ SysOk env db h)
    (fun _ he hI => ⟨he.leases hI.1, he.sysOk hu hI.1 hI.2⟩) ⟨hinv, hok⟩).2

/-! ## Registry synchronisation -/

theorem insertDefinition_effects {d : DatasourceDefinition} {now t : Time} (ht : G.clock t)
    (hd : d ∈ env.registry.definitions) (h : insertDefinition d now db = .ok db') :
    Effects env G db db' := by
  unfold insertDefinition at h
  split at h
  · simp only [bind_ok, require_ok, Except.ok.injEq] at h
    obtain ⟨-, -, rfl⟩ := h
    exact Relation.ReflTransGen.refl
  · next hnone =>
    simp only [bind_ok, require_ok, Except.ok.injEq] at h
    obtain ⟨-, -, rfl⟩ := h
    exact Effects.one ht (.define db d now hd (find?_key_eq_none.mp hnone))

theorem insertSchedule_effects {d : DatasourceDefinition} {s : ScheduleDescriptor} {now t : Time}
    (ht : G.clock t) (h : insertSchedule env d s now db = .ok db') : Effects env G db db' := by
  simp only [insertSchedule, bind_ok] at h
  obtain ⟨id, -, rule, -, hash, -, h⟩ := h
  split at h
  · cases h
    exact Relation.ReflTransGen.refl
  · cases h
    exact Effects.one ht (.reschedule db _)

theorem syncDefinition_effects {d : DatasourceDefinition} {now t : Time} (ht : G.clock t)
    (hd : d ∈ env.registry.definitions) (h : syncDefinition env now db d = .ok db') :
    Effects env G db db' := by
  simp only [syncDefinition, bind_ok] at h
  obtain ⟨db₁, h₁, h⟩ := h
  have hfold := foldlM_ok_rel (R := Effects env G) (I := fun _ => True)
    (fun s _ u v _ huv => ⟨insertSchedule_effects ht huv, trivial⟩) trivial h
  exact (insertDefinition_effects ht hd h₁).trans hfold.1

theorem syncRegistry_effects {now t : Time} {u : Unit} (ht : G.clock t)
    (h : syncRegistry env now db = .ok (u, db')) : Effects env G db db' := by
  simp only [syncRegistry, bind_ok, Except.ok.injEq, Prod.mk.injEq, true_and] at h
  obtain ⟨db₁, h, rfl⟩ := h
  exact (foldlM_ok_rel (R := Effects env G) (I := fun _ => True)
    (fun d hd u v _ huv => ⟨syncDefinition_effects ht hd huv, trivial⟩) trivial h).1

/-! ## Submission -/

theorem insertJob_ok {j : JobRow} :
    insertJob j db = .ok db' → (∀ i ∈ db.jobs, i.jobId ≠ j.jobId) ∧
      (∀ i ∈ db.jobs, i.dedupeKey ≠ j.dedupeKey) ∧
      (∀ s ∈ j.scheduleId, ∃ r ∈ db.schedules, r.scheduleId = s) ∧
      db' = { db with jobs := db.jobs ++ [j] } := by
  intro h
  simp only [insertJob, bind_ok, require_ok, Except.ok.injEq] at h
  obtain ⟨-, hid, -, hkey, -, -, -, hschedule, -, -, -, -, rfl⟩ := h
  exact ⟨hid, hkey, hschedule, rfl⟩

theorem queuedJob_queued (args : EnqueueArgs) (plan : EnqueuePlan) (jobId dedupe : String)
    (request : Json) (instanceId : Option String) :
    (queuedJob args plan jobId dedupe request instanceId).Queued :=
  ⟨rfl, rfl, rfl, rfl, fun _ => rfl, rfl, rfl, rfl, plan.definition.maxAttempts_pos⟩

/-- What accepting a job does: one new queued row under a new dedupe key. -/
theorem acceptJob_ok {args : EnqueueArgs} {plan : EnqueuePlan} {dedupe : String}
    {instanceId : Option String} {r : EnqueueResult}
    (h : acceptJob env args plan dedupe instanceId db = .ok (r, db')) :
    ∃ request, env.json (.obj plan.payload) = .ok request ∧
      let j := queuedJob args plan (env.newId "job" db.drawn) dedupe request instanceId
      r = ⟨j.jobId, true, .queued⟩ ∧ (∀ i ∈ db.jobs, i.jobId ≠ j.jobId) ∧
      (∀ i ∈ db.jobs, i.dedupeKey ≠ dedupe) ∧
      (∀ s ∈ args.scheduleId, ∃ row ∈ db.schedules, row.scheduleId = s) ∧
      db' = { db with jobs := db.jobs ++ [j], drawn := db.drawn + 1 } := by
  simp only [acceptJob, bind_ok, Except.ok.injEq, Prod.mk.injEq] at h
  obtain ⟨request, hreq, db₁, hins, rfl, rfl⟩ := h
  obtain ⟨hid, hkey, hschedule, rfl⟩ := insertJob_ok hins
  exact ⟨request, hreq, rfl, hid, hkey, hschedule, rfl⟩

theorem acceptJob_effects {args : EnqueueArgs} {plan : EnqueuePlan} {dedupe : String}
    {instanceId : Option String} {r : EnqueueResult} {t : Time} (ht : G.clock t)
    (h : acceptJob env args plan dedupe instanceId db = .ok (r, db')) : Effects env G db db' := by
  obtain ⟨request, -, -, hid, hkey, -, rfl⟩ := acceptJob_ok h
  exact (Effects.one ht (.draw db)).then ht
    (.enqueue _ _ (queuedJob_queued args plan _ dedupe request instanceId) hid hkey)

theorem enqueueTx_effects {args : EnqueueArgs} {plan : EnqueuePlan} {dedupe : String}
    {r : EnqueueResult} {t : Time} (ht : G.clock t)
    (h : enqueueTx env args plan dedupe db = .ok (r, db')) : Effects env G db db' := by
  unfold enqueueTx at h
  split at h
  · exact acceptJob_effects ht h
  · split at h
    · simp only [bind_ok] at h
      obtain ⟨key, -, h⟩ := h
      exact (Effects.one ht (.draw db)).trans (acceptJob_effects ht h)
    · cases h
      exact Relation.ReflTransGen.refl

theorem enqueueProjectionDelivery_effects {outputDirectory trigger : String} {asOfAt t : Time}
    {scheduledFor : Option Time} {r : EnqueueResult} (ht : G.clock t)
    (h : enqueueProjectionDelivery env outputDirectory asOfAt scheduledFor trigger db = .ok (r, db')) :
    Effects env G db db' := by
  simp only [enqueueProjectionDelivery, bind_ok, orThrow_ok] at h
  obtain ⟨tr, -, hash, -, dedupe, -, h⟩ := h
  split at h
  · cases h
    exact Relation.ReflTransGen.refl
  · simp only [bind_ok, Except.ok.injEq, Prod.mk.injEq] at h
    obtain ⟨request, -, db₁, hins, -, rfl⟩ := h
    obtain ⟨hid, hkey, -, rfl⟩ := insertJob_ok hins
    exact (Effects.one ht (.draw db)).then ht
      (.enqueue _ _ ⟨rfl, rfl, rfl, rfl, (fun hs => by cases hs), rfl, rfl, rfl, Nat.succ_pos _⟩ hid
        hkey)

end NanFung
