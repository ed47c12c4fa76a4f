import NanFung.AsOf

/-!
# What becomes canonical

A run becomes canonical through `finish_run` or through `promote_review`. The first checks the
promotion policy and a full snapshot's completeness, the second the review and its approval, but not
the completeness: a production datasource of full snapshots whose runs are reviewed can have a run
promoted that never declared a scope. Histories without such a promotion keep the canonical rows
sound.
-/

namespace NanFung

open Table

variable {env : Env} {G : Guard} {t T : Time} {db db' : Db}

/-! ## Soundness of the approved runs -/

/-- The approval of a review of the run that a promotion rests on. -/
def Db.approvedByReview (db : Db) (p : PromotionRow) : Prop :=
  ∃ m ∈ db.manualPromotions, m.promotionId = p.promotionId ∧ m.runId = p.runId ∧
    (∃ d ∈ db.reviewDecisions, d.decisionId = m.decisionId ∧ d.reviewId = m.reviewId ∧
      d.decision = .approved) ∧
    ∃ v ∈ db.reviewTasks, v.reviewId = m.reviewId ∧ v.runId = some p.runId

/-- What a definition asks of a promoted run. -/
structure Admits (db : Db) (d : DatasourceDefinition) (r : RunRow) (p : PromotionRow) : Prop where
  reviewed : d.promotionPolicy = .manualReview → db.approvedByReview p
  canonical : d.promotionPolicy ≠ .neverCanonical
  complete : d.snapshotMode = .fullSnapshot → r.snapshotComplete = true

/-- A promotion of a production run that succeeded and that its definition admits. -/
def Promoted (db : Db) (definitions : List DatasourceDefinition) (p : PromotionRow) : Prop :=
  ∃ r ∈ db.runs, r.runId = p.runId ∧ r.lane = .productionIngestion ∧ r.status = .succeeded ∧
    (∃ a ∈ db.attempts, a.attemptId = r.attemptId ∧ a.status = .succeeded) ∧
    ∀ d ∈ definitions, d.key = (r.datasourceId, r.definitionVersion) → Admits db d r p

/-- Only approved production work is canonical. -/
structure CanonicalSound (db : Db) : Prop where
  approved : ∀ p ∈ db.promotions, p.decision = .approved →
    Promoted db (db.definitions.map (·.definition)) p
  once : db.promotions.Pairwise fun p q =>
    ¬ (p.runId = q.runId ∧ p.decision = .approved ∧ q.decision = .approved)
  latest : ∀ e ∈ db.canonicalLatest, ∃ p ∈ db.promotions, p.runId = e.canonicalRunId ∧
    p.decision = .approved
  as_of : ∀ T classes, ∀ e ∈ db.canonicalAsOf T classes, ∃ p ∈ db.promotions,
    p.runId = e.canonicalRunId ∧ p.decision = .approved

/-! ## Reads come from approved runs -/

theorem latestPromotion?_mem {runId : String} {p : PromotionRow}
    (h : db.latestPromotion? runId = some p) : p ∈ db.promotions ∧ p.runId = runId := by
  have hmem := List.mem_of_head? h
  rw [List.mem_insertionSort, List.mem_filter] at hmem
  simpa using hmem

theorem promotionAt_mem {runId : String} {p : PromotionRow} (h : db.promotionAt T runId = some p) :
    p ∈ db.promotions ∧ p.runId = runId ∧ p.decision = .approved := by
  obtain ⟨hdecision, happroved⟩ := Option.filter_eq_some_iff.mp h
  have hmem := List.mem_of_head? hdecision
  rw [List.mem_insertionSort, List.mem_filter] at hmem
  simp only [decide_eq_true_eq] at hmem happroved
  exact ⟨hmem.1, hmem.2.1, happroved⟩

theorem canonicalLatest_approved {e : CanonicalEvent} (h : e ∈ db.canonicalLatest) :
    ∃ p ∈ db.promotions, p.runId = e.canonicalRunId ∧ p.decision = .approved := by
  obtain ⟨l, -, hrow⟩ := List.mem_filterMap.mp (mem_of_mem_topRows (List.mem_of_mem_filter h))
  simp only [Db.canonicalEventRow, Option.bind_eq_bind, Option.bind_eq_some_iff,
    Option.ite_none_right_eq_some, Option.some.injEq] at hrow
  obtain ⟨r, -, a, -, c, -, o, -, p, hp, ⟨-, -, -, happroved⟩, rfl⟩ := hrow
  obtain ⟨hmem, hrun⟩ := latestPromotion?_mem hp
  exact ⟨p, hmem, hrun, happroved⟩

theorem canonicalAsOf_approved {classes : List AccessClass} {e : CanonicalRow}
    (h : e ∈ db.canonicalAsOf T classes) :
    ∃ p ∈ db.promotions, p.runId = e.canonicalRunId ∧ p.decision = .approved := by
  have heligible : e ∈ db.eligible T :=
    List.mem_of_mem_filter (mem_of_mem_topRows (List.mem_of_mem_filter h))
  obtain ⟨l, -, hrow⟩ := List.mem_filterMap.mp heligible
  simp only [Db.eligibleRow, Option.bind_eq_bind, Option.bind_eq_some_iff,
    Option.ite_none_right_eq_some, Option.some.injEq] at hrow
  obtain ⟨x, -, o, -, p, hp, d, -, -, rfl⟩ := hrow
  obtain ⟨hmem, hrun, happroved⟩ := promotionAt_mem hp
  exact ⟨p, hmem, hrun, happroved⟩

/-! ## The invariant -/

/-- What histories without incomplete promotions preserve. -/
structure PromotionInv (env : Env) (db : Db) : Prop where
  reviewed_run : ∀ v ∈ db.reviewTasks, ∀ runId, v.runId = some runId → ∃ r ∈ db.runs,
    r.runId = runId ∧ (r.datasourceId, r.definitionVersion) = (v.datasourceId, v.definitionVersion)
  approved : ∀ p ∈ db.promotions, p.decision = .approved →
    Promoted db env.registry.definitions p
  once : db.promotions.Pairwise fun p q =>
    ¬ (p.runId = q.runId ∧ p.decision = .approved ∧ q.decision = .approved)

theorem PromotionInv.canonicalSound (h : PromotionInv env db) (href : RefInv env db) :
    CanonicalSound db := by
  refine ⟨fun p hp happroved => ?_, h.once, fun e he => canonicalLatest_approved he,
    fun T classes e he => canonicalAsOf_approved he⟩
  obtain ⟨r, hr, hrid, hlane, hstatus, hattempt, hadmits⟩ := h.approved p hp happroved
  refine ⟨r, hr, hrid, hlane, hstatus, hattempt, fun d hd hkey => hadmits d ?_ hkey⟩
  obtain ⟨row, hrow, rfl⟩ := List.mem_map.mp hd
  exact href.definitions_registered row hrow

/-- A closed run stays as it is. -/
theorem Effect.mem_runs_closed (e : Effect env G t db db') (hinv : db.Leases) {r : RunRow}
    (hr : r ∈ db.runs) (hclosed : r.status ≠ .running) : r ∈ db'.runs := by
  have hactive : ∀ {h : RunHandle} {j : JobRow} {a : AttemptRow} {s : RunRow},
      db.Active h j a s → r.runId ≠ h.runId := fun hactive hid => hclosed <| by
    rw [hinv.runs_keyed.eq_of_mem hr hactive.run (hid.trans hactive.runId.symm), hactive.runRunning]
  cases e with
  | start => exact List.mem_append_left _ hr
  | close j a status state completedAt availableAt heartbeatAt error promotion drawn job jobRunning
      attempt attemptJob attemptRunning =>
    refine mem_updateWhere.mpr (Or.inr ⟨hr, decide_eq_false fun hid => hclosed ?_⟩)
    obtain ⟨b, hb, hbr, -, hbs⟩ := hinv.run_attempt r hr
    rw [← hbs, hinv.attempts_keyed.eq_of_mem hb attempt (hbr.trans hid), attemptRunning]
  | count h j a s n active | declareScope h j a s scope scopeHash active
  | completeSnapshot h j a s scope active =>
    exact mem_updateWhere.mpr (Or.inr ⟨hr, decide_eq_false (hactive active)⟩)
  | _ => exact hr

/-- A review task keeps its identity and its run. -/
theorem Effect.mem_reviewTasks (e : Effect env G t db db') {v : ReviewTaskRow}
    (hv : v ∈ db.reviewTasks) : ∃ w ∈ db'.reviewTasks, w.reviewId = v.reviewId ∧ w.runId = v.runId := by
  cases e with
  | openReview => exact ⟨v, List.mem_append_left _ hv, rfl, rfl⟩
  | decideReview =>
    refine ⟨_, mem_updateWhere_of_mem hv, ?_⟩
    split <;> exact ⟨rfl, rfl⟩
  | _ => exact ⟨v, hv, rfl, rfl⟩

theorem Effect.approvedByReview (e : Effect env G t db db') {p : PromotionRow}
    (h : db.approvedByReview p) : db'.approvedByReview p := by
  obtain ⟨m, hm, hmp, hmr, ⟨d, hd, hdecision⟩, v, hv, hvid, hvrun⟩ := h
  obtain ⟨w, hw, hwid, hwrun⟩ := e.mem_reviewTasks hv
  have hm' : m ∈ db'.manualPromotions := by
    cases e with
    | promoteReview => exact List.mem_append_left _ hm
    | _ => exact hm
  have hd' : d ∈ db'.reviewDecisions := by
    cases e with
    | decideReview => exact List.mem_append_left _ hd
    | _ => exact hd
  exact ⟨m, hm', hmp, hmr, ⟨d, hd', hdecision⟩, w, hw, hwid.trans hvid, hwrun.trans hvrun⟩

/-- A promoted run stays one. -/
theorem Effect.promoted (e : Effect env G t db db') (hinv : db.Leases)
    {definitions : List DatasourceDefinition} {p : PromotionRow} (h : Promoted db definitions p) :
    Promoted db' definitions p := by
  obtain ⟨r, hr, hrid, hlane, hstatus, ⟨a, ha, haid, has⟩, hadmits⟩ := h
  refine ⟨r, e.mem_runs_closed hinv hr (by simp [hstatus]), hrid, hlane, hstatus,
    ⟨a, e.mem_attempts_closed hinv ha (by simp [has]), haid, has⟩, fun d hd hkey => ?_⟩
  obtain ⟨hreviewed, hcanonical, hcomplete⟩ := hadmits d hd hkey
  exact ⟨fun hpolicy => e.approvedByReview (hreviewed hpolicy), hcanonical, hcomplete⟩

/-- Manual promotions of complete snapshots only, and reviews about the definition of their run. -/
def Guard.complete (env : Env) : Guard where
  clock _ := True
  promotable db runId := ∀ r ∈ db.runs, r.runId = runId →
    env.fullSnapshot r.datasourceId r.definitionVersion → r.snapshotComplete = true
  aligned := True
  cancellable _ := True

/-- The promotion a successful run gets when it ends. -/
theorem promoted_of_close {a : AttemptRow} {status : AttemptStatus} {p : PromotionRow} (ha : a ∈ db.attempts) (hauto : AutomaticPromotion env db t a status p)
    {error : Option Json}
    (hattempts : db'.attempts = updateWhere (fun b => b.attemptId = a.attemptId)
      (AttemptRow.close status t error) db.attempts)
    (hruns : db'.runs = updateWhere (fun r => r.attemptId = a.attemptId) (RunRow.close status t)
      db.runs) :
    Promoted db' env.registry.definitions p := by
  obtain ⟨r, hr, hrid, hra, hlane, d, hd, hkey, hpolicy, hcomplete⟩ := hauto.run
  refine ⟨r.close status t, ?_, hrid, hlane, hauto.succeeded, ⟨a.close status t error, ?_, hra.symm,
    hauto.succeeded⟩, fun d' hd' hkey' => ?_⟩
  · rw [hruns]
    exact mem_updateWhere.mpr (Or.inl ⟨r, hr, decide_eq_true hra, rfl⟩)
  · rw [hattempts]
    exact mem_updateWhere.mpr (Or.inl ⟨a, ha, decide_eq_true rfl, rfl⟩)
  · obtain rfl : d' = d :=
      env.registry.definitions_keyed.eq_of_mem hd' hd (hkey'.trans hkey.symm)
    refine ⟨fun hmanual => ?_, fun hnever => ?_, hcomplete⟩
    · rw [hpolicy] at hmanual
      exact nomatch hmanual
    · rw [hpolicy] at hnever
      exact nomatch hnever

/-- A promotion by an operator. -/
theorem promoted_of_review (hinv : StoreInv env db) (hreviews : PromotionInv env db)
    {p : PromotionRow} {m : ManualPromotionRow} (hmanual : ManualPromotion db t p m)
    (hcomplete : (Guard.complete env).promotable db p.runId) (hruns : db'.runs = db.runs)
    (hattempts : db'.attempts = db.attempts) (htasks : db'.reviewTasks = db.reviewTasks)
    (hdecisions : db'.reviewDecisions = db.reviewDecisions) (hm : m ∈ db'.manualPromotions) :
    Promoted db' env.registry.definitions p := by
  obtain ⟨r, hr, hrid, hlane, hstatus, a, ha, haid, has⟩ := hmanual.succeeded
  obtain ⟨v, hv, hvid, hvrun, d, hd, hpolicy⟩ := hmanual.review
  obtain ⟨s, hs, hsid, hskey⟩ := hreviews.reviewed_run v hv p.runId hvrun
  obtain rfl : s = r := hinv.leases.runs_keyed.eq_of_mem hs hr (hsid.trans hrid.symm)
  have hdkey : d.definition.key = (v.datasourceId, v.definitionVersion) := by
    simpa using List.find?_some hd
  have hdmem := hinv.references.definitions_registered d (List.mem_of_find?_eq_some hd)
  refine ⟨s, hruns ▸ hs, hsid, hlane, hstatus, ⟨a, hattempts ▸ ha, haid, has⟩, fun d' hd' hkey => ?_⟩
  -- the review's definition is the run's
  obtain rfl : d' = d.definition :=
    env.registry.definitions_keyed.eq_of_mem hd' hdmem (hkey.trans (hskey.trans hdkey.symm))
  refine ⟨fun _ => ?_, fun hnever => ?_, fun hfull => ?_⟩
  · obtain ⟨decision, hdecision, hid, hreview, happroved⟩ := hmanual.approval
    exact ⟨m, hm, hmanual.linkPromotion, hmanual.linkRun,
      ⟨decision, hdecisions ▸ hdecision, hid, hreview, happroved⟩, v, htasks ▸ hv, hvid, hvrun⟩
  · rw [hpolicy] at hnever
    exact nomatch hnever
  · exact hcomplete s hs hsid ⟨d.definition, hd', hkey, hfull⟩

/-- A new promotion keeps approvals unique if its run has none yet. -/
theorem once_append {ps : List PromotionRow} {p : PromotionRow}
    (honce : ps.Pairwise fun p q => ¬ (p.runId = q.runId ∧ p.decision = .approved ∧
      q.decision = .approved))
    (hfirst : p.decision = .approved → ∀ q ∈ ps, ¬ (q.runId = p.runId ∧ q.decision = .approved)) :
    (ps ++ [p]).Pairwise fun p q => ¬ (p.runId = q.runId ∧ p.decision = .approved ∧
      q.decision = .approved) := by
  refine List.pairwise_append.mpr ⟨honce, List.pairwise_singleton _ _, fun q hq p' hp' => ?_⟩
  rw [List.mem_singleton.mp hp']
  exact fun ⟨hrun, hq', hp⟩ => hfirst hp q hq ⟨hrun, hq'⟩

/-- Every effect but an incomplete promotion preserves the invariant. -/
theorem Effect.promotionInv (e : Effect env (Guard.complete env) t db db') (hinv : StoreInv env db)
    (h : PromotionInv env db) : PromotionInv env db' := by
  have hreviewed : ∀ {datasourceId : String} {version : Nat} {runId : String},
      (∃ r ∈ db.runs, r.runId = runId ∧ (r.datasourceId, r.definitionVersion) =
        (datasourceId, version)) →
      ∃ r ∈ db'.runs, r.runId = runId ∧ (r.datasourceId, r.definitionVersion) =
        (datasourceId, version) := by
    rintro datasourceId version _ ⟨r, hr, rfl, hkey⟩
    obtain ⟨s, hs, hsid, -, -, hsd, hsv, -⟩ := e.mem_runs hr
    exact ⟨s, hs, hsid, by rw [hsd, hsv, hkey]⟩
  have hkept : ∀ p ∈ db.promotions, p.decision = .approved →
      Promoted db' env.registry.definitions p := fun p hp happroved =>
    e.promoted hinv.leases (h.approved p hp happroved)
  have hsame : (∀ v ∈ db'.reviewTasks, ∃ w ∈ db.reviewTasks, w.runId = v.runId ∧
      w.datasourceId = v.datasourceId ∧ w.definitionVersion = v.definitionVersion) →
      ∀ v ∈ db'.reviewTasks, ∀ runId, v.runId = some runId → ∃ r ∈ db'.runs, r.runId = runId ∧
        (r.datasourceId, r.definitionVersion) = (v.datasourceId, v.definitionVersion) := by
    intro hold v hv runId hrun
    obtain ⟨w, hw, hwrun, hwd, hwv⟩ := hold v hv
    rw [← hwd, ← hwv]
    exact hreviewed (h.reviewed_run w hw runId (hwrun.trans hrun))
  cases e with
  | openReview hd j a r v active run definition =>
    refine ⟨fun w hw runId hrun => ?_, hkept, h.once⟩
    rcases List.mem_append.mp hw with hw | hw
    · exact h.reviewed_run w hw runId hrun
    · obtain rfl := List.mem_singleton.mp hw
      refine ⟨r, active.run, active.runId.trans (Option.some.inj (run.symm.trans hrun)), ?_⟩
      rw [definition trivial, active.runDatasource, active.runVersion]
  | decideReview d state =>
    refine ⟨hsame fun v hv => ?_, hkept, h.once⟩
    rcases mem_updateWhere.mp hv with ⟨w, hw, -, rfl⟩ | ⟨hv, -⟩
    · exact ⟨w, hw, rfl, rfl, rfl⟩
    · exact ⟨v, hv, rfl, rfl, rfl⟩
  | close j a status state completedAt availableAt heartbeatAt error promotion drawn job jobRunning
      attempt attemptJob attemptRunning closed released later promoted =>
    refine ⟨hsame fun v hv => ⟨v, hv, rfl, rfl, rfl⟩, fun p hp happroved => ?_, ?_⟩
    · rcases List.mem_append.mp hp with hp | hp
      · exact hkept p hp happroved
      · exact promoted_of_close attempt (promoted p (Option.mem_toList.mp hp)) rfl rfl
    · cases promotion with
      | none => simpa using h.once
      | some p =>
        refine once_append h.once fun _ q hq ⟨hrun, happroved⟩ => ?_
        -- an approved run has ended, the run that ends now was open
        obtain ⟨r, hr, hrid, hra, -⟩ := (promoted p rfl).run
        obtain ⟨s, hs, hsid, -, hstatus, -⟩ := h.approved q hq happroved
        obtain ⟨b, hb, hbr, -, hbs⟩ := hinv.leases.run_attempt r hr
        rw [hinv.leases.attempts_keyed.eq_of_mem hb attempt (hbr.trans hra), attemptRunning,
          ← hinv.leases.runs_keyed.eq_of_mem hs hr (hsid.trans (hrun.trans hrid.symm)),
          hstatus] at hbs
        exact nomatch hbs
  | promoteReview p m manual permitted =>
    refine ⟨hsame fun v hv => ⟨v, hv, rfl, rfl, rfl⟩, fun q hq happroved => ?_,
      once_append h.once fun _ => manual.first⟩
    rcases List.mem_append.mp hq with hq | hq
    · exact hkept q hq happroved
    · obtain rfl := List.mem_singleton.mp hq
      exact promoted_of_review hinv h manual permitted rfl rfl rfl rfl (by simp)
  | revoke p decision =>
    refine ⟨hsame fun v hv => ⟨v, hv, rfl, rfl, rfl⟩, fun q hq happroved => ?_,
      once_append h.once fun happroved => ?_⟩
    · rcases List.mem_append.mp hq with hq | hq
      · exact hkept q hq happroved
      · rw [List.mem_singleton.mp hq, decision] at happroved
        exact nomatch happroved
    · rw [decision] at happroved
      exact nomatch happroved
  | _ => exact ⟨hsame fun v hv => ⟨v, hv, rfl, rfl, rfl⟩, hkept, h.once⟩

/-! ## The theorem -/

/-- `promote_review` is not called for a review of a `full_snapshot` run whose snapshot is not
complete. -/
def PromotesComplete (env : Env) (db : Db) : Op → Prop
  | .promoteReview reviewId _ _ _ => ∀ v ∈ db.reviewTasks, v.reviewId = reviewId →
    ∀ r ∈ db.runs, v.runId = some r.runId →
      env.fullSnapshot r.datasourceId r.definitionVersion → r.snapshotComplete = true
  | _ => True

/-- The random instance identifier of a manual import gives a dedupe key of its own. -/
def FreshInstances (env : Env) (db : Db) : Op → Prop
  | .importManualEvidence args clock => FreshImport env args clock db
  | _ => True

/-- The calls of a history that promotes complete snapshots only. -/
def completeCalls (env : Env) (w : World) (op : Op) : Prop :=
  PromotesComplete env w.db op ∧ FreshInstances env w.db op

theorem completeCalls.respects {w : World} {op : Op} (h : completeCalls env w op) :
    op.Respects env (Guard.complete env) w.db := by
  cases op with
  | promoteReview reviewId =>
    refine ⟨trivial, fun v hv hvid runId hrun r hr hrid hfull => ?_⟩
    exact h.1 v hv hvid r hr (hrun.trans (congrArg some hrid.symm)) hfull
  | importManualEvidence args clock => exact ⟨fun _ => trivial, fun _ => h.2⟩
  | _ => simp [Op.Respects, Guard.complete]

theorem PromotionInv.empty (env : Env) : PromotionInv env {} := by
  constructor <;> simp

/-- In every state of a history without an incomplete promotion, only approved production work is
canonical. -/
theorem canonical_sound (hu : Function.Injective env.platform.uuid) {w : World}
    (h : Reachable env (completeCalls env) w) : CanonicalSound w.db := by
  have he : Effects env (Guard.complete env) {} w.db :=
    (h.mono fun _ _ hcall => hcall.respects).effects hu (World.Sound.init env)
  have hinv := he.preserve (I := fun s => StoreInv env s ∧ PromotionInv env s)
    (fun _ hstep hI => ⟨hstep.storeInv hI.1, hstep.promotionInv hI.1 hI.2⟩)
    ⟨StoreInv.empty env, PromotionInv.empty env⟩
  exact hinv.2.canonicalSound hinv.1.references

/-! ## A run that is promoted, and one that should not be -/

namespace Sample

/-- The calls of the sample run, none of which imports or promotes by hand. -/
theorem promoted_complete : Reachable Sample.env (completeCalls Sample.env) promoted := by
  have hclaimed : Reachable Sample.env (completeCalls Sample.env) claimed :=
    Continues.refl.calls (by simp [Op.Held, completeCalls, PromotesComplete, FreshInstances])
  have hstarted : Reachable Sample.env (completeCalls Sample.env) started :=
    hclaimed.callWith fun _ h => ⟨returned_claim h, trivial, trivial⟩
  have hcaptured : Reachable Sample.env (completeCalls Sample.env) captured :=
    hstarted.callWith fun _ h => ⟨returned_run h, trivial, trivial⟩
  have hobserved : Reachable Sample.env (completeCalls Sample.env) observed := by
    unfold observed
    split
    · next run hrun =>
      exact hcaptured.callWith fun _ _ =>
        ⟨returned_run (World.returned_last hrun), trivial, trivial⟩
    · exact hcaptured
  exact hobserved.callWith fun _ h => ⟨returned_run h, trivial, trivial⟩

def reviewReply : Reply → Option String
  | .manualEvidence r => r.reviewId
  | _ => none

/-- An operator imports one page of a datasource of full snapshots, which opens a review. -/
def imported : World := World.exec Sample.env [
  .importManualEvidence { datasourceId := "uk.offices", body := [], mediaType := none }
    fun n => tick (n + 1)]

/-- The review is approved. -/
def decided : World :=
  imported.callWith Sample.env reviewReply fun id =>
    .decideReview id .approved "operator" none (tick 20)

/-- Its run is promoted, though no snapshot was ever declared. -/
def incomplete : World :=
  decided.callWith Sample.env reviewReply fun id => .promoteReview id "operator" none (tick 21)

theorem incomplete_reachable : Reachable Sample.env anyCall incomplete := by
  have himported : Reachable Sample.env anyCall imported :=
    Continues.refl.calls (by simp [Op.Held, anyCall])
  have hdecided : Reachable Sample.env anyCall decided :=
    himported.callWith fun _ _ => ⟨trivial, trivial⟩
  exact hdecided.callWith fun _ _ => ⟨trivial, trivial⟩

end Sample

theorem canonical_sound_promoted : CanonicalSound Sample.promoted.db :=
  canonical_sound Sample.uuid_injective Sample.promoted_complete

/-- `promote_review` makes a run canonical whose full snapshot was never completed. -/
theorem not_canonical_sound : ¬ ∀ w, Reachable Sample.env anyCall w → CanonicalSound w.db := by
  intro hall
  have happroved := (hall _ Sample.incomplete_reachable).approved
  have hone : ∃ p ∈ Sample.incomplete.db.promotions, p.decision = .approved ∧
      ∀ r ∈ Sample.incomplete.db.runs, r.runId = p.runId →
        (r.datasourceId, r.definitionVersion) = Sample.offices.key ∧ r.snapshotComplete = false := by
    decide +kernel
  have hdefined : Sample.offices ∈ Sample.incomplete.db.definitions.map (·.definition) := by
    decide +kernel
  obtain ⟨p, hp, hdecision, hrun⟩ := hone
  obtain ⟨r, hr, hrid, -, -, -, hadmits⟩ := happroved p hp hdecision
  obtain ⟨hkey, hincomplete⟩ := hrun r hr hrid
  have hcomplete := (hadmits _ hdefined hkey.symm).complete rfl
  rw [hincomplete] at hcomplete
  exact nomatch hcomplete

end NanFung
