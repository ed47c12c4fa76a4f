import NanFung.Spec.Procedures

/-!
# Reviews, promotions and manual imports as chains of effects
-/

namespace NanFung

open Table

variable {env : Env} {G : Guard} {db db' : Db} {now : Time} {clock : Nat → Time}

/-! ## Decisions -/

theorem decideReview_effects (hG : G.clock now) {reviewId actorId : String}
    {decision : PromotionDecision} {reason : Option String} {b : Bool}
    (h : decideReview env reviewId decision actorId reason now db = .ok (b, db')) :
    Effects env G db db' := by
  simp only [decideReview, bind_ok, require_ok, orThrow_ok] at h
  obtain ⟨-, -, -, -, review, -, h⟩ := h
  split at h
  · cases h
    exact Relation.ReflTransGen.refl
  · simp only [bind_ok, require_ok, Except.ok.injEq, Prod.mk.injEq] at h
    obtain ⟨-, -, -, rfl⟩ := h
    exact Effects.one hG (.decideReview db ⟨_, reviewId, decision, actorId, reason, now⟩ (.ofDecision decision))

theorem approval?_mem {reviewId : String} {d : ReviewDecisionRow}
    (h : db.approval? reviewId = some d) :
    d ∈ db.reviewDecisions ∧ d.reviewId = reviewId ∧ d.decision = .approved := by
  have hmem := List.mem_of_head? h
  rw [List.mem_insertionSort, List.mem_filter] at hmem
  simpa using hmem

/-- What passes the guards of `promote_review`. -/
theorem promotableReview_ok {reviewId runId : String} {v : ReviewTaskRow} {d : ReviewDecisionRow}
    (h : promotableReview reviewId db = .ok (v, runId, d)) :
    (v ∈ db.reviewTasks ∧ v.reviewId = reviewId ∧ v.runId = some runId ∧
      ∃ row, db.definition? v.datasourceId v.definitionVersion = some row ∧
        row.definition.promotionPolicy = .manualReview) ∧
      (d ∈ db.reviewDecisions ∧ d.reviewId = reviewId ∧ d.decision = .approved) ∧
      db.succeededProduction runId ∧
      ∀ p ∈ db.promotions, ¬ (p.runId = runId ∧ p.decision = .approved) := by
  simp only [promotableReview, bind_ok, require_ok, orThrow_ok, Db.reviewWithDefinition?,
    Option.bind_eq_bind, Option.bind_eq_some_iff, Option.some.injEq, Except.ok.injEq,
    Prod.mk.injEq] at h
  obtain ⟨⟨v', definition⟩, ⟨w, hw, row, hrow, hwv⟩, -, -, -, hpolicy, -, -, run, hrun, -, hsucceeded, d',
    hd, -, -, -, hfirst, rfl, rfl, rfl⟩ := h
  obtain ⟨rfl, rfl⟩ := Prod.mk.inj hwv
  have hid : w.reviewId = reviewId := by simpa using List.find?_some hw
  exact ⟨⟨List.mem_of_find?_eq_some hw, hid, (Option.filter_eq_some_iff.mp hrun).1, row, hrow, hpolicy⟩,
    approval?_mem hd, hsucceeded, hfirst⟩

theorem promoteReview_effects (hG : G.clock now) {reviewId actorId : String} {reason : Option String}
    {r : ManualPromotionResult}
    (hpermitted : ∀ v ∈ db.reviewTasks, v.reviewId = reviewId → ∀ runId, v.runId = some runId →
      G.promotable db runId)
    (h : promoteReview env reviewId actorId reason now db = .ok (r, db')) :
    Effects env G db db' := by
  simp only [promoteReview, bind_ok, require_ok] at h
  obtain ⟨-, -, -, -, h⟩ := h
  split at h
  · cases h
    exact Relation.ReflTransGen.refl
  · simp only [bind_ok, require_ok, Except.ok.injEq, Prod.mk.injEq] at h
    obtain ⟨⟨v, runId, d⟩, hguards, details, -, ⟨id, db₁⟩, hins, -, -, -, -, -, rfl⟩ := h
    obtain ⟨⟨hv, hvid, hvrun, hpolicy⟩, hd, hsucceeded, hfirst⟩ := promotableReview_ok hguards
    obtain ⟨p, rfl, rfl, hpd, hpt, -, rfl⟩ := insertPromotion_ok hins
    exact Effects.one hG (.promoteReview db p _
      ⟨hpd, hpt, rfl, rfl, hsucceeded, ⟨v, hv, hvid, hvrun, hpolicy⟩, ⟨d, hd.1, rfl, hd.2⟩, hfirst⟩
      (hpermitted v hv hvid _ hvrun))

theorem revokePromotion_effects (hG : G.clock now) {runId actorId : String} {reason : Option String}
    {r : PromotionRevocationResult}
    (h : revokePromotion env runId actorId reason now db = .ok (r, db')) : Effects env G db db' := by
  simp only [revokePromotion, bind_ok, require_ok, orThrow_ok] at h
  obtain ⟨-, -, -, -, latest, hlatest, run, -, attempt, -, h⟩ := h
  have hmem := List.mem_of_head? hlatest
  rw [List.mem_insertionSort, List.mem_filter] at hmem
  split at h
  · cases h
    exact Relation.ReflTransGen.refl
  · simp only [bind_ok, require_ok, Except.ok.injEq, Prod.mk.injEq] at h
    obtain ⟨-, -, -, -, details, -, ⟨id, db₁⟩, hins, -, rfl⟩ := h
    obtain ⟨p, -, hpr, hpd, hpt, -, rfl⟩ := insertPromotion_ok hins
    exact Effects.one hG (.revoke db p hpd hpt ⟨latest, hmem.1, by simpa [hpr] using hmem.2⟩)

/-! ## Manual imports -/

theorem openReview_effects (hG : G.clock now) (hinv : StoreInv env db) {run : RunHandle}
    (hok : RunOk db run) {definition : DatasourceDefinition} {evidenceId reviewId : String}
    {attestation : Option String}
    (hdefinition : G.aligned → definition.datasourceId = run.datasourceId ∧
      definition.definitionVersion = run.definitionVersion)
    (h : openReview env run definition evidenceId attestation now db = .ok (reviewId, db')) :
    Effects env G db db' := by
  simp only [openReview, bind_ok, require_ok, Except.ok.injEq, Prod.mk.injEq] at h
  obtain ⟨⟨j, policy⟩, hrun, payload, -, -, hnew, -, rfl⟩ := h
  obtain ⟨a, r, hactive⟩ := requireRunningRun_active hinv.leases hok hrun
  exact Effects.one hG (.openReview db run j a r _ hactive rfl
    (fun hA => Prod.ext (hdefinition hA).1 (hdefinition hA).2) hnew)

/-- The state between the steps of an import: the store is sound and the handle valid. -/
def Holding (env : Env) (run : RunHandle) (s : Db) : Prop := StoreInv env s ∧ RunOk s run

theorem Holding.mono {run : RunHandle} {s s' : Db} (h : Holding env run s) (he : Effects env G s s') :
    Holding env run s' :=
  ⟨he.storeInv h.1, he.runOk h.2⟩

/-- A transaction on a held run. -/
theorem holding_spec {α : Type} {t : Db → Except StoreError (α × Db)} {run : RunHandle}
    (h : ∀ s a s', Holding env run s → t s = .ok (a, s') → Effects env G s s') :
    Proc.Spec (Effects env G) (Holding env run) (Proc.atomically t) fun _ => Holding env run :=
  Proc.Spec.atomically fun s a s' hs ht => ⟨h s a s' hs ht, hs.mono (h s a s' hs ht)⟩

theorem captureManualEvidence_effects (hG : ∀ n, G.clock (clock n)) {run : RunHandle}
    {args : EvidenceArgs} :
    Proc.Spec (Effects env G) (Holding env run) (captureManualEvidence env run args clock)
      fun _ => Holding env run := by
  refine Proc.Spec.tryCatch (holding_spec fun _ _ _ hs h => persistEvidence_effects (hG 4) hs.1 hs.2 h)
    (fun _ _ hs he => hs.mono he) fun error => ?_
  refine Proc.Spec.bind (Q := fun _ => Holding env run) ?_ fun _ => Proc.Spec.throw _
  refine Proc.Spec.tryCatch (holding_spec fun _ _ _ hs h => finishRun_effects (hG 5) hs.1 hs.2 h)
    (fun _ _ hs he => hs.mono he) fun e => ?_
  split
  · exact Proc.Spec.pure _ fun _ hs => hs
  · exact Proc.Spec.throw _

theorem captureSubmarketMapping_effects (hG : ∀ n, G.clock (clock n)) {run : RunHandle}
    {evidence : PersistedEvidence} :
    Proc.Spec (Effects env G) (Holding env run) (captureSubmarketMapping env run evidence clock)
      fun _ => Holding env run := by
  unfold captureSubmarketMapping
  split
  · refine Proc.Spec.bind (holding_spec fun _ _ _ hs h =>
      persistObservation_effects (hG 6) hs.1 hs.2 h) fun _ => ?_
    exact Proc.Spec.pure _ fun _ hs => hs
  · refine Proc.Spec.bind (holding_spec fun _ _ _ hs h => finishRun_effects (hG 6) hs.1 hs.2 h)
      fun _ => Proc.Spec.throw _

/-- The identifier an import draws gives its submission a dedupe key no job holds. -/
def FreshImport (env : Env) (args : ManualImportArgs) (clock : Nat → Time) (db : Db) : Prop :=
  ∀ definition attestation,
    env.registry.lookup env.platform args.datasourceId none = .ok definition →
    FreshKey env (importEnqueueArgs args definition attestation (env.newId "manual" db.drawn)) clock
      db.jobs

theorem importManualEvidence_effects (hG : ∀ n, G.clock (clock n)) {args : ManualImportArgs} :
    Proc.Spec (Effects env G)
      (fun s => StoreInv env s ∧ (G.aligned → FreshImport env args clock s))
      (importManualEvidence env args clock) fun _ => StoreInv env := by
  refine Proc.Spec.bind (Proc.Spec.query fun s _ hs _ => hs) fun attestation => ?_
  refine Proc.Spec.bind (Q := fun definition s =>
    (StoreInv env s ∧ (G.aligned → FreshImport env args clock s)) ∧
      env.registry.lookup env.platform args.datasourceId none = .ok definition)
    (Proc.Spec.query fun s definition hs hlookup => ⟨hs, hlookup⟩) fun definition => ?_
  refine Proc.Spec.bind (Q := fun id s => (StoreInv env s ∧ (G.aligned →
      FreshKey env (importEnqueueArgs args definition attestation id) clock s.jobs)) ∧
      env.registry.lookup env.platform args.datasourceId none = .ok definition) ?_ fun id => ?_
  · refine ((draw_spec (hG 0)).and_rel fun s s' hs he => he.storeInv hs.1.1).weaken
      (fun s hs => hs) ?_
    rintro id s ⟨⟨s₀, ⟨⟨-, hfresh⟩, hlookup⟩, rfl, rfl⟩, hinv⟩
    exact ⟨⟨hinv, fun hA => hfresh hA definition attestation hlookup⟩, hlookup⟩
  by_cases hlookup : env.registry.lookup env.platform args.datasourceId none = .ok definition
  swap
  · exact fun s hs => absurd hs.2 hlookup
  refine Proc.Spec.bind ((enqueue_spec hG G.aligned).weaken (fun s hs => hs.1) fun r s hs => hs)
    fun queued => ?_
  refine Proc.Spec.bind ((claimJob_spec (hG 2) G.aligned args.datasourceId
    definition.definitionVersion).weaken (fun s hs => ⟨hs.1, fun hA => ?_⟩) fun _ _ hs => hs)
    fun claim => ?_
  · obtain ⟨d, hd, hjob⟩ := hs.2 hA
    obtain rfl : definition = d := Except.ok.inj (hlookup.symm.trans hd)
    exact hjob
  match claim with
  | none => exact Proc.Spec.throw _
  | some claim =>
    have hid := (DatasourceRegistry.lookup_mem hlookup).2.1
    refine Proc.Spec.bind (Q := fun run s => Holding env run s ∧ (G.aligned →
      definition.datasourceId = run.datasourceId ∧
        definition.definitionVersion = run.definitionVersion)) ?_ fun run => ?_
    · refine Proc.Spec.atomically fun s run s' hs h => ?_
      obtain ⟨hok, hmatch⟩ := hs.2 claim rfl
      obtain ⟨he, hrun, hds, hv⟩ := startRun_effects (hG 3) hs.1 hok h
      refine ⟨he, ⟨he.storeInv hs.1, hrun⟩, fun hA => ?_⟩
      obtain ⟨hcds, hcv⟩ := hmatch hA
      exact ⟨hid.trans (Option.some.inj (hcds.symm.trans hds)),
        Option.some.inj (hcv.symm.trans hv)⟩
    by_cases hmatch : G.aligned → definition.datasourceId = run.datasourceId ∧
        definition.definitionVersion = run.definitionVersion
    swap
    · exact fun s hs => absurd hs.2 hmatch
    refine Proc.Spec.bind ((captureManualEvidence_effects hG).weaken (fun s hs => hs.1)
      fun _ _ hs => hs) fun evidence => ?_
    refine Proc.Spec.bind (Q := fun _ => Holding env run) ?_ fun _ => ?_
    · unfold importSubmarketMapping
      split
      · exact captureSubmarketMapping_effects hG
      · exact Proc.Spec.pure _ fun _ hs => hs
    refine Proc.Spec.bind (Q := fun _ => Holding env run) ?_ fun reviewId => ?_
    · unfold reviewManualImport
      split
      · exact Proc.Spec.bind (holding_spec fun _ _ _ hs h =>
          openReview_effects (hG 7) hs.1 hs.2 hmatch h) fun _ => Proc.Spec.pure _ fun _ hs => hs
      · exact Proc.Spec.pure _ fun _ hs => hs
    exact Proc.Spec.bind (holding_spec fun _ _ _ hs h => finishRun_effects (hG 8) hs.1 hs.2 h)
      fun _ => Proc.Spec.pure _ fun _ hs => hs.1

end NanFung
