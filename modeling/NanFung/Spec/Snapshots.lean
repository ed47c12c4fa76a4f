import NanFung.Spec.Records

/-!
# Full snapshots as chains of effects

Declaring a scope, and the loop of tombstones that ends a snapshot. Each iteration writes one
tombstone revision, so the loop is described by what it does to the stream heads: the streams of the
rows it runs over get a tombstone head, every other head stays.
-/

namespace NanFung

open Table

variable {env : Env} {G : Guard} {db db' : Db} {now : Time} {run : RunHandle}

/-! ## Keys a run has seen -/

theorem RefInv.mem_seenKeys (h : RefInv env db) {runId key : String} :
    key ∈ db.seenKeys runId ↔ ∃ l ∈ db.runObservations, l.runId = runId ∧
      ∃ o ∈ db.revisions, o.observationId = l.observationId ∧ o.revisionAction = .upsert ∧
        o.stream.recordKeyHash = key := by
  simp only [Db.seenKeys, List.mem_filterMap, List.mem_filter, decide_eq_true_eq,
    Option.bind_eq_some_iff, Option.ite_none_right_eq_some, Option.some.injEq]
  constructor
  · rintro ⟨l, ⟨hl, hrun⟩, o, ho, haction, hkey⟩
    obtain ⟨hmem, hid⟩ := h.revisions_keyed.find?_eq_some.mp ho
    exact ⟨l, hl, hrun, o, hmem, hid, haction, hkey⟩
  · rintro ⟨l, hl, hrun, o, hmem, hid, haction, hkey⟩
    exact ⟨l, ⟨hl, hrun⟩, o, h.revisions_keyed.find?_eq_some.mpr ⟨hmem, hid⟩, haction, hkey⟩

/-! ## Declaring a scope -/

theorem beginFullSnapshot_effects (hG : G.clock now) (hinv : StoreInv env db) (hok : RunOk db run)
    {scope : List (String × Json)} {scopeHash : String}
    (h : beginFullSnapshot env run scope now db = .ok (scopeHash, db')) : Effects env G db db' := by
  simp only [beginFullSnapshot, bind_ok, require_ok, Except.ok.injEq, Prod.mk.injEq] at h
  obtain ⟨definition, hlookup, -, hfull, hash, -, ⟨j, policy⟩, hrun, scopeJson, -, -, hcount, rfl,
    rfl⟩ := h
  obtain ⟨a, r, hactive⟩ := requireRunningRun_active hinv.leases hok hrun
  obtain ⟨s, hs, hsp⟩ := rowcount_eq_one hcount
  simp only [decide_eq_true_eq] at hsp
  obtain rfl : s = r := hinv.leases.runs_keyed.eq_of_mem hs hactive.run (hsp.1.trans hactive.runId.symm)
  rw [hinv.leases.runs_keyed.updateWhere_by_key _ hs (by simp [hsp])
    (by simp +contextual [hsp.1]), hsp.1]
  exact Effects.one hG (.declareScope db run j a s scopeJson hash hactive
    ((Env.fullSnapshot_iff hlookup).mpr hfull) hsp.2.2)

/-! ## Tombstones -/

/-- A row the tombstone loop of a run may run over. -/
structure Missing (db : Db) (run : RunHandle) (definition : DatasourceDefinition)
    (row : HeadRow × RevisionRow) : Prop where
  head : row.1 ∈ db.heads
  stream : row.1.stream = streamOf run definition row.1.stream.recordKeyHash
  upsert : row.1.revisionAction = .upsert
  unseen : row.1.stream.recordKeyHash ∉ db.seenKeys run.runId

/-- One iteration of the loop. -/
theorem writeTombstone_ok {definition : DatasourceDefinition} {scopeHash evidenceId : String}
    {ids : List String} {row : HeadRow × RevisionRow} {acc' : List String × Db}
    (hinv : RefInv env db) (hmissing : Missing db run definition row)
    (h : writeTombstone env run definition scopeHash evidenceId now (ids, db) row = .ok acc') :
    ∃ (o : RevisionRow) (locator : Json) (hash : String), o.stream = row.1.stream ∧
      o.revisionAction = .tombstone ∧ o.snapshotScopeHash = some scopeHash ∧
      o.revisionNo = row.1.revisionNo + 1 ∧ o.supersedesId = some row.1.observationId ∧
      (∀ q ∈ db.revisions, q.observationId ≠ o.observationId) ∧
      (db.definition? o.stream.datasourceId o.definitionVersion).isSome ∧
      acc' = (ids ++ [o.observationId], { db with
        revisions := db.revisions ++ [o]
        heads := upsertHead (headOf o now) db.heads
        runObservations := db.runObservations ++ [⟨run.runId, o.observationId⟩]
        observationEvidence := db.observationEvidence ++
          [⟨run.runId, o.observationId, evidenceId, locator, hash⟩]
        drawn := db.drawn + 1 }) := by
  simp only [writeTombstone, bind_ok, Except.ok.injEq] at h
  obtain ⟨digest, -, db₁, hins, locator, -, hash, -, rfl⟩ := h
  obtain ⟨hnew, hdef, rfl⟩ := insertRevision_ok hins
  refine ⟨_, locator, hash, hmissing.stream.symm, rfl, rfl, rfl, rfl, hnew, hdef, ?_⟩
  have hrow : ∃ g ∈ db.heads, g.stream = row.1.stream := ⟨row.1, hmissing.head, rfl⟩
  have hstream : (tombstoneRevision run definition scopeHash row.1 row.2 (env.newId "obs" db.drawn)
      digest now).stream = row.1.stream := hmissing.stream.symm
  rw [hinv.heads_keyed.updateWhere_by_key _ hmissing.head (by simp [hstream])
    (by simp +contextual [hstream]), upsertHead, if_pos (by simpa [headOf, hstream] using hrow)]
  simp only [headOf, hstream]

/-- A tombstone continues the stream of its row. -/
theorem Missing.extends_ (hinv : RefInv env db) {definition : DatasourceDefinition}
    {row : HeadRow × RevisionRow} (h : Missing db run definition row) {o : RevisionRow}
    (hstream : o.stream = row.1.stream) (haction : o.revisionAction = .tombstone)
    (hno : o.revisionNo = row.1.revisionNo + 1)
    (hsup : o.supersedesId = some row.1.observationId) : Extends db.heads o := by
  have hfind : db.heads.find? (fun g => g.stream = o.stream) = some row.1 :=
    hinv.heads_keyed.find?_eq_some.mpr ⟨h.head, hstream.symm⟩
  refine ⟨?_, ?_, fun hup => (nomatch haction.symm.trans hup), fun _ => ⟨row.1, hfind, h.upsert⟩⟩
  · rw [hfind, hno]
    rfl
  · rw [hfind, hsup]
    rfl

/-- What a tombstone leaves alone: the other heads, and the keys the run has seen. -/
theorem Missing.tombstone {definition : DatasourceDefinition} {row row' : HeadRow × RevisionRow}
    (hinv : RefInv env db) (hinv' : RefInv env db') (h : Missing db run definition row')
    (hne : row.1.stream ≠ row'.1.stream) {o : RevisionRow} (hstream : o.stream = row.1.stream)
    (haction : o.revisionAction = .tombstone)
    (hrevisions : db'.revisions = db.revisions ++ [o])
    (hheads : db'.heads = upsertHead (headOf o now) db.heads)
    (hlinks : db'.runObservations = db.runObservations ++ [⟨run.runId, o.observationId⟩]) :
    Missing db' run definition row' := by
  refine ⟨?_, h.stream, h.upsert, fun hseen => h.unseen ?_⟩
  · rw [hheads]
    exact mem_upsertHead.mpr (Or.inr ⟨h.head, fun he => hne (hstream.symm.trans he.symm)⟩)
  · rw [hinv'.mem_seenKeys] at hseen
    obtain ⟨l, hl, hrun, q, hq, hql, hqaction, hkey⟩ := hseen
    have hqold : q ∈ db.revisions := by
      rw [hrevisions] at hq
      rcases List.mem_append.mp hq with hq | hq
      · exact hq
      · rw [List.mem_singleton.mp hq, haction] at hqaction
        exact nomatch hqaction
    refine hinv.mem_seenKeys.mpr ⟨l, ?_, hrun, q, hqold, hql, hqaction, hkey⟩
    rw [hlinks] at hl
    rcases List.mem_append.mp hl with hl | hl
    · exact hl
    · -- the new link is to the tombstone, which is no upsert
      have hid : q.observationId = o.observationId := by
        rw [hql, List.mem_singleton.mp hl]
      have ho : o ∈ db'.revisions := by
        rw [hrevisions]
        exact List.mem_append_right _ (List.mem_singleton_self o)
      rw [hinv'.revisions_keyed.eq_of_mem (hrevisions ▸ List.mem_append_left _ hqold) ho hid,
        haction] at hqaction
      exact nomatch hqaction

/-- What the loop does to the stream heads. -/
structure Tombstoned (rows : List (HeadRow × RevisionRow)) (heads heads' : List HeadRow) : Prop where
  written : ∀ row ∈ rows, ∃ g ∈ heads'.find? (fun g => g.stream = row.1.stream),
    g.revisionAction = .tombstone
  kept : ∀ s, (∀ row ∈ rows, row.1.stream ≠ s) →
    heads'.find? (fun g => g.stream = s) = heads.find? fun g => g.stream = s

/-- The loop over rows of distinct streams. -/
theorem writeTombstones_effects (hG : G.clock now) {definition : DatasourceDefinition}
    {scopeHash evidenceId : String} {ids : List String} {rows : List (HeadRow × RevisionRow)}
    {acc' : List String × Db} {j : JobRow} {a : AttemptRow} {r : RunRow} (hinv : StoreInv env db)
    (hlookup : env.registry.lookup env.platform run.datasourceId (some run.definitionVersion) =
      .ok definition)
    (hactive : db.Active run j a r) (hscope : r.snapshotScopeHash = some scopeHash)
    (hevidence : ∃ e ∈ db.evidence, e.evidenceId = evidenceId)
    (hrows : ∀ row ∈ rows, Missing db run definition row)
    (hdistinct : rows.Pairwise fun row row' => row.1.stream ≠ row'.1.stream)
    (h : rows.foldlM (writeTombstone env run definition scopeHash evidenceId now) (ids, db) =
      .ok acc') :
    Effects env G db acc'.2 ∧ acc'.2.Active run j a r ∧ Tombstoned rows db.heads acc'.2.heads := by
  induction rows generalizing db ids with
  | nil =>
    simp only [List.foldlM_nil, pure_ok] at h
    subst h
    exact ⟨Relation.ReflTransGen.refl, hactive, fun _ hrow => (by cases hrow), fun _ _ => rfl⟩
  | cons row rows ih =>
    simp only [List.foldlM_cons, bind_ok] at h
    obtain ⟨acc₁, h₁, h⟩ := h
    have hmissing := hrows row (by simp)
    obtain ⟨hother, hdistinct⟩ := List.pairwise_cons.mp hdistinct
    obtain ⟨o, locator, hash, hstream, haction, hoscope, hno, hsup, hnew, hdef, rfl⟩ :=
      writeTombstone_ok hinv.references hmissing h₁
    have hsource : o.stream = streamOf run definition row.1.stream.recordKeyHash :=
      hstream.trans hmissing.stream
    have hrevise := @Effect.revise env G now db run j a r o hactive (by rw [hsource]; rfl)
      (by rw [hsource]; rfl) (hoscope.trans hscope.symm) (fun _ => by rw [hscope]; rfl)
      (hmissing.extends_ hinv.references hstream haction hno hsup)
      (fun _ => by rw [hstream]; exact hmissing.unseen) hnew hdef
      (by rw [hsource]; exact Env.keyVersion_streamOf hlookup)
    have he := (Effects.one hG hrevise).then hG (.linkEvidence _ run j a r
      ⟨run.runId, o.observationId, evidenceId, locator, hash⟩
      (hactive.of_eq rfl rfl hactive.run) rfl hevidence)
    have hinv₁ := he.storeInv hinv
    obtain ⟨hes, hactive', hwritten, hkept⟩ := ih hinv₁ (hactive.of_eq rfl rfl hactive.run) hevidence
      (fun row' hrow' => (hrows row' (by simp [hrow'])).tombstone hinv.references hinv₁.references
        (hother row' hrow') hstream haction rfl rfl rfl) hdistinct h
    have hhead := find?_upsertHead (h := headOf o now) hinv.references.heads_keyed
    refine ⟨he.trans hes, hactive', fun row' hrow' => ?_, fun s hs => ?_⟩
    · rcases List.mem_cons.mp hrow' with rfl | hrow'
      · rw [hkept _ fun row'' hrow'' => (hother row'' hrow'').symm, hhead,
          if_pos (by simpa [headOf] using hstream)]
        exact ⟨_, rfl, haction⟩
      · exact hwritten row' hrow'
    · rw [hkept s fun row' hrow' => hs row' (by simp [hrow']), hhead, if_neg]
      exact fun he => hs row (by simp) (hstream.symm.trans he)

/-! ## Finalisation -/

theorem RefInv.mem_scopeHeads (h : RefInv env db) {datasourceId keyVersion scopeHash : String}
    {lane : Lane} {row : HeadRow × RevisionRow} :
    row ∈ db.scopeHeads datasourceId lane keyVersion scopeHash ↔
      row.1 ∈ db.heads ∧ row.1.stream = ⟨datasourceId, lane, keyVersion, row.1.stream.recordKeyHash⟩ ∧
        row.1.revisionAction = .upsert ∧ row.2 ∈ db.revisions ∧
        row.2.observationId = row.1.observationId ∧ row.2.snapshotScopeHash = some scopeHash := by
  simp only [Db.scopeHeads, List.mem_insertionSort, List.mem_filterMap,
    Option.ite_none_right_eq_some, Option.bind_eq_some_iff, Option.some.injEq]
  constructor
  · rintro ⟨g, hg, ⟨hds, hlane, hversion, haction⟩, o, ho, hscope, rfl⟩
    obtain ⟨hmem, hid⟩ := h.revisions_keyed.find?_eq_some.mp ho
    refine ⟨hg, ?_, haction, hmem, hid, hscope⟩
    rw [← hds, ← hlane, ← hversion]
  · rintro ⟨hg, hstream, haction, hmem, hid, hscope⟩
    rw [StreamKey.mk.injEq] at hstream
    exact ⟨row.1, hg, ⟨hstream.1, hstream.2.1, hstream.2.2.1, haction⟩, row.2,
      h.revisions_keyed.find?_eq_some.mpr ⟨hmem, hid⟩, hscope, rfl⟩

theorem RefInv.scopeHeads_distinct (h : RefInv env db) {datasourceId keyVersion scopeHash : String}
    {lane : Lane} : (db.scopeHeads datasourceId lane keyVersion scopeHash).Pairwise
      fun row row' => row.1.stream ≠ row'.1.stream := by
  refine ((List.perm_insertionSort _ _).pairwise_iff fun hne => hne.symm).mpr ?_
  refine List.Pairwise.filterMap _ ?_ (List.pairwise_map.mp h.heads_keyed)
  intro g g' hne row hrow row' hrow'
  simp only [Option.ite_none_right_eq_some, Option.bind_eq_some_iff, Option.some.injEq] at hrow hrow'
  obtain ⟨-, o, -, -, rfl⟩ := hrow
  obtain ⟨-, o', -, -, rfl⟩ := hrow'
  exact hne

/-- The rows a finalisation writes tombstones for. -/
def Db.missingRows (db : Db) (run : RunHandle) (definition : DatasourceDefinition)
    (scopeHash : String) : List (HeadRow × RevisionRow) :=
  (db.scopeHeads run.datasourceId run.lane definition.recordKeyVersion scopeHash).filter
    fun row => row.1.stream.recordKeyHash ∉ db.seenKeys run.runId

theorem RefInv.missing (h : RefInv env db) {definition : DatasourceDefinition} {scopeHash : String}
    {row : HeadRow × RevisionRow} (hrow : row ∈ db.missingRows run definition scopeHash) :
    Missing db run definition row := by
  obtain ⟨hmem, hunseen⟩ := List.mem_filter.mp hrow
  obtain ⟨hg, hstream, haction, -⟩ := h.mem_scopeHeads.mp hmem
  exact ⟨hg, hstream, haction, by simpa using hunseen⟩

/-- A successful finalisation: the effects it makes, and what it does to the heads. -/
theorem finalizeFullSnapshot_ok (hG : G.clock now) (hinv : StoreInv env db) (hok : RunOk db run)
    {proof : List (String × Json)} {ids : List String}
    (h : finalizeFullSnapshot env run proof now db = .ok (ids, db')) :
    Effects env G db db' ∧ ∃ definition scopeHash,
      env.registry.lookup env.platform run.datasourceId (some run.definitionVersion) =
        .ok definition ∧ definition.snapshotMode = .fullSnapshot ∧
      (∃ j a r, db.Active run j a r ∧ r.snapshotScopeHash = some scopeHash) ∧
      Tombstoned (db.missingRows run definition scopeHash) db.heads db'.heads := by
  simp only [finalizeFullSnapshot, bind_ok, require_ok, orThrow_ok, Except.ok.injEq,
    Prod.mk.injEq] at h
  obtain ⟨definition, hlookup, -, hfull, -, -, ⟨j, policy⟩, hrun, scopeHash, hscope, -, -, evidenceId,
    hevidence, ⟨ids', db₁⟩, hloop, scope, -, -, rfl⟩ := h
  obtain ⟨a, r, hactive⟩ := requireRunningRun_active hinv.leases hok hrun
  have hscope : r.snapshotScopeHash = some scopeHash := by
    obtain ⟨hbind, -⟩ := Option.filter_eq_some_iff.mp hscope
    obtain ⟨s, hs, hss⟩ := Option.bind_eq_some_iff.mp hbind
    have hsp := List.find?_some hs
    simp only [decide_eq_true_eq] at hsp
    rwa [hinv.leases.runs_keyed.eq_of_mem (List.mem_of_find?_eq_some hs) hactive.run
      (hsp.1.trans hactive.runId.symm)] at hss
  have hevidence : ∃ e ∈ db.evidence, e.evidenceId = evidenceId := by
    have hmem := List.mem_of_head? hevidence
    rw [List.mem_insertionSort, List.mem_map] at hmem
    obtain ⟨link, hlink, rfl⟩ := hmem
    exact hinv.references.run_evidence link (List.mem_filter.mp hlink).1
  obtain ⟨hes, hactive₁, htombstoned⟩ := writeTombstones_effects hG hinv hlookup hactive hscope hevidence
    (fun row hrow => hinv.references.missing hrow)
    (hinv.references.scopeHeads_distinct.filter _) hloop
  refine ⟨?_, definition, scopeHash, hlookup, hfull, ⟨j, a, r, hactive, hscope⟩, htombstoned⟩
  have hactive₂ : ({ db₁ with
      runs := updateWhere (fun s => s.runId = run.runId)
        (fun s => { s with
          recordCount := s.recordCount + ids'.length
          acceptedRecordCount := s.acceptedRecordCount + ids'.length }) db₁.runs } : Db).Active
      run j a _ := hactive₁.updateRun rfl rfl rfl ⟨rfl, rfl, rfl, rfl, rfl, rfl⟩
  have hend := (hes.then hG (.count db₁ run j a r ids'.length hactive₁)).then hG
    (.completeSnapshot _ run j a _ scope hactive₂)
  -- the statement sets in one update what the two effects set one after the other
  rw [updateWhere_updateWhere ?same] at hend
  case same => exact fun s _ hs => hs
  rw [(hes.storeInv hinv).leases.runs_keyed.updateWhere_by_key _ hactive₁.run
    (by simp [hactive₁.runId, hactive₁.runRunning]) (by simp +contextual [hactive₁.runId]),
    hactive₁.runId]
  exact hend

end NanFung
