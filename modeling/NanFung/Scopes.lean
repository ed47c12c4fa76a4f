import NanFung.Streams

/-!
# Scopes of full snapshots

A revision carries the scope its run had declared, and `persist_observation` reuses the head revision
of a stream whose content has not changed, whatever the scope of the run that sees it again. So a key
belongs to the scope of the run that wrote its current content: `finalize_full_snapshot` writes
tombstones for exactly the keys of its scope in this sense that its run has not persisted. Where
scopes overlap, this is neither the scope that persisted the key last nor every scope that ever did.
-/

namespace NanFung

open Table

variable {env : Env} {G : Guard} {t : Time} {db db' : Db}

/-! ## Scopes and the keys they hold -/

/-- The run that wrote a revision: the first one linked to it. -/
def Db.writer? (db : Db) (observationId : String) : Option String :=
  (db.runObservations.find? fun l => l.observationId = observationId).map (·.runId)

/-- The run has declared the scope. -/
def Db.declared (db : Db) (runId scopeHash : String) : Prop :=
  ∃ r ∈ db.runs, r.runId = runId ∧ r.snapshotScopeHash = some scopeHash

instance (db : Db) (runId scopeHash : String) : Decidable (db.declared runId scopeHash) :=
  inferInstanceAs (Decidable (∃ r ∈ db.runs, _))

/-- The run has persisted the key: an upsert of its stream is among the run's observations. -/
def Db.persistedBy (db : Db) (runId : String) (s : StreamKey) : Prop :=
  ∃ l ∈ db.runObservations, l.runId = runId ∧
    ∃ o ∈ db.revisions, o.observationId = l.observationId ∧ o.stream = s ∧ o.revisionAction = .upsert

/-- The key is present, and a run of the scope wrote its current content. -/
def Db.heldBy (db : Db) (scopeHash : String) (s : StreamKey) : Prop :=
  ∃ h ∈ db.headOf? s, h.revisionAction = .upsert ∧
    ∃ runId ∈ db.writer? h.observationId, db.declared runId scopeHash

/-! ## The invariant -/

/-- How links, revisions, scopes and heads agree. -/
structure ScopeInv (env : Env) (db : Db) : Prop where
  link_run : ∀ l ∈ db.runObservations, ∀ r ∈ db.runs, r.runId = l.runId →
    ∀ o ∈ db.revisions, o.observationId = l.observationId →
      o.stream.datasourceId = r.datasourceId ∧ o.stream.lane = r.lane ∧
        env.keyVersion r.datasourceId r.definitionVersion o.stream.recordKeyVersion
  written : ∀ o ∈ db.revisions, ∃ runId ∈ db.writer? o.observationId,
    ∀ r ∈ db.runs, r.runId = runId → r.snapshotScopeHash = o.snapshotScopeHash ∧
      (env.fullSnapshot r.datasourceId r.definitionVersion → r.snapshotScopeHash.isSome)
  current : ∀ l ∈ db.runObservations, ∀ o ∈ db.revisions, o.observationId = l.observationId →
    o.revisionAction = .upsert → ∃ h ∈ db.headOf? o.stream, h.revisionAction = .upsert ∨
      ∃ runId ∈ db.writer? h.observationId, runId ≠ l.runId

theorem ScopeInv.empty (env : Env) : ScopeInv env {} := by
  constructor <;> simp

/-- A run after a write has a row in its place before, whose scope has changed only if a full
snapshot has declared its first one, unless the write started it. -/
def RunOrigin (env : Env) (db : Db) (s : RunRow) : Prop :=
  (∃ r ∈ db.runs, r.runId = s.runId ∧ r.datasourceId = s.datasourceId ∧
    r.definitionVersion = s.definitionVersion ∧ r.lane = s.lane ∧
    (r.snapshotScopeHash = s.snapshotScopeHash ∨
      (r.snapshotScopeHash = none ∧ env.fullSnapshot r.datasourceId r.definitionVersion))) ∨
  ∀ r ∈ db.runs, r.runId ≠ s.runId

theorem Effect.run_origin (e : Effect env G t db db') (hinv : db.Leases) :
    ∀ s ∈ db'.runs, RunOrigin env db s := by
  intro s hs
  cases e with
  | start j a r job state datasource version attemptJob attemptRunning newAttempt runAttempt runJob
      runRunning runScope newRun =>
    rcases List.mem_append.mp hs with hs | hs
    · exact Or.inl ⟨s, hs, rfl, rfl, rfl, rfl, Or.inl rfl⟩
    · exact Or.inr (List.mem_singleton.mp hs ▸ newRun)
  | close | count | completeSnapshot =>
    rcases mem_updateWhere.mp hs with ⟨r, hr, -, rfl⟩ | ⟨hs, -⟩
    · exact Or.inl ⟨r, hr, rfl, rfl, rfl, rfl, Or.inl rfl⟩
    · exact Or.inl ⟨s, hs, rfl, rfl, rfl, rfl, Or.inl rfl⟩
  | declareScope h j a r scope scopeHash active full undeclared =>
    rcases mem_updateWhere.mp hs with ⟨q, hq, hp, rfl⟩ | ⟨hs, -⟩
    · obtain rfl : q = r := hinv.runs_keyed.eq_of_mem hq active.run
        ((of_decide_eq_true hp).trans active.runId.symm)
      refine Or.inl ⟨q, hq, rfl, rfl, rfl, rfl, Or.inr ⟨undeclared, ?_⟩⟩
      rw [active.runDatasource, active.runVersion]
      exact full
    · exact Or.inl ⟨s, hs, rfl, rfl, rfl, rfl, Or.inl rfl⟩
  | _ => exact Or.inl ⟨s, hs, rfl, rfl, rfl, rfl, Or.inl rfl⟩

/-- A revision's writer stays its writer. -/
theorem writer?_append {links : List RunObservationRow} {id : String}
    (hlinks : db'.runObservations = db.runObservations ++ links) (h : (db.writer? id).isSome) :
    db'.writer? id = db.writer? id := by
  unfold Db.writer? at *
  rw [Option.isSome_map] at h
  rw [hlinks, List.find?_append, Option.or_of_isSome h]

/-- The only run linked to a fresh revision is its writer. -/
theorem writer?_new {id runId : String} (hnew : ∀ l ∈ db.runObservations, l.observationId ≠ id)
    (hlinks : db'.runObservations = db.runObservations ++ [⟨runId, id⟩]) :
    db'.writer? id = some runId := by
  have hnone : db.runObservations.find? (fun l => l.observationId = id) = none := by
    simpa [List.find?_eq_none] using hnew
  unfold Db.writer?
  rw [hlinks, List.find?_append, hnone]
  simp

/-- Links are never deleted. -/
theorem Effect.mem_runObservations (e : Effect env G t db db') {l : RunObservationRow}
    (hl : l ∈ db.runObservations) : l ∈ db'.runObservations := by
  cases e with
  | revise | link => exact List.mem_append_left _ hl
  | _ => exact hl

/-- Revisions are never changed. -/
theorem Effect.mem_revisions (e : Effect env G t db db') {o : RevisionRow}
    (ho : o ∈ db.revisions) : o ∈ db'.revisions := by
  cases e with
  | revise => exact List.mem_append_left _ ho
  | _ => exact ho

namespace ScopeInv

/-- Changes of runs only. -/
theorem mapRuns (h : ScopeInv env db) (href : RefInv env db)
    (horigin : ∀ s ∈ db'.runs, RunOrigin env db s) (hlinks : db'.runObservations = db.runObservations)
    (hrevisions : db'.revisions = db.revisions) (hheads : db'.heads = db.heads) :
    ScopeInv env db' := by
  have hwriter : ∀ id, db'.writer? id = db.writer? id := fun id => by
    unfold Db.writer?
    rw [hlinks]
  have hhead : ∀ s, db'.headOf? s = db.headOf? s := fun s => by
    unfold Db.headOf?
    rw [hheads]
  refine ⟨?_, ?_, ?_⟩
  · rw [hlinks, hrevisions]
    intro l hl s hs hsl
    rcases horigin s hs with ⟨r, hr, hid, hds, hversion, hlane, -⟩ | hnew
    · rw [← hds, ← hversion, ← hlane]
      exact h.link_run l hl r hr (hid.trans hsl)
    · obtain ⟨r, hr, hrl⟩ := href.observation_run l hl
      exact absurd (hrl.trans hsl.symm) (hnew r hr)
  · rw [hrevisions]
    intro o ho
    obtain ⟨runId, hwrote, hruns⟩ := h.written o ho
    refine ⟨runId, (hwriter _).symm ▸ hwrote, fun s hs hsr => ?_⟩
    rcases horigin s hs with ⟨r, hr, hid, hds, hversion, -, hscope⟩ | hnew
    · obtain ⟨hsame, hfull⟩ := hruns r hr (hid.trans hsr)
      rcases hscope with hscope | ⟨hundeclared, hdefinition⟩
      · rw [← hscope, ← hds, ← hversion]
        exact ⟨hsame, hfull⟩
      · -- a full snapshot that has written something has declared its scope
        have := hfull hdefinition
        rw [hundeclared] at this
        exact nomatch this
    · obtain ⟨l, hl, rfl⟩ := Option.map_eq_some_iff.mp hwrote
      obtain ⟨r, hr, hrl⟩ := href.observation_run l (List.mem_of_find?_eq_some hl)
      exact absurd (hrl.trans hsr.symm) (hnew r hr)
  · rw [hlinks, hrevisions]
    intro l hl o ho hid haction
    simp only [hhead, hwriter]
    exact h.current l hl o ho hid haction

/-- One more link of an open run. -/
theorem link (h : ScopeInv env db) (href : RefInv env db) (hinv : db.Leases) {hd : RunHandle}
    {j : JobRow} {a : AttemptRow} {r : RunRow} {o : RevisionRow} (hactive : db.Active hd j a r)
    (ho : o ∈ db.revisions) (hds : o.stream.datasourceId = hd.datasourceId)
    (hlane : o.stream.lane = hd.lane)
    (hversion : env.keyVersion hd.datasourceId hd.definitionVersion o.stream.recordKeyVersion)
    (hhead : ∃ g ∈ db.heads, g.stream = o.stream ∧ g.observationId = o.observationId ∧
      g.revisionAction = .upsert) :
    ScopeInv env { db with
      runObservations := db.runObservations ++ [⟨hd.runId, o.observationId⟩] } := by
  have hwriter : ∀ id, (db.writer? id).isSome → ({ db with
      runObservations := db.runObservations ++ [⟨hd.runId, o.observationId⟩] } : Db).writer? id =
        db.writer? id := fun id hid => writer?_append rfl hid
  have hsome : ∀ {q}, q ∈ db.revisions → (db.writer? q.observationId).isSome := fun hq => by
    obtain ⟨runId, hwrote, -⟩ := h.written _ hq
    rw [hwrote]
    rfl
  refine ⟨fun l hl s hs hsl q hq hql => ?_, fun q hq => ?_, fun l hl q hq hql haction => ?_⟩
  · rcases List.mem_append.mp hl with hl | hl
    · exact h.link_run l hl s hs hsl q hq hql
    · obtain rfl := List.mem_singleton.mp hl
      obtain rfl : q = o := href.revisions_keyed.eq_of_mem hq ho hql
      obtain rfl : s = r :=
        hinv.runs_keyed.eq_of_mem hs hactive.run (hsl.trans hactive.runId.symm)
      rw [hactive.runDatasource, hactive.runVersion, hactive.runLane]
      exact ⟨hds, hlane, hversion⟩
  · obtain ⟨runId, hwrote, hruns⟩ := h.written q hq
    exact ⟨runId, (hwriter _ (hsome hq)).symm ▸ hwrote, hruns⟩
  · rcases List.mem_append.mp hl with hl | hl
    · obtain ⟨g, hg, hcurrent⟩ := h.current l hl q hq hql haction
      refine ⟨g, hg, hcurrent.imp_right ?_⟩
      rintro ⟨runId, hwrote, hne⟩
      refine ⟨runId, ?_, hne⟩
      rw [hwriter _ (Option.isSome_iff_exists.mpr ⟨runId, hwrote⟩)]
      exact hwrote
    · obtain rfl := List.mem_singleton.mp hl
      obtain rfl : q = o := href.revisions_keyed.eq_of_mem hq ho hql
      obtain ⟨g, hg, hstream, -, hupsert⟩ := hhead
      exact ⟨g, href.heads_keyed.find?_eq_some.mpr ⟨hg, hstream⟩, Or.inl hupsert⟩

/-- One more revision, with its head and its link. -/
theorem revise (h : ScopeInv env db) (href : RefInv env db) (hinv : db.Leases) {hd : RunHandle}
    {j : JobRow} {a : AttemptRow} {r : RunRow} {o : RevisionRow} (hactive : db.Active hd j a r)
    (hds : o.stream.datasourceId = hd.datasourceId) (hlane : o.stream.lane = hd.lane)
    (hversion : env.keyVersion hd.datasourceId hd.definitionVersion o.stream.recordKeyVersion)
    (hscope : o.snapshotScopeHash = r.snapshotScopeHash)
    (hdeclared : env.fullSnapshot hd.datasourceId hd.definitionVersion →
      r.snapshotScopeHash.isSome)
    (hunseen : o.revisionAction = .tombstone → o.stream.recordKeyHash ∉ db.seenKeys hd.runId)
    (hnew : ∀ q ∈ db.revisions, q.observationId ≠ o.observationId)
    (hruns : db'.runs = db.runs) (hrevisions : db'.revisions = db.revisions ++ [o])
    (hheads : db'.heads = upsertHead (headOf o t) db.heads)
    (hlinks : db'.runObservations = db.runObservations ++ [⟨hd.runId, o.observationId⟩]) :
    ScopeInv env db' := by
  have hunlinked : ∀ l ∈ db.runObservations, l.observationId ≠ o.observationId := fun l hl hid => by
    obtain ⟨q, hq, hql⟩ := href.observation_revision l hl
    exact hnew q hq (hql.trans hid)
  have hwriter : db'.writer? o.observationId = some hd.runId := writer?_new hunlinked hlinks
  have hold : ∀ q ∈ db.revisions, db'.writer? q.observationId = db.writer? q.observationId :=
    fun q hq => writer?_append hlinks (by
      obtain ⟨runId, hwrote, -⟩ := h.written q hq
      rw [hwrote]
      rfl)
  have hhead : ∀ s, db'.headOf? s = if o.stream = s then some (headOf o t) else db.headOf? s := by
    intro s
    unfold Db.headOf?
    rw [hheads, find?_upsertHead href.heads_keyed]
    rfl
  -- an old link is to an old revision, the new one to the new revision
  have hcases : ∀ l ∈ db'.runObservations, ∀ q ∈ db'.revisions, q.observationId = l.observationId →
      (l ∈ db.runObservations ∧ q ∈ db.revisions) ∨ (l.runId = hd.runId ∧ q = o) := by
    rw [hlinks, hrevisions]
    intro l hl q hq hql
    rcases List.mem_append.mp hl with hl | hl <;> rcases List.mem_append.mp hq with hq | hq
    · exact Or.inl ⟨hl, hq⟩
    · exact absurd (hql ▸ congrArg _ (List.mem_singleton.mp hq)) (hunlinked l hl)
    · exact absurd (hql.trans (congrArg _ (List.mem_singleton.mp hl))) (hnew q hq)
    · exact Or.inr ⟨by rw [List.mem_singleton.mp hl], List.mem_singleton.mp hq⟩
  have hrun : ∀ s ∈ db'.runs, s.runId = hd.runId → s = r := fun s hs hid =>
    hinv.runs_keyed.eq_of_mem (hruns ▸ hs) hactive.run (hid.trans hactive.runId.symm)
  refine ⟨fun l hl s hs hsl q hq hql => ?_, fun q hq => ?_, fun l hl q hq hql haction => ?_⟩
  · rcases hcases l hl q hq hql with ⟨hl, hq⟩ | ⟨hid, rfl⟩
    · exact h.link_run l hl s (hruns ▸ hs) hsl q hq hql
    · rw [hrun s hs (hsl.trans hid), hactive.runDatasource, hactive.runVersion, hactive.runLane]
      exact ⟨hds, hlane, hversion⟩
  · rw [hrevisions] at hq
    rcases List.mem_append.mp hq with hq | hq
    · rw [hold q hq, hruns]
      exact h.written q hq
    · obtain rfl := List.mem_singleton.mp hq
      refine ⟨hd.runId, hwriter, fun s hs hid => ?_⟩
      rw [hrun s hs hid, hactive.runDatasource, hactive.runVersion]
      exact ⟨hscope.symm, hdeclared⟩
  · rw [hhead]
    rcases hcases l hl q hq hql with ⟨hl, hq⟩ | ⟨-, rfl⟩
    · split
      · next hs =>
        refine ⟨_, rfl, ?_⟩
        cases hkind : o.revisionAction with
        | upsert => exact Or.inl hkind
        | tombstone =>
          -- a run writes no tombstone for a key it has persisted
          refine Or.inr ⟨hd.runId, hwriter, fun hid => hunseen hkind ?_⟩
          exact href.mem_seenKeys.mpr ⟨l, hl, hid.symm, q, hq, hql, haction, by rw [hs]⟩
      · obtain ⟨g, hg, hcurrent⟩ := h.current l hl q hq hql haction
        obtain ⟨w, hw, hwg, -⟩ := href.head_revision g (List.mem_of_find?_eq_some hg)
        rw [← hwg, ← hold w hw, hwg] at hcurrent
        exact ⟨g, hg, hcurrent⟩
    · rw [if_pos rfl]
      exact ⟨_, rfl, Or.inl haction⟩

end ScopeInv

theorem Effect.scopes (e : Effect env G t db db') (hinv : StoreInv env db) (h : ScopeInv env db) :
    ScopeInv env db' := by
  have horigin := e.run_origin hinv.leases
  cases e with
  | revise hd j a r o active datasource lane scope declared extends_ unseen new defined keyVersion =>
    exact h.revise hinv.references hinv.leases active datasource lane keyVersion scope declared unseen
      new rfl rfl rfl rfl
  | link hd j a r o active revision datasource lane new keyVersion head =>
    exact h.link hinv.references hinv.leases active revision datasource lane keyVersion head
  | _ => exact h.mapRuns hinv.references horigin rfl rfl rfl

theorem Effects.scopes (es : Effects env G db db') (hinv : StoreInv env db)
    (h : ScopeInv env db) : ScopeInv env db' :=
  (es.preserve (I := fun s => StoreInv env s ∧ ScopeInv env s)
    (fun _ he hI => ⟨he.storeInv hI.1, he.scopes hI.1 hI.2⟩) ⟨hinv, h⟩).2

theorem Reachable.scopes (hu : Function.Injective env.platform.uuid) {allowed : World → Op → Prop}
    {w : World} (h : Reachable env allowed w) : ScopeInv env w.db :=
  ((h.mono fun w op _ => op.respects_any w.db).effects hu (World.Sound.init env)).scopes
    (StoreInv.empty env) (ScopeInv.empty env)

/-! ## What a finalisation does -/

/-- The keys of a run: those its persisted observations have. -/
def RunHandle.owns (run : RunHandle) (definition : DatasourceDefinition) (s : StreamKey) : Prop :=
  s = streamOf run definition s.recordKeyHash

/-- A finalisation of a run is exact for the keys its scope holds. -/
structure SnapshotExact (run : RunHandle) (definition : DatasourceDefinition) (scopeHash : String)
    (db db' : Db) : Prop where
  deleted : ∀ s, run.owns definition s → db.heldBy scopeHash s → ¬ db.persistedBy run.runId s →
    ∃ h ∈ db'.headOf? s, h.revisionAction = .tombstone
  present : ∀ s, db.persistedBy run.runId s → ∃ h ∈ db'.headOf? s, db.headOf? s = some h ∧
    (h.revisionAction = .upsert ∨ ∃ other ∈ db'.writer? h.observationId, other ≠ run.runId)
  unseen : ∀ s, (∀ other, db.declared other scopeHash → ¬ db.persistedBy other s) →
    db'.headOf? s = db.headOf? s
  foreign : ∀ s, ¬ (run.owns definition s ∧ db.heldBy scopeHash s) → db'.headOf? s = db.headOf? s

/-- A key a scope holds has been persisted by a run of the scope. -/
theorem Db.heldBy.persistedBy {scopeHash : String} {s : StreamKey} (h : db.heldBy scopeHash s)
    (hstreams : StreamInv db s) :
    ∃ runId, db.declared runId scopeHash ∧ db.persistedBy runId s := by
  obtain ⟨g, hg, hupsert, runId, hwrote, hdeclared⟩ := h
  obtain ⟨l, hl, hlr⟩ := Option.map_eq_some_iff.mp hwrote
  have hmatch := hstreams.head
  rw [show db.headOf? s = some g from hg] at hmatch
  cases hlast : (db.revisionsOf s).getLast? with
  | none =>
    rw [hlast] at hmatch
    exact hmatch.elim
  | some o =>
    rw [hlast] at hmatch
    have hmem := List.mem_filter.mp (List.mem_of_getLast? hlast)
    refine ⟨runId, hdeclared, l, List.mem_of_find?_eq_some hl, hlr, o, hmem.1, ?_,
      of_decide_eq_true hmem.2, hmatch.action.symm.trans hupsert⟩
    have hid : l.observationId = g.observationId := by simpa using List.find?_some hl
    rw [hid, hmatch.observation]

/-- The key hashes a run has seen are those of the keys it has persisted. -/
theorem ScopeInv.persistedBy_iff (h : ScopeInv env db) (href : RefInv env db) {run : RunHandle}
    {definition : DatasourceDefinition} {j : JobRow} {a : AttemptRow} {r : RunRow}
    (hactive : db.Active run j a r)
    (hlookup : env.registry.lookup env.platform run.datasourceId (some run.definitionVersion) =
      .ok definition) {s : StreamKey} (hs : run.owns definition s) :
    db.persistedBy run.runId s ↔ s.recordKeyHash ∈ db.seenKeys run.runId := by
  rw [href.mem_seenKeys]
  constructor
  · rintro ⟨l, hl, hrun, o, ho, hid, rfl, haction⟩
    exact ⟨l, hl, hrun, o, ho, hid, haction, rfl⟩
  · rintro ⟨l, hl, hrun, o, ho, hid, haction, hkey⟩
    refine ⟨l, hl, hrun, o, ho, hid, ?_, haction⟩
    -- a run has one datasource, one lane and one key version
    obtain ⟨hds, hlane, d, hd, hdkey, hversion⟩ :=
      h.link_run l hl r hactive.run (hactive.runId.trans hrun.symm) o ho hid
    obtain ⟨hdef, hdefkey⟩ := DatasourceRegistry.lookup_key hlookup
    rw [hactive.runDatasource, hactive.runVersion] at hdkey
    obtain rfl : d = definition :=
      env.registry.definitions_keyed.eq_of_mem hd hdef (hdkey.trans hdefkey.symm)
    calc o.stream
        = ⟨o.stream.datasourceId, o.stream.lane, o.stream.recordKeyVersion,
            o.stream.recordKeyHash⟩ := rfl
      _ = streamOf run d s.recordKeyHash := by
          rw [hds, hactive.runDatasource, hlane, hactive.runLane, ← hversion, hkey]
          rfl
      _ = s := hs.symm

/-- The rows a finalisation writes tombstones for are the keys its scope holds and its run has not
persisted. -/
theorem ScopeInv.missing_iff (h : ScopeInv env db) (href : RefInv env db) {run : RunHandle}
    {definition : DatasourceDefinition} {scopeHash : String} {j : JobRow} {a : AttemptRow}
    {r : RunRow} (hactive : db.Active run j a r)
    (hlookup : env.registry.lookup env.platform run.datasourceId (some run.definitionVersion) =
      .ok definition) {s : StreamKey} :
    (∃ row ∈ db.missingRows run definition scopeHash, row.1.stream = s) ↔
      run.owns definition s ∧ db.heldBy scopeHash s ∧ ¬ db.persistedBy run.runId s := by
  constructor
  · rintro ⟨⟨g, o⟩, hrow, rfl⟩
    obtain ⟨hmem, hunseen⟩ := List.mem_filter.mp hrow
    obtain ⟨hg, hstream, hupsert, ho, hid, hscope⟩ := href.mem_scopeHeads.mp hmem
    obtain ⟨runId, hwrote, hruns⟩ := h.written o ho
    obtain ⟨l, hl, rfl⟩ := Option.map_eq_some_iff.mp hwrote
    obtain ⟨q, hq, hql⟩ := href.observation_run l (List.mem_of_find?_eq_some hl)
    refine ⟨hstream, ⟨g, href.heads_keyed.find?_eq_some.mpr ⟨hg, rfl⟩, hupsert, l.runId, hid ▸ hwrote,
      q, hq, hql, (hruns q hq hql).1.trans hscope⟩, fun hpersisted => ?_⟩
    rw [h.persistedBy_iff href hactive hlookup hstream] at hpersisted
    exact absurd hpersisted (by simpa using hunseen)
  · rintro ⟨howns, ⟨g, hg, hupsert, runId, hwrote, q, hq, hqr, hscope⟩, hunseen⟩
    obtain ⟨hmem, rfl⟩ := href.heads_keyed.find?_eq_some.mp hg
    obtain ⟨o, ho, hid, -⟩ := href.head_revision g hmem
    obtain ⟨runId', hwrote', hruns⟩ := h.written o ho
    rw [hid, Option.mem_def.mp hwrote, Option.mem_some_iff] at hwrote'
    refine ⟨(g, o), List.mem_filter.mpr ⟨href.mem_scopeHeads.mpr ⟨hmem, howns, hupsert, ho, hid, ?_⟩,
      ?_⟩, rfl⟩
    · rw [← (hruns q hq (hqr.trans hwrote')).1, hscope]
    · rw [h.persistedBy_iff href hactive hlookup howns] at hunseen
      simpa using hunseen

/-- A successful finalisation is exact for its scope. -/
theorem finalizeFullSnapshot_exact (hinv : StoreInv env db) (h : ScopeInv env db)
    (hstreams : ∀ s, StreamInv db s) {run : RunHandle} (hok : RunOk db run)
    {proof : List (String × Json)} {now : Time} {ids : List String}
    (hcall : finalizeFullSnapshot env run proof now db = .ok (ids, db')) :
    ∃ definition scopeHash, env.registry.lookup env.platform run.datasourceId
        (some run.definitionVersion) = .ok definition ∧ db.declared run.runId scopeHash ∧
      SnapshotExact run definition scopeHash db db' := by
  obtain ⟨he, definition, scopeHash, hlookup, -, ⟨j, a, r, hactive, hscope⟩, hwritten, hkept⟩ :=
    finalizeFullSnapshot_ok (G := Guard.any) trivial hinv hok hcall
  have href := hinv.references
  have hmissing : ∀ s, (∃ row ∈ db.missingRows run definition scopeHash, row.1.stream = s) ↔
      run.owns definition s ∧ db.heldBy scopeHash s ∧ ¬ db.persistedBy run.runId s :=
    fun _ => h.missing_iff href hactive hlookup
  have hsame : ∀ s, ¬ (run.owns definition s ∧ db.heldBy scopeHash s ∧
      ¬ db.persistedBy run.runId s) → db'.headOf? s = db.headOf? s := fun s hs =>
    hkept s fun row hrow hstream => hs ((hmissing s).mp ⟨row, hrow, hstream⟩)
  refine ⟨definition, scopeHash, hlookup, ⟨r, hactive.run, hactive.runId, hscope⟩, ?_, ?_, ?_, ?_⟩
  · intro s howns hheld hunseen
    obtain ⟨row, hrow, rfl⟩ := (hmissing s).mpr ⟨howns, hheld, hunseen⟩
    exact hwritten row hrow
  · intro s hpersisted
    have hhead := hsame s fun hs => hs.2.2 hpersisted
    -- the links and revisions of before are still there, so the invariant speaks about the head
    obtain ⟨l, hl, hrun, o, ho, hid, rfl, haction⟩ := hpersisted
    obtain ⟨hl', ho'⟩ := he.preserve (I := fun s => l ∈ s.runObservations ∧ o ∈ s.revisions)
      (fun _ e hI => ⟨e.mem_runObservations hI.1, e.mem_revisions hI.2⟩) ⟨hl, ho⟩
    obtain ⟨g, hg, hcurrent⟩ := (he.scopes hinv h).current l hl' o ho' hid haction
    exact ⟨g, hg, hhead ▸ hg, hrun ▸ hcurrent⟩
  · intro s hnever
    refine hsame s fun ⟨_, hheld, _⟩ => ?_
    obtain ⟨other, hdeclared, hpersisted⟩ := hheld.persistedBy (hstreams s)
    exact hnever other hdeclared hpersisted
  · exact fun s hs => hsame s fun ⟨howns, hheld, _⟩ => hs ⟨howns, hheld⟩

/-- A write to a key that some call made: by a persisted observation or a tombstone. -/
structure KeyWrite where
  runId : String
  observationId : String
  action : RevisionAction

namespace World

/-- The writes to keys that calls of a history made, oldest first. -/
def keyWrites (w : World) : List KeyWrite :=
  w.history.flatMap fun call =>
    match call with
    | (.persistObservation run _ _, .ok (.observation id)) => [⟨run.runId, id, .upsert⟩]
    | (.finalizeFullSnapshot run _ _, .ok (.tombstones ids)) =>
      ids.map fun id => ⟨run.runId, id, .tombstone⟩
    | _ => []

/-- Those to one key. -/
def writesTo (w : World) (s : StreamKey) : List KeyWrite :=
  w.keyWrites.filter fun e => ∃ o ∈ w.db.revisions, o.observationId = e.observationId ∧ o.stream = s

/-- Those to one key by runs of one scope. -/
def writesIn (w : World) (scopeHash : String) (s : StreamKey) : List KeyWrite :=
  (w.writesTo s).filter fun e =>
    ∃ r ∈ w.db.runs, r.runId = e.runId ∧ r.snapshotScopeHash = some scopeHash

/-- The last write to the key by a run of the scope was a persisted observation. -/
def liveIn (w : World) (scopeHash : String) (s : StreamKey) : Prop :=
  ∃ e ∈ (w.writesIn scopeHash s).getLast?, e.action = .upsert

/-- The last observation of the key was persisted by a run of another scope. -/
def lastPersistedOutside (w : World) (scopeHash : String) (s : StreamKey) : Prop :=
  ∃ e ∈ ((w.writesTo s).filter fun e => e.action = .upsert).getLast?,
    ∃ r ∈ w.db.runs, r.runId = e.runId ∧ ∃ other ∈ r.snapshotScopeHash, other ≠ scopeHash

end World

/-- Exactness for the keys that are live in a scope, whichever runs of other scopes saw them. -/
structure LiveExact (run : RunHandle) (scopeHash : String) (w w' : World) : Prop where
  deleted : ∀ s, s.datasourceId = run.datasourceId → s.lane = run.lane → w.liveIn scopeHash s →
    (∀ e ∈ w.writesTo s, e.runId ≠ run.runId) → ∃ h ∈ w'.db.headOf? s, h.revisionAction = .tombstone
  present : ∀ s, (∃ e ∈ w.writesTo s, e.runId = run.runId ∧ e.action = .upsert) →
    ∃ h ∈ w'.db.headOf? s, h.revisionAction = .upsert
  spared : ∀ s, (w.writesIn scopeHash s = [] ∨ w.lastPersistedOutside scopeHash s) →
    ∀ h ∈ w'.db.headOf? s, h.revisionAction = .tombstone → w.db.headOf? s = some h

namespace Sample

def scopeReply : Reply → Option String
  | .scope hash => some hash
  | _ => none

/-- A run over the offices of an area, with a page stored. -/
def surveying (w : World) (area : String) (n : Nat) : World :=
  let queued := w.step Sample.env (.enqueue
    { datasourceId := "uk.offices", requestInstanceId := some (Nat.repr n) } fun _ => tick n)
  let claimed := queued.step Sample.env (.claimNext "worker" (tick n) 3600)
  let started := claimed.callWith Sample.env claimReply fun c => .startRun c "worker" (tick n)
  let declared := started.callWith Sample.env runReply fun run =>
    .beginFullSnapshot run [("area", .str area)] (tick n)
  declared.callWith Sample.env runReply fun run => .persistEvidence run {
    body := .stored ⟨"artifact", none⟩
    request := [("method", .str "GET"), ("url", .str "https://example.org/offices")]
    response := [("final_url", .str "https://example.org/offices"), ("status", .int 200)] } (tick n)

/-- It observes an office. -/
def surveyed (w : World) (area : String) (n : Nat) : World :=
  match (surveying w area n).last runReply with
  | some run => (surveying w area n).callWith Sample.env evidenceReply fun e =>
      .persistObservation run {
        recordKey := ["office", "1"]
        payload := [("value", .int 7)]
        recordType := "office"
        category := "offices"
        evidence := [e] } (tick n)
  | none => surveying w area n

/-- An office on the border is seen from the north, then from the south, then from the north no
more. -/
def bordering : World := surveying (surveyed (surveyed {} "north" 1) "south" 2) "north" 3

/-- The last survey ends with a proof of completeness for its scope. -/
def finalising (run : RunHandle) (scopeHash : String) : Op :=
  .finalizeFullSnapshot run [
    ("complete", .bool true),
    ("snapshot_scope_hash", .str scopeHash),
    ("schema_version", .str "complete.v1")] (tick 4)

theorem surveying_reachable {w : World} (h : Reachable Sample.env anyCall w) (area : String)
    (n : Nat) : Reachable Sample.env anyCall (surveying w area n) := by
  have hclaimed : Reachable Sample.env anyCall ((w.step Sample.env (.enqueue
      { datasourceId := "uk.offices", requestInstanceId := some (Nat.repr n) } fun _ => tick n)).step
      Sample.env (.claimNext "worker" (tick n) 3600)) := by
    refine .call (.call h ?_ ?_) ?_ ?_ <;> trivial
  have hstarted := hclaimed.callWith fun c (hc : ∃ r, claimReply r = some c ∧ _) =>
    (⟨returned_claim hc, trivial⟩ : Op.Held _ (.startRun c "worker" (tick n)) ∧ anyCall _ _)
  have hscoped := hstarted.callWith fun run (hr : ∃ r, runReply r = some run ∧ _) =>
    (⟨returned_run hr, trivial⟩ :
      Op.Held _ (.beginFullSnapshot run [("area", .str area)] (tick n)) ∧ anyCall _ _)
  unfold surveying
  exact hscoped.callWith fun _ hr => ⟨returned_run hr, trivial⟩

theorem surveyed_reachable {w : World} (h : Reachable Sample.env anyCall w) (area : String)
    (n : Nat) : Reachable Sample.env anyCall (surveyed w area n) := by
  have hsurveying := surveying_reachable h area n
  unfold surveyed
  split
  · next run hrun =>
    exact hsurveying.callWith fun _ _ => ⟨returned_run (World.returned_last hrun), trivial⟩
  · exact hsurveying

theorem bordering_reachable : Reachable Sample.env anyCall bordering :=
  surveying_reachable (surveyed_reachable (surveyed_reachable .refl "north" 1) "south" 2) "north" 3

end Sample

instance (w : World) (scopeHash : String) (s : StreamKey) :
    Decidable (w.lastPersistedOutside scopeHash s) :=
  inferInstanceAs (Decidable (∃ e ∈ _, ∃ r ∈ w.db.runs, _))

/-- The last survey is of the north, its end is accepted, and it deletes a key the survey of the
south was the last to persist. -/
theorem Sample.bordering_finalised : ∃ run ∈ bordering.last runReply,
    ∃ scopeHash ∈ bordering.last scopeReply, bordering.db.declared run.runId scopeHash ∧
      (((finalising run scopeHash).exec Sample.env).run bordering.db).1.toOption.isSome ∧
      ∃ g ∈ bordering.db.heads, bordering.lastPersistedOutside scopeHash g.stream ∧
        ∃ h ∈ (bordering.step Sample.env (finalising run scopeHash)).db.headOf? g.stream,
          h.revisionAction = .tombstone ∧ bordering.db.headOf? g.stream ≠ some h := by
  decide +kernel

end NanFung
