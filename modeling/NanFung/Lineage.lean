import NanFung.Digests
import NanFung.Spec.Silent
import NanFung.Streams

/-!
# Run counters and lineage

A run counts the observations it is linked to, link by link when it persists them and all at once
when it writes the tombstones of a full snapshot. `owed` is what the links are ahead of the counters
inside a transaction. A revision that a run did not write is linked to it only if it has the content,
and so the definition version, of the record the run persists.
-/

namespace NanFung

open Table Platform

variable {env : Env} {db db' : Db} {now : Time} {run : RunHandle} {texts : Set (List Char)}
  {owed owed' : String → Nat}

/-! ## Counters and links -/

/-- The number of `run_observation` rows of a run. -/
def Db.linkCount (db : Db) (runId : String) : Nat :=
  rowcount (fun l => l.runId = runId) db.runObservations

/-- The link has evidence, which is attached to its run. -/
def Db.Evidenced (db : Db) (l : RunObservationRow) : Prop :=
  ∃ e ∈ db.observationEvidence, e.runId = l.runId ∧ e.observationId = l.observationId ∧
    ∃ a ∈ db.runEvidence, a.runId = l.runId ∧ a.evidenceId = e.evidenceId

/-- The run and the revision of a link. -/
structure Db.Links (db : Db) (l : RunObservationRow) (r : RunRow) (o : RevisionRow) : Prop where
  run : r ∈ db.runs
  runId : r.runId = l.runId
  revision : o ∈ db.revisions
  observationId : o.observationId = l.observationId
  datasource : o.stream.datasourceId = r.datasourceId
  lane : o.stream.lane = r.lane
  version : o.definitionVersion = r.definitionVersion
  evidence : o.revisionAction = .upsert → db.Evidenced l

/-- The counters of the runs match their lineage. -/
structure Db.LineageMatches (db : Db) : Prop where
  counted : ∀ r ∈ db.runs, r.recordCount = db.linkCount r.runId ∧
    r.acceptedRecordCount = db.linkCount r.runId
  linked : ∀ l ∈ db.runObservations, ∃ r o, db.Links l r o

/-- The hash of an upsert is that of an envelope of its definition version. -/
def RevisionRow.Hashed (env : Env) (texts : Set (List Char)) (o : RevisionRow) : Prop :=
  o.revisionAction = .upsert → ∃ e : Envelope, e.definitionVersion = o.definitionVersion ∧
    ∃ text ∈ texts, env.platform.observationText e = .ok text ∧ env.platform.sha256 text = o.recordHash

/-- The invariant, with counters that lag behind their links. -/
structure LineageInv (env : Env) (texts : Set (List Char)) (owed : String → Nat) (db : Db) :
    Prop where
  counted : ∀ r ∈ db.runs, r.recordCount + owed r.runId = db.linkCount r.runId ∧
    r.acceptedRecordCount + owed r.runId = db.linkCount r.runId
  linked : ∀ l ∈ db.runObservations, ∃ r o, db.Links l r o
  hashed : ∀ o ∈ db.revisions, o.Hashed env texts

namespace LineageInv

theorem empty (env : Env) (texts : Set (List Char)) : LineageInv env texts (fun _ => 0) {} :=
  ⟨List.forall_mem_nil _, List.forall_mem_nil _, List.forall_mem_nil _⟩

/-- More revisions, links and evidence: what the links add is owed. -/
theorem extend (h : LineageInv env texts owed db) (links : List RunObservationRow)
    (revisions : List RevisionRow) (hruns : db'.runs = db.runs)
    (hlinks : db'.runObservations = db.runObservations ++ links)
    (hrevisions : db'.revisions = db.revisions ++ revisions)
    (hevidence : ∀ e ∈ db.observationEvidence, e ∈ db'.observationEvidence)
    (hattached : db'.runEvidence = db.runEvidence) (hnew : ∀ l ∈ links, ∃ r o, db'.Links l r o)
    (hhashed : ∀ o ∈ revisions, o.Hashed env texts)
    (howed : ∀ id, owed' id = owed id + rowcount (fun l => l.runId = id) links) :
    LineageInv env texts owed' db' := by
  have hcount : ∀ id, db'.linkCount id = db.linkCount id + rowcount (fun l => l.runId = id) links := by
    intro id
    rw [Db.linkCount, Db.linkCount, hlinks, rowcount, List.filter_append, List.length_append]
    rfl
  refine ⟨fun r hr => ?_, fun l hl => ?_, fun o ho => ?_⟩
  · rw [hruns] at hr
    obtain ⟨hrecords, haccepted⟩ := h.counted r hr
    rw [howed, hcount]
    omega
  · rw [hlinks] at hl
    rcases List.mem_append.mp hl with hl | hl
    · obtain ⟨r, o, hlinked⟩ := h.linked l hl
      refine ⟨r, o, { hlinked with
        run := hruns ▸ hlinked.run
        revision := hrevisions ▸ List.mem_append_left _ hlinked.revision
        evidence := fun hupsert => ?_ }⟩
      obtain ⟨e, he, hrun, hid, hrest⟩ := hlinked.evidence hupsert
      exact ⟨e, hevidence e he, hrun, hid, hattached ▸ hrest⟩
    · exact hnew l hl
  · rw [hrevisions] at ho
    exact (List.mem_append.mp ho).elim (h.hashed o) (hhashed o)

/-- Counting what a run owes. -/
theorem count (h : LineageInv env texts owed db) {runId : String} {n : Nat} {f : RunRow → RunRow}
    (howed : ∀ id, owed id = if id = runId then n else 0)
    (hf : ∀ r, (f r).tally = { r.tally with
      recordCount := r.recordCount + n
      acceptedRecordCount := r.acceptedRecordCount + n }) :
    LineageInv env texts (fun _ => 0)
      { db with runs := updateWhere (fun r => r.runId = runId) f db.runs } := by
  have hfields : ∀ r, (f r).runId = r.runId ∧ (f r).datasourceId = r.datasourceId ∧
      (f r).definitionVersion = r.definitionVersion ∧ (f r).lane = r.lane ∧
      (f r).recordCount = r.recordCount + n ∧ (f r).acceptedRecordCount = r.acceptedRecordCount + n :=
    fun r => by
      have heq := hf r
      simp only [RunRow.tally, RunTally.mk.injEq] at heq
      exact heq
  refine ⟨fun s hs => ?_, fun l hl => ?_, h.hashed⟩
  · rcases mem_updateWhere.mp hs with ⟨r, hr, hid, rfl⟩ | ⟨hs, hne⟩
    · obtain ⟨hrunId, -, -, -, hrecords, haccepted⟩ := hfields r
      have hcounted := h.counted r hr
      rw [howed, if_pos (of_decide_eq_true hid)] at hcounted
      rw [hrunId, hrecords, haccepted]
      exact hcounted
    · have hcounted := h.counted s hs
      rwa [howed, if_neg (of_decide_eq_false hne)] at hcounted
  · obtain ⟨r, o, hlinked⟩ := h.linked l hl
    by_cases hid : r.runId = runId
    · obtain ⟨hrunId, hds, hversion, hlane, -, -⟩ := hfields r
      exact ⟨f r, o, { hlinked with
        run := mem_updateWhere.mpr (Or.inl ⟨r, hlinked.run, decide_eq_true hid, rfl⟩)
        runId := hrunId.trans hlinked.runId
        datasource := hlinked.datasource.trans hds.symm
        lane := hlinked.lane.trans hlane.symm
        version := hlinked.version.trans hversion.symm }⟩
    · exact ⟨r, o, { hlinked with
        run := mem_updateWhere.mpr (Or.inr ⟨hlinked.run, decide_eq_false hid⟩) }⟩

/-- A transaction that writes no observation. -/
theorem silent (h : LineageInv env texts (fun _ => 0) db) (hq : Silent db db') (hinv : StoreInv env db)
    (hkeyed : Keyed RunRow.runId db'.runs) : LineageInv env texts (fun _ => 0) db' := by
  obtain ⟨started, hruns, hzero⟩ := hq.runs
  have hcount : ∀ id, db'.linkCount id = db.linkCount id := fun id => by
    rw [Db.linkCount, Db.linkCount, hq.links]
  -- a run that was started has no links yet
  have hunlinked : ∀ t ∈ started, db.linkCount t.runId = 0 := by
    intro t ht
    rw [Db.linkCount, rowcount, List.length_eq_zero_iff, List.filter_eq_nil_iff]
    intro l hl hid
    obtain ⟨r, hr, hrl⟩ := hinv.references.observation_run l hl
    have hids : (db.runs.map RunRow.tally).map RunTally.runId ++ started.map RunTally.runId =
        db'.runs.map RunRow.runId := by
      rw [← List.map_append, ← hruns, List.map_map]
      rfl
    have hdisjoint : List.Disjoint ((db.runs.map RunRow.tally).map RunTally.runId)
        (started.map RunTally.runId) := by
      apply List.disjoint_of_nodup_append
      rw [hids]
      exact hkeyed
    refine hdisjoint (List.mem_map_of_mem (List.mem_map_of_mem hr)) (List.mem_map.mpr ⟨t, ht, ?_⟩)
    exact (of_decide_eq_true hid).symm.trans hrl.symm
  refine ⟨fun s hs => ?_, fun l hl => ?_, fun o ho => h.hashed o (hq.revisions ▸ ho)⟩
  · have htally : s.tally ∈ db.runs.map RunRow.tally ++ started := hruns ▸ List.mem_map_of_mem hs
    rw [hcount]
    rcases List.mem_append.mp htally with hold | hnew
    · obtain ⟨r, hr, heq⟩ := List.mem_map.mp hold
      simp only [RunRow.tally, RunTally.mk.injEq] at heq
      obtain ⟨hid, -, -, -, hrecords, haccepted⟩ := heq
      rw [← hid, ← hrecords, ← haccepted]
      exact h.counted r hr
    · obtain ⟨hrecords, haccepted⟩ := hzero _ hnew
      have hnone : db.linkCount s.runId = 0 := hunlinked _ hnew
      rw [hnone]
      exact ⟨hrecords, haccepted⟩
  · obtain ⟨r, o, hlinked⟩ := h.linked l (hq.links ▸ hl)
    have htally : r.tally ∈ db'.runs.map RunRow.tally :=
      hruns ▸ List.mem_append_left _ (List.mem_map_of_mem hlinked.run)
    obtain ⟨s, hs, heq⟩ := List.mem_map.mp htally
    simp only [RunRow.tally, RunTally.mk.injEq] at heq
    obtain ⟨hid, hds, hversion, hlane, -, -⟩ := heq
    refine ⟨s, o, hs, hid.trans hlinked.runId, hq.revisions ▸ hlinked.revision,
      hlinked.observationId, hlinked.datasource.trans hds.symm, hlinked.lane.trans hlane.symm,
      hlinked.version.trans hversion.symm, fun hupsert => ?_⟩
    obtain ⟨e, he, hrun, hobs, a, ha, hrest⟩ := hlinked.evidence hupsert
    exact ⟨e, hq.evidence ▸ he, hrun, hobs, a, hq.attached a ha, hrest⟩

end LineageInv

/-! ## Persisting an observation -/

/-- The evidence rows of an observation: those there were and one for each item at least. -/
theorem linkEvidence_rows {runId id : String} {locator : Option (List (String × Json))}
    {items : List PersistedEvidence}
    (h : items.foldlM (linkEvidence env runId id locator) db = .ok db') :
    ∃ rows, db' = { db with observationEvidence := db.observationEvidence ++ rows } ∧
      ∀ item ∈ items, ∃ e ∈ db'.observationEvidence, e.runId = runId ∧ e.observationId = id ∧
        e.evidenceId = item.evidenceId := by
  induction items generalizing db with
  | nil =>
    simp only [List.foldlM_nil, pure_ok] at h
    exact ⟨[], by rw [← h, List.append_nil], fun _ hitem => by cases hitem⟩
  | cons item items ih =>
    simp only [List.foldlM_cons, linkEvidence, bind_ok] at h
    obtain ⟨db₁, ⟨value, -, hash, -, hrow⟩, h⟩ := h
    obtain ⟨rows, hrows, hitems⟩ := ih h
    split at hrow
    · -- the row was there
      next hex =>
      cases hrow
      obtain ⟨e, he, heq⟩ := hex
      simp only [Prod.mk.injEq] at heq
      refine ⟨rows, hrows, List.forall_mem_cons.mpr ⟨⟨e, ?_, heq.1, heq.2.1, heq.2.2.1⟩, hitems⟩⟩
      rw [hrows]
      exact List.mem_append_left _ he
    · cases hrow
      refine ⟨⟨runId, id, item.evidenceId, value, hash⟩ :: rows, ?_,
        List.forall_mem_cons.mpr ⟨⟨⟨runId, id, item.evidenceId, value, hash⟩, ?_, rfl, rfl, rfl⟩, hitems⟩⟩
      · rw [hrows, List.append_assoc]
        rfl
      · rw [hrows, List.append_assoc]
        exact List.mem_append_right _ List.mem_cons_self

/-- Linking a revision of the run's stream and version, with its evidence. -/
theorem LineageInv.link (h : LineageInv env texts (fun _ => 0) db) (hinv : db.Leases) {j : JobRow}
    {a : AttemptRow} {r : RunRow} {o : RevisionRow} {locator : Option (List (String × Json))}
    {items : List PersistedEvidence} (hactive : db.Active run j a r) (ho : o ∈ db.revisions)
    (hds : o.stream.datasourceId = run.datasourceId) (hlane : o.stream.lane = run.lane)
    (hversion : o.definitionVersion = run.definitionVersion) (hitems : items ≠ [])
    (hattached : ∀ item ∈ items, ∃ e ∈ db.runEvidence, e.runId = run.runId ∧
      e.evidenceId = item.evidenceId)
    (hlinks : items.foldlM (linkEvidence env run.runId o.observationId locator)
      (linkObservation run.runId o.observationId db) = .ok db') :
    LineageInv env texts (fun _ => 0) db' := by
  obtain ⟨rows, rfl, hrows⟩ := linkEvidence_rows hlinks
  by_cases hnew : ⟨run.runId, o.observationId⟩ ∈ db.runObservations
  · rw [linkObservation, if_pos hnew]
    exact h.extend [] [] rfl (List.append_nil _).symm (List.append_nil _).symm
      (fun e he => List.mem_append_left _ he) rfl (List.forall_mem_nil _) (List.forall_mem_nil _)
      fun _ => rfl
  · rw [linkObservation_new hinv hactive hnew] at hrows ⊢
    have hlinked : LineageInv env texts (fun id => if id = run.runId then 1 else 0) { db with
        runObservations := db.runObservations ++ [⟨run.runId, o.observationId⟩]
        observationEvidence := db.observationEvidence ++ rows } := by
      refine h.extend [⟨run.runId, o.observationId⟩] [] rfl rfl (List.append_nil _).symm
        (fun e he => List.mem_append_left _ he) rfl ?_ (List.forall_mem_nil _) fun id => ?_
      · rintro l hl
        obtain rfl := List.mem_singleton.mp hl
        refine ⟨r, o, hactive.run, hactive.runId, ho, rfl, hds.trans hactive.runDatasource.symm,
          hlane.trans hactive.runLane.symm, hversion.trans hactive.runVersion.symm, fun _ => ?_⟩
        obtain ⟨item, hitem⟩ := List.exists_mem_of_ne_nil items hitems
        obtain ⟨e, he, hrun, hid, hevidence⟩ := hrows item hitem
        obtain ⟨b, hb, hbrun, hbid⟩ := hattached item hitem
        exact ⟨e, he, hrun, hid, b, hb, hbrun, hbid.trans hevidence.symm⟩
      · by_cases hid : id = run.runId
        · simp [rowcount, hid]
        · simp [rowcount, hid, Ne.symm hid]
    exact hlinked.count (fun _ => rfl) fun _ => rfl

/-- `persist_observation` keeps the invariant, if hashed texts do not collide. -/
theorem LineageInv.persistObservation (h : LineageInv env texts (fun _ => 0) db)
    (hinv : StoreInv env db) (hstreams : ∀ s, StreamInv db s) (hok : RunOk db run)
    (hsha : Set.InjOn env.platform.sha256 texts) {args : ObservationArgs} {id : String}
    (htexts : ∀ definition text, env.registry.lookup env.platform run.datasourceId
      (some run.definitionVersion) = .ok definition →
      env.platform.observationText (upsertEnvelope run definition args) = .ok text → text ∈ texts)
    (hcall : NanFung.persistObservation env run args now db = .ok (id, db')) :
    LineageInv env texts (fun _ => 0) db' := by
  simp only [NanFung.persistObservation, persistObservationTx, bind_ok, require_ok] at hcall
  obtain ⟨definition, hlookup, -, hitems, keyHash, -, recordHash, hhash, ⟨j, policy⟩, hrun, -,
    hattached, -, -, ⟨id₁, db₁⟩, hrevise, db₂, hlinks, hcall⟩ := hcall
  simp only [Except.ok.injEq, Prod.mk.injEq] at hcall
  obtain ⟨-, rfl⟩ := hcall
  obtain ⟨a, r, hactive⟩ := requireRunningRun_active hinv.leases hok hrun
  obtain ⟨text, htext, hdigest⟩ := observationHash_ok hhash
  have hmem : text ∈ texts := htexts definition text hlookup htext
  rcases reviseStream_ok hrevise with ⟨rfl, g, hg, rfl, hghash, hgaction⟩ |
    ⟨o, hstream, rfl, hohash, hversion, haction, -, -, -, -, rfl⟩
  · -- the head's revision has the hash of the record, so it has its version
    have hmatches := (hstreams (streamOf run definition keyHash)).head
    rw [Db.headOf?, hg] at hmatches
    cases hlast : (db₁.revisionsOf (streamOf run definition keyHash)).getLast? with
    | none =>
      rw [hlast] at hmatches
      exact hmatches.elim
    | some o =>
      rw [hlast] at hmatches
      obtain ⟨hid, hhashes, -, hactions⟩ : g.Of o := hmatches
      obtain ⟨ho, hstream⟩ := List.mem_filter.mp (List.mem_of_getLast? hlast)
      have hstream : o.stream = streamOf run definition keyHash := of_decide_eq_true hstream
      obtain ⟨e, hversion, text', hmem', htext', hdigest'⟩ :=
        h.hashed o ho (hactions.symm.trans hgaction)
      obtain rfl : text' = text := by
        apply hsha hmem' hmem
        rw [hdigest', hdigest, ← hhashes, hghash]
      have hsame := definitionVersion_eq_of_observationText htext' htext
      rw [hid] at hlinks
      exact h.link hinv.leases hactive ho (by rw [hstream]; rfl) (by rw [hstream]; rfl)
        (hversion.symm.trans hsame) hitems hattached hlinks
  · have hrevised : LineageInv env texts (fun _ => 0) { db with
        revisions := db.revisions ++ [o]
        heads := upsertHead (headOf o now) db.heads
        drawn := db.drawn + 1 } := by
      refine h.extend [] [o] rfl (List.append_nil _).symm rfl (fun _ he => he) rfl
        (List.forall_mem_nil _) ?_ fun _ => rfl
      rintro q hq -
      obtain rfl := List.mem_singleton.mp hq
      exact ⟨_, hversion.symm, text, hmem, htext, hdigest.trans hohash.symm⟩
    refine hrevised.link hinv.leases (hactive.of_eq rfl rfl hactive.run)
      (List.mem_append_right _ (List.mem_singleton_self o)) ?_ ?_ hversion hitems hattached hlinks
    · rw [hstream]
      rfl
    · rw [hstream]
      rfl

/-! ## Finalising a snapshot -/

/-- A tombstone is linked to its run, which owes one more. -/
theorem LineageInv.writeTombstone (h : LineageInv env texts owed db) {r : RunRow} (hr : r ∈ db.runs)
    (hrun : r.runId = run.runId ∧ r.datasourceId = run.datasourceId ∧ r.lane = run.lane ∧
      r.definitionVersion = run.definitionVersion)
    {definition : DatasourceDefinition} {scopeHash evidenceId : String} {ids : List String}
    {row : HeadRow × RevisionRow} {acc' : List String × Db}
    (hstep : NanFung.writeTombstone env run definition scopeHash evidenceId now (ids, db) row =
      .ok acc') :
    LineageInv env texts (fun id => owed id + if id = run.runId then 1 else 0) acc'.2 ∧
      acc'.2.runs = db.runs ∧ acc'.1.length = ids.length + 1 := by
  simp only [NanFung.writeTombstone, bind_ok, Except.ok.injEq] at hstep
  obtain ⟨digest, -, db₁, hins, locator, -, hash, -, rfl⟩ := hstep
  obtain ⟨-, -, rfl⟩ := insertRevision_ok hins
  refine ⟨?_, rfl, List.length_append⟩
  refine h.extend [⟨run.runId, _⟩] [_] rfl rfl rfl (fun e he => List.mem_append_left _ he) rfl ?_ ?_
    fun id => ?_
  · rintro l hl
    obtain rfl := List.mem_singleton.mp hl
    obtain ⟨hid, hds, hlane, hversion⟩ := hrun
    exact ⟨r, _, hr, hid, List.mem_append_right _ (List.mem_singleton_self _), rfl, hds.symm,
      hlane.symm, hversion.symm, fun h => by cases h⟩
  · rintro o ho haction
    obtain rfl := List.mem_singleton.mp ho
    cases haction
  · by_cases hid : id = run.runId
    · simp [rowcount, hid]
    · simp [rowcount, hid, Ne.symm hid]

theorem LineageInv.writeTombstones (h : LineageInv env texts owed db) {r : RunRow} (hr : r ∈ db.runs)
    (hrun : r.runId = run.runId ∧ r.datasourceId = run.datasourceId ∧ r.lane = run.lane ∧
      r.definitionVersion = run.definitionVersion)
    {definition : DatasourceDefinition} {scopeHash evidenceId : String} {ids : List String}
    {rows : List (HeadRow × RevisionRow)} {acc' : List String × Db}
    (hloop : rows.foldlM (NanFung.writeTombstone env run definition scopeHash evidenceId now)
      (ids, db) = .ok acc') (howed : ∀ id, owed id = if id = run.runId then ids.length else 0) :
    LineageInv env texts (fun id => if id = run.runId then acc'.1.length else 0) acc'.2 ∧
      acc'.2.runs = db.runs := by
  induction rows generalizing db ids owed with
  | nil =>
    simp only [List.foldlM_nil, pure_ok] at hloop
    subst hloop
    exact ⟨funext howed ▸ h, rfl⟩
  | cons row rows ih =>
    simp only [List.foldlM_cons, bind_ok] at hloop
    obtain ⟨⟨ids₁, db₁⟩, hstep, hloop⟩ := hloop
    obtain ⟨h₁, hruns, hlength⟩ := h.writeTombstone hr hrun hstep
    obtain ⟨h₂, hruns₂⟩ := ih h₁ (hruns ▸ hr) hloop fun id => by
      rw [howed]
      dsimp only at hlength
      split <;> omega
    exact ⟨h₂, hruns₂.trans hruns⟩

/-- `finalize_full_snapshot` counts its tombstones. -/
theorem LineageInv.finalizeFullSnapshot (h : LineageInv env texts (fun _ => 0) db)
    (hinv : StoreInv env db) (hok : RunOk db run) {proof : List (String × Json)} {ids : List String}
    (hcall : NanFung.finalizeFullSnapshot env run proof now db = .ok (ids, db')) :
    LineageInv env texts (fun _ => 0) db' := by
  simp only [NanFung.finalizeFullSnapshot, bind_ok, Except.ok.injEq, Prod.mk.injEq] at hcall
  obtain ⟨definition, -, -, -, -, -, ⟨j, policy⟩, hrun, scopeHash, -, -, -, evidenceId, -,
    ⟨ids', db₁⟩, hloop, scope, -, rfl, rfl⟩ := hcall
  obtain ⟨a, r, hactive⟩ := requireRunningRun_active hinv.leases hok hrun
  obtain ⟨h₁, hruns⟩ := h.writeTombstones hactive.run
    ⟨hactive.runId, hactive.runDatasource, hactive.runLane, hactive.runVersion⟩ hloop fun id => by
      rw [List.length_nil, ite_self]
  have hkeyed : Keyed RunRow.runId db₁.runs := hruns ▸ hinv.leases.runs_keyed
  rw [hkeyed.updateWhere_eq_key (hruns ▸ hactive.run)
    (by simp [hactive.runId, hactive.runRunning]) (by simp +contextual [hactive.runId]) rfl,
    hactive.runId]
  exact h₁.count (fun _ => rfl) fun _ => rfl

/-! ## Calls -/

/-- The invariants that a call is shown to keep. -/
structure Recorded (env : Env) (texts : Set (List Char)) (db : Db) : Prop where
  store : StoreInv env db
  streams : ∀ s, StreamInv db s
  lineage : LineageInv env texts (fun _ => 0) db

/-- How calls move the store. -/
def Records (env : Env) (texts : Set (List Char)) (db db' : Db) : Prop :=
  Effects env Guard.any db db' ∧ (Recorded env texts db → Recorded env texts db')

instance : Std.Refl (Records env texts) := ⟨fun _ => ⟨Relation.ReflTransGen.refl, id⟩⟩

instance : IsTrans Db (Records env texts) :=
  ⟨fun _ _ _ h h' => ⟨h.1.trans h'.1, h'.2 ∘ h.2⟩⟩

/-- A chain of effects that keeps the lineage. -/
theorem Effects.records (he : Effects env Guard.any db db')
    (h : Recorded env texts db → StoreInv env db' → LineageInv env texts (fun _ => 0) db') :
    Records env texts db db' := by
  refine ⟨he, fun hr => ?_⟩
  have hstore := he.storeInv hr.store
  exact ⟨hstore, he.streams hr.store hr.streams, h hr hstore⟩

/-- A procedure that writes no observation. -/
theorem Silently.records {α : Type} {p : Proc Db StoreError α} {P : Db → Prop} {Q : α → Db → Prop}
    (hq : Silently p) (h : Proc.Spec (Effects env Guard.any) P p Q) :
    Proc.Spec (Records env texts) P p Q := by
  intro s hs
  refine ⟨(h s hs).1.records fun hr hstore => ?_, (h s hs).2⟩
  exact hr.lineage.silent (hq s trivial).1 hr.store hstore.leases.runs_keyed

/-- The envelopes whose upserts a call may hash. -/
inductive Op.Hashes (env : Env) : Op → Envelope → Prop where
  | observation {run : RunHandle} {args : ObservationArgs} {now : Time}
      {definition : DatasourceDefinition}
      (lookup : env.registry.lookup env.platform run.datasourceId (some run.definitionVersion) =
        .ok definition) :
      Hashes env (.persistObservation run args now) (upsertEnvelope run definition args)
  | mapping {args : ManualImportArgs} {clock : Nat → Time} {run : RunHandle}
      {captured definition : DatasourceDefinition} {evidence : PersistedEvidence}
      {mapping : SubmarketMapping}
      (published : env.publishArtifact captured (.bytes args.body) args.mediaType =
        .ok evidence.artifact)
      (parsed : env.submarketMapping evidence.artifact = .ok mapping)
      (lookup : env.registry.lookup env.platform run.datasourceId (some run.definitionVersion) =
        .ok definition) :
      Hashes env (.importManualEvidence args clock)
        (upsertEnvelope run definition (submarketObservation mapping evidence))

/-- The texts of these envelopes. -/
def Op.observationTexts (env : Env) (op : Op) : Set (List Char) :=
  {text | ∃ e, op.Hashes env e ∧ env.platform.observationText e = .ok text}

theorem persistObservation_records (hsha : Set.InjOn env.platform.sha256 texts)
    {args : ObservationArgs} {id : String}
    (htexts : ∀ definition text, env.registry.lookup env.platform run.datasourceId
      (some run.definitionVersion) = .ok definition →
      env.platform.observationText (upsertEnvelope run definition args) = .ok text → text ∈ texts)
    (hheld : Holding env run db) (h : persistObservation env run args now db = .ok (id, db')) :
    Records env texts db db' := by
  refine (persistObservation_effects trivial hheld.1 hheld.2 h).records fun hr _ => ?_
  exact hr.lineage.persistObservation hheld.1 hr.streams hheld.2 hsha htexts h

/-- The artifact of a capture is that of its body. -/
theorem captureManualEvidence_ok {args : EvidenceArgs} {body : List UInt8} {clock : Nat → Time}
    {e : PersistedEvidence} (hbody : args.body = .bytes body)
    (h : ((captureManualEvidence env run args clock).run db).1 = .ok e) :
    ∃ definition, env.publishArtifact definition (.bytes body) args.mediaType = .ok e.artifact := by
  rw [captureManualEvidence, Proc.run_tryCatch, Proc.run_atomically] at h
  cases hcall : persistEvidence env run args (clock 4) db with
  | error error =>
    -- the handler raises the error again
    rw [hcall] at h
    dsimp only at h
    rw [Proc.run_bind] at h
    split at h
    · rw [Proc.run_throw] at h
      exact nomatch h
    · exact nomatch h
  | ok result =>
    obtain ⟨e', db'⟩ := result
    rw [hcall] at h
    obtain rfl : e' = e := Except.ok.inj h
    simp only [persistEvidence, persistEvidenceTx, effectiveMediaType, hbody, bind_ok,
      Except.ok.injEq, Prod.mk.injEq] at hcall
    obtain ⟨⟨definition, binding, retention⟩, -, _, rfl, artifact, hpublish, _, -, _, -, _, -, -, -, -,
      -, rfl, -⟩ := hcall
    exact ⟨definition, hpublish⟩

theorem captureSubmarketMapping_records {evidence : PersistedEvidence} {clock : Nat → Time}
    (hsha : Set.InjOn env.platform.sha256 texts)
    (htexts : ∀ definition mapping text, env.submarketMapping evidence.artifact = .ok mapping →
      env.registry.lookup env.platform run.datasourceId (some run.definitionVersion) = .ok definition →
      env.platform.observationText (upsertEnvelope run definition
        (submarketObservation mapping evidence)) = .ok text → text ∈ texts) :
    Proc.Spec (Records env texts) (Holding env run) (captureSubmarketMapping env run evidence clock)
      fun _ => Holding env run := by
  unfold captureSubmarketMapping
  split
  · next mapping hparsed =>
    refine Proc.Spec.bind (Q := fun _ => Holding env run) ?_ fun _ => Proc.Spec.pure _ fun _ hs => hs
    refine Proc.Spec.atomically fun s id s' hs h => ?_
    have hrecords := persistObservation_records hsha
      (fun definition text hlookup => htexts definition mapping text hparsed hlookup) hs h
    exact ⟨hrecords, hs.mono hrecords.1⟩
  · refine Proc.Spec.bind ((Silently.atomically Silent.finishRun).records
      (holding_spec fun _ _ _ hs h => finishRun_effects trivial hs.1 hs.2 h)) fun _ => ?_
    exact Proc.Spec.throw _

theorem importManualEvidence_records {args : ManualImportArgs} {clock : Nat → Time}
    (hsha : Set.InjOn env.platform.sha256 texts)
    (htexts : (Op.importManualEvidence args clock).observationTexts env ⊆ texts) :
    Proc.Spec (Records env texts) (StoreInv env) (importManualEvidence env args clock)
      fun _ => StoreInv env := by
  refine Proc.Spec.bind (Proc.Spec.query fun s _ hs _ => hs) fun attestation => ?_
  refine Proc.Spec.bind (Proc.Spec.query fun s _ hs _ => hs) fun definition => ?_
  refine Proc.Spec.bind (Silently.draw.records
    ((draw_spec (t := clock 0) trivial).and_rel fun s s' hs he => he.storeInv hs)) fun id => ?_
  refine Proc.Spec.bind (Silently.enqueue.records ((enqueue_effects fun _ => trivial).weaken
    (fun s hs => hs.2) fun _ _ hs => hs)) fun queued => ?_
  refine Proc.Spec.bind (Silently.claimJob.records ((claimJob_spec trivial False "" 0).weaken
    (fun s hs => ⟨hs, False.elim⟩) fun _ _ hs => hs)) fun claim => ?_
  match claim with
  | none => exact Proc.Spec.throw _
  | some claim =>
    refine Proc.Spec.bind (Q := fun run s => Holding env run s) ?_ fun run => ?_
    · refine (Silently.atomically Silent.startRun).records (Proc.Spec.atomically fun s run s' hs h => ?_)
      obtain ⟨he, hrun, -, -⟩ := startRun_effects (G := Guard.any) trivial hs.1 (hs.2 claim rfl).1 h
      exact ⟨he, he.storeInv hs.1, hrun⟩
    refine Proc.Spec.bind (Q := fun e s => Holding env run s ∧ ∃ captured,
      env.publishArtifact captured (.bytes args.body) args.mediaType = .ok e.artifact) ?_
      fun evidence => ?_
    · exact (Silently.captureManualEvidence.records
        (captureManualEvidence_effects fun _ => trivial)).and_result fun _ _ he =>
          captureManualEvidence_ok rfl he
    refine Proc.Spec.bind (Q := fun _ => Holding env run) ?_ fun _ => ?_
    · unfold importSubmarketMapping
      split
      · by_cases hpublished : ∃ captured,
          env.publishArtifact captured (.bytes args.body) args.mediaType = .ok evidence.artifact
        · refine (captureSubmarketMapping_records hsha fun definition mapping text hparsed hlookup
            htext => ?_).weaken (fun s hs => hs.1) fun _ _ hs => hs
          obtain ⟨captured, hcaptured⟩ := hpublished
          exact htexts ⟨_, .mapping hcaptured hparsed hlookup, htext⟩
        · exact fun s hs => absurd hs.2 hpublished
      · exact Proc.Spec.pure _ fun _ hs => hs.1
    refine Proc.Spec.bind (Q := fun _ => Holding env run) ?_ fun reviewId => ?_
    · apply Silently.reviewManualImport.records
      unfold reviewManualImport
      split
      · refine Proc.Spec.bind (holding_spec fun _ _ _ hs h =>
          openReview_effects trivial hs.1 hs.2 False.elim h) fun _ => ?_
        exact Proc.Spec.pure _ fun _ hs => hs
      · exact Proc.Spec.pure _ fun _ hs => hs
    refine Proc.Spec.bind ((Silently.atomically Silent.finishRun).records (holding_spec fun _ _ _ hs h =>
      finishRun_effects trivial hs.1 hs.2 h)) fun _ => ?_
    exact Proc.Spec.pure _ fun _ hs => hs.1

/-- All other calls write no observation. -/
def Op.Observes : Op → Prop
  | .persistObservation _ _ _ | .finalizeFullSnapshot _ _ _ | .importManualEvidence _ _ => True
  | _ => False

theorem Op.silently {op : Op} (h : ¬ op.Observes) : Silently (op.exec env) := by
  cases op with
  | persistObservation | finalizeFullSnapshot | importManualEvidence => exact absurd trivial h
  | syncRegistry => exact (Silently.atomically Silent.syncRegistry).reply
  | enqueue => exact Silently.enqueue.reply
  | enqueueBackfill => exact Silently.enqueueBackfill.reply
  | enqueueProjectionDelivery => exact (Silently.atomically Silent.enqueueProjectionDelivery).reply
  | retry => exact Silently.retry.reply
  | recoverExpired => exact (Silently.atomically Silent.recoverExpired).reply
  | claimNext => exact Silently.claimNext.reply
  | claimJob => exact Silently.claimJob.reply
  | startRun => exact (Silently.atomically Silent.startRun).reply
  | startSystemJob => exact (Silently.atomically Silent.startSystemJob).reply
  | heartbeat => exact (Silently.atomically Silent.heartbeat).reply
  | persistEvidence => exact (Silently.atomically Silent.persistEvidence).reply
  | beginFullSnapshot => exact (Silently.atomically Silent.beginFullSnapshot).reply
  | finishRun => exact (Silently.atomically Silent.finishRun).reply
  | finishSystemJob => exact (Silently.atomically Silent.finishSystemJob).reply
  | cancel => exact (Silently.atomically Silent.cancel).reply
  | decideReview => exact (Silently.atomically Silent.decideReview).reply
  | promoteReview => exact (Silently.atomically Silent.promoteReview).reply
  | revokePromotion => exact (Silently.atomically Silent.revokePromotion).reply
  | submitAgentRefresh args clock stops =>
    cases stops with
    | false => exact Silently.submitAgentRefresh.reply
    | true => exact Silently.prepareRefresh.reply
  | schedulerTick => exact Silently.schedulerTick.reply

/-- Every call keeps the lineage, if hashed texts do not collide. -/
theorem Op.records {op : Op} (hsha : Set.InjOn env.platform.sha256 texts)
    (htexts : op.observationTexts env ⊆ texts) :
    Proc.Spec (Records env texts) (fun s => StoreInv env s ∧ op.Ready env s) (op.exec env)
      fun _ _ => True := by
  by_cases hobserves : op.Observes
  swap
  · refine (Op.silently hobserves).records ?_
    exact (op.exec_spec.weaken (fun s hs => ⟨hs.1, hs.2, op.respects_any s⟩) fun _ _ _ => trivial)
  cases op with
  | persistObservation run args now =>
    refine Proc.Spec.bind (Q := fun _ _ => True) ?_ fun _ => Proc.Spec.pure _ fun _ _ => trivial
    refine Proc.Spec.atomically fun s id s' hs h => ⟨?_, trivial⟩
    exact persistObservation_records hsha
      (fun _ _ hlookup htext => htexts ⟨_, .observation hlookup, htext⟩) hs h
  | finalizeFullSnapshot run proof now =>
    refine Proc.Spec.bind (Q := fun _ _ => True) ?_ fun _ => Proc.Spec.pure _ fun _ _ => trivial
    refine Proc.Spec.atomically fun s ids s' hs h => ⟨?_, trivial⟩
    refine (finalizeFullSnapshot_ok trivial hs.1 hs.2 h).1.records fun hr _ => ?_
    exact hr.lineage.finalizeFullSnapshot hs.1 hs.2 h
  | importManualEvidence args clock =>
    refine Proc.Spec.bind ((importManualEvidence_records hsha htexts).weaken (fun s hs => hs.1)
      fun _ _ hs => hs) fun _ => Proc.Spec.pure _ fun _ _ => trivial
  | _ => exact hobserves.elim

/-! ## Histories -/

/-- The texts that the upserts of a history may have hashed. -/
def World.observationTexts (env : Env) (w : World) : Set (List Char) :=
  {text | ∃ call ∈ w.history, text ∈ call.1.observationTexts env}

theorem Continues.recorded (hu : Function.Injective env.platform.uuid)
    (hsha : Set.InjOn env.platform.sha256 texts) {allowed : World → Op → Prop} {w : World}
    (h : Reachable env allowed w) (htexts : w.observationTexts env ⊆ texts) :
    Recorded env texts w.db := by
  induction h with
  | refl => exact ⟨StoreInv.empty env, StreamInv.empty, LineageInv.empty env texts⟩
  | @call w op before held permitted ih =>
    have hsound := Continues.sound hu before (World.Sound.init env)
    have hbefore : w.observationTexts env ⊆ texts := by
      rintro text ⟨call, hcall, htext⟩
      exact htexts ⟨call, List.mem_append_left _ hcall, htext⟩
    have hop : op.observationTexts env ⊆ texts := fun text htext =>
      htexts ⟨_, List.mem_append_right _ (List.mem_singleton_self _), htext⟩
    exact ((Op.records hsha hop) w.db ⟨hsound.store, hsound.ready held⟩).1.2 (ih hbefore)

/-- In every reachable store, the counters of the runs match their lineage, unless two of the texts
that were hashed collide. -/
theorem counters_match_lineage (hu : Function.Injective env.platform.uuid) {w : World}
    (h : Reachable env anyCall w)
    (hsha : Set.InjOn env.platform.sha256 (w.observationTexts env)) : w.db.LineageMatches := by
  obtain ⟨hcounted, hlinked, -⟩ := (Continues.recorded hu hsha h subset_rfl).lineage
  exact ⟨hcounted, hlinked⟩

namespace Sample

def rentArgs (evidence : List PersistedEvidence) : ObservationArgs where
  recordKey := ["rent", "E1"]
  payload := [("value", .int 7)]
  recordType := "metric"
  category := "rents"
  evidence := evidence

/-- A later run finds the rent that the promoted run has found. -/
def rerun : World :=
  let queued := promoted.step Sample.env (.enqueue
    { datasourceId := "uk.rents", requestInstanceId := some "again" } fun _ => tick 7)
  let claimed := queued.step Sample.env (.claimNext "worker" (tick 8) 60)
  let started := claimed.callWith Sample.env claimReply fun c => .startRun c "worker" (tick 9)
  let captured := started.callWith Sample.env runReply fun run => .persistEvidence run {
    body := .stored ⟨"artifact", none⟩
    request := [("method", .str "GET"), ("url", .str "https://example.org/rents")]
    response := [("final_url", .str "https://example.org/rents"), ("status", .int 200)] } (tick 10)
  match captured.last runReply with
  | some run => captured.callWith Sample.env evidenceReply fun e =>
    .persistObservation run (rentArgs [e]) (tick 11)
  | none => captured

theorem rerun_reachable : Reachable Sample.env anyCall rerun := by
  have hclaimed : Reachable Sample.env anyCall ((promoted.step Sample.env (.enqueue
      { datasourceId := "uk.rents", requestInstanceId := some "again" } fun _ => tick 7)).step
      Sample.env (.claimNext "worker" (tick 8) 60)) := by
    refine .call (.call promoted_reachable ?_ ?_) ?_ ?_ <;> trivial
  have hstarted := hclaimed.callWith fun c (hc : ∃ r, claimReply r = some c ∧ _) =>
    (⟨returned_claim hc, trivial⟩ : Op.Held _ (.startRun c "worker" (tick 9)) ∧ anyCall _ _)
  have hcaptured := hstarted.callWith fun run (hr : ∃ r, runReply r = some run ∧ _) =>
    (⟨returned_run hr, trivial⟩ : Op.Held _ (.persistEvidence run {
      body := .stored ⟨"artifact", none⟩
      request := [("method", .str "GET"), ("url", .str "https://example.org/rents")]
      response := [("final_url", .str "https://example.org/rents"), ("status", .int 200)] }
      (tick 10)) ∧ anyCall _ _)
  unfold rerun
  dsimp only
  split
  · next run hrun =>
    exact hcaptured.callWith fun _ _ => ⟨returned_run (World.returned_last hrun), trivial⟩
  · exact hcaptured

/-- The members of the envelope that both runs hash. -/
def rentMembers : List (String × Json) :=
  (upsertEnvelope ⟨"", "", "", "", "uk.rents", 1, .productionIngestion⟩ rents (rentArgs [])).members

/-- A call hashes no other envelope. -/
def hashesRent : Op → Bool
  | .persistObservation run args _ => run.datasourceId = "uk.rents" ∧ run.definitionVersion = 1 ∧
    (upsertEnvelope run rents args).members = rentMembers
  | .importManualEvidence _ _ => false
  | _ => true

theorem members_of_hashesRent {op : Op} (h : hashesRent op = true) {e : Envelope}
    (he : op.Hashes Sample.env e) : e.members = rentMembers := by
  cases he with
  | @observation run args now definition lookup =>
    simp only [hashesRent, decide_eq_true_eq] at h
    obtain ⟨hds, hversion, hmembers⟩ := h
    rw [hds, hversion] at lookup
    have hrents : registry.lookup platform "uk.rents" (some 1) = .ok rents := rfl
    obtain rfl := Except.ok.inj (hrents.symm.trans lookup)
    exact hmembers
  | mapping => exact nomatch h

theorem rerun_texts : (rerun.observationTexts Sample.env).Subsingleton := by
  have hall : rerun.history.all (fun call => hashesRent call.1) = true := by decide +kernel
  have htext : ∀ text ∈ rerun.observationTexts Sample.env,
      (platform.canonicalJson (.obj rentMembers)).map ("nan-fung/observation/v1\x00".toList ++ ·) =
        .ok text := by
    rintro text ⟨call, hcall, e, he, htext⟩
    rw [← members_of_hashesRent (List.all_eq_true.mp hall call hcall) he]
    exact htext
  intro text hmem text' hmem'
  exact Except.ok.inj ((htext text hmem).symm.trans (htext text' hmem'))

end Sample

theorem counters_match_lineage_rerun : Sample.rerun.db.LineageMatches :=
  counters_match_lineage Sample.uuid_injective Sample.rerun_reachable
    (Sample.rerun_texts.injOn _)

end NanFung
