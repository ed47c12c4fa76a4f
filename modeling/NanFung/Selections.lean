import NanFung.Promotion
import NanFung.Streams

/-!
# Two selections of the canonical value

The view `canonical_latest_v1` and the query `_CANONICAL_AS_OF_SQL` rank the same candidates when the
query's anchor is later than everything in the store. Both put the newest revision first. Among the
runs that carry it the view takes the one that completed last, the query the one that became
available last, which a manual promotion long after completion may be another one.
-/

namespace NanFung

open Table

variable {env : Env} {T : Time} {db : Db}

/-! ## The candidates -/

namespace Db

variable (db : Db)

/-- `canonical_event_v1`. -/
def canonicalEvents : List CanonicalEvent := db.runObservations.filterMap db.canonicalEventRow

/-- No timestamp of an attempt, a decision or an artifact is later than an instant. -/
structure SettledBy (T : Time) : Prop where
  attempts : ∀ a ∈ db.attempts, ∀ c ∈ a.completedAt, c ≤ T
  promotions : ∀ p ∈ db.promotions, p.decisionAt ≤ T
  evidence : ∀ e ∈ db.evidence, e.retrievedAt ≤ T

instance (T : Time) : Decidable (db.SettledBy T) :=
  decidable_of_iff ((∀ a ∈ db.attempts, ∀ c ∈ a.completedAt, c ≤ T) ∧
      (∀ p ∈ db.promotions, p.decisionAt ≤ T) ∧ ∀ e ∈ db.evidence, e.retrievedAt ≤ T)
    ⟨fun ⟨ha, hp, he⟩ => ⟨ha, hp, he⟩, fun ⟨ha, hp, he⟩ => ⟨ha, hp, he⟩⟩

end Db

/-- What a link needs for a row of the view. -/
theorem mem_canonicalEvents {e : CanonicalEvent} : e ∈ db.canonicalEvents ↔
    ∃ l ∈ db.runObservations, ∃ r, db.runs.find? (fun r => r.runId = l.runId) = some r ∧
      ∃ a, db.attempts.find? (fun a => a.attemptId = r.attemptId) = some a ∧
      ∃ c, a.completedAt = some c ∧
      ∃ o, db.revisions.find? (fun o => o.observationId = l.observationId) = some o ∧
      ∃ p, db.latestPromotion? l.runId = some p ∧
        (r.lane = .productionIngestion ∧ a.status = .succeeded ∧
          o.stream.lane = .productionIngestion ∧ p.decision = .approved) ∧
        e = ⟨l.runId, max c p.decisionAt, c, r.definitionVersion, r.definitionHash, o⟩ := by
  simp only [Db.canonicalEvents, List.mem_filterMap, Db.canonicalEventRow, Option.bind_eq_bind,
    Option.bind_eq_some_iff, Option.ite_none_right_eq_some, Option.some.injEq]
  constructor
  · rintro ⟨l, hl, r, hr, a, ha, c, hc, o, ho, p, hp, hcond, rfl⟩
    exact ⟨l, hl, r, hr, a, ha, c, hc, o, ho, p, hp, hcond, rfl⟩
  · rintro ⟨l, hl, r, hr, a, ha, c, hc, o, ho, p, hp, hcond, rfl⟩
    exact ⟨l, hl, r, hr, a, ha, c, hc, o, ho, p, hp, hcond, rfl⟩

/-- A row of the view is determined by its run and its observation. -/
theorem canonicalEvent_ext {e f : CanonicalEvent} (he : e ∈ db.canonicalEvents)
    (hf : f ∈ db.canonicalEvents) (hrun : e.canonicalRunId = f.canonicalRunId)
    (hid : e.revision.observationId = f.revision.observationId) : e = f := by
  obtain ⟨l, -, r, hr, a, ha, c, hc, o, ho, p, hp, -, rfl⟩ := mem_canonicalEvents.mp he
  obtain ⟨l', -, r', hr', a', ha', c', hc', o', ho', p', hp', -, rfl⟩ := mem_canonicalEvents.mp hf
  change l.runId = l'.runId at hrun
  change o.observationId = o'.observationId at hid
  have hlo : o.observationId = l.observationId := by simpa using List.find?_some ho
  have hlo' : o'.observationId = l'.observationId := by simpa using List.find?_some ho'
  rw [← hrun] at hr' hp'
  rw [← hlo', ← hid, hlo] at ho'
  obtain rfl : r = r' := Option.some.inj (hr.symm.trans hr')
  obtain rfl : a = a' := Option.some.inj (ha.symm.trans ha')
  obtain rfl : c = c' := Option.some.inj (hc.symm.trans hc')
  obtain rfl : o = o' := Option.some.inj (ho.symm.trans ho')
  obtain rfl : p = p' := Option.some.inj (hp.symm.trans hp')
  rw [hrun]

/-- The decision in force at an anchor later than all decisions is the current one. -/
theorem Db.SettledBy.decisionAt (h : db.SettledBy T) (runId : String) :
    db.decisionAt T runId = db.latestPromotion? runId := by
  unfold Db.decisionAt Db.latestPromotion?
  rw [List.filter_congr]
  intro p hp
  have hle := h.promotions p hp
  simp [hle]

/-- At an anchor later than everything in the store the query ranks the rows of the view. -/
theorem mem_eligible (h : db.SettledBy T) {c : CanonicalRow} :
    c ∈ db.eligible T ↔ ∃ e ∈ db.canonicalEvents, ∃ d,
      db.definition? e.revision.stream.datasourceId e.revision.definitionVersion = some d ∧
      c = ⟨e.canonicalRunId, e.availableAt, .productionIngestion, e.revision, d.definition⟩ := by
  have hevidence : ∀ runId observationId, ∀ i ∈ db.evidenceOf runId observationId,
      i.retrievedAt ≤ T := by
    intro runId observationId i hi
    obtain ⟨l, -, hl⟩ := List.mem_filterMap.mp hi
    obtain ⟨f, hf, rfl⟩ := Option.map_eq_some_iff.mp hl
    exact h.evidence f (List.mem_of_find?_eq_some hf)
  simp only [Db.eligible, List.mem_filterMap, Db.eligibleRow, Db.succeededAt, Db.promotionAt,
    h.decisionAt, Option.bind_eq_bind, Option.bind_eq_some_iff, Option.ite_none_right_eq_some,
    Option.some.injEq, Option.filter_eq_some_iff]
  constructor
  · rintro ⟨l, hl, ⟨lane, c'⟩, ⟨r, hr, a, ha, c₀, hc, ⟨hs, -⟩, hpair⟩, o, ho, p, ⟨hp, hd⟩, d, hdef,
      ⟨hlane, hstream, -⟩, rfl⟩
    obtain ⟨rfl, rfl⟩ := Prod.mk.inj hpair
    refine ⟨_, mem_canonicalEvents.mpr ⟨l, hl, r, hr, a, ha, c₀, hc, o, ho, p, hp,
      ⟨hlane, hs, hstream, of_decide_eq_true hd⟩, rfl⟩, d, hdef, ?_⟩
    rw [hlane]
  · rintro ⟨e, he, d, hdef, rfl⟩
    obtain ⟨l, hl, r, hr, a, ha, c₀, hc, o, ho, p, hp, ⟨hlane, hs, hstream, hd⟩, rfl⟩ :=
      mem_canonicalEvents.mp he
    have hle := h.attempts a (List.mem_of_find?_eq_some ha) c₀ hc
    refine ⟨l, hl, (r.lane, c₀), ⟨r, hr, a, ha, c₀, hc, ⟨hs, hle⟩, rfl⟩, o, ho, p,
      ⟨hp, decide_eq_true hd⟩, d, hdef, ⟨hlane, hstream, hevidence _ _⟩, ?_⟩
    rw [hlane]

/-! ## Revisions of a record -/

/-- Two revisions of a stream with one number are one revision. -/
theorem StreamInv.eq_of_revisionNo {s : StreamKey} (h : StreamInv db s) {o q : RevisionRow}
    (ho : o ∈ db.revisions) (hq : q ∈ db.revisions) (hos : o.stream = s) (hqs : q.stream = s)
    (hno : o.revisionNo = q.revisionNo) : o = q := by
  have hnumbered : (db.revisionsOf s).map RevisionRow.revisionNo =
      List.range' 1 (db.revisionsOf s).length :=
    h.chain.numbered (fun _ hs => hs.number) fun _ _ hf => hf.number
  have hnodup : ((db.revisionsOf s).map RevisionRow.revisionNo).Nodup :=
    hnumbered ▸ List.nodup_range'
  exact List.inj_on_of_nodup_map hnodup (List.mem_filter.mpr ⟨ho, decide_eq_true hos⟩)
    (List.mem_filter.mpr ⟨hq, decide_eq_true hqs⟩) hno

/-- Two rows of the view with one record and one revision number carry one revision. -/
theorem canonicalEvent_revision (h : ∀ s, StreamInv db s) {e f : CanonicalEvent}
    (he : e ∈ db.canonicalEvents) (hf : f ∈ db.canonicalEvents) (hrecord : e.record = f.record)
    (hno : e.revision.revisionNo = f.revision.revisionNo) : e.revision = f.revision := by
  obtain ⟨l, -, r, -, a, -, c, -, o, ho, p, -, ⟨-, -, hlane, -⟩, rfl⟩ := mem_canonicalEvents.mp he
  obtain ⟨l', -, r', -, a', -, c', -, q, hq, p', -, ⟨-, -, hlane', -⟩, rfl⟩ :=
    mem_canonicalEvents.mp hf
  simp only [CanonicalEvent.record, Prod.mk.injEq] at hrecord
  obtain ⟨hdatasource, hversion, hhash⟩ := hrecord
  have hstream : o.stream = q.stream := by
    -- a stream is a record in a lane, and both are of the production lane
    cases hos : o.stream
    cases hqs : q.stream
    simp_all
  exact (h q.stream).eq_of_revisionNo (List.mem_of_find?_eq_some ho) (List.mem_of_find?_eq_some hq)
    hstream rfl hno

/-! ## Agreement -/

/-- The triple a selection is compared by. -/
def CanonicalEvent.selected (e : CanonicalEvent) : StreamKey × String × String :=
  (e.revision.stream, e.revision.observationId, e.canonicalRunId)

def CanonicalRow.selected (e : CanonicalRow) : StreamKey × String × String :=
  (e.revision.stream, e.revision.observationId, e.canonicalRunId)

/-- The approved runs that carry one revision of a record. -/
def Db.carriers (db : Db) (e : CanonicalEvent) : List CanonicalEvent :=
  db.canonicalEvents.filter fun f =>
    f.record = e.record ∧ f.revision.revisionNo = e.revision.revisionNo

/-- Of the approved runs that carry the newest revision of a record, an upsert, the one that
completed last is the one that became available last; the run identifier decides ties. -/
def Db.lastCompletedLastAvailable (db : Db) : Prop :=
  ∀ e ∈ db.canonicalEvents, e.revision.revisionAction = .upsert →
    (∀ f ∈ db.canonicalEvents, f.record = e.record → f.revision.revisionNo ≤ e.revision.revisionNo) →
    (∀ f ∈ db.carriers e,
      toLex (f.runCompletedAt, f.canonicalRunId) ≤ toLex (e.runCompletedAt, e.canonicalRunId)) →
    ∀ f ∈ db.carriers e,
      toLex (f.availableAt, f.canonicalRunId) ≤ toLex (e.availableAt, e.canonicalRunId)

theorem mem_carriers {e f : CanonicalEvent} : f ∈ db.carriers e ↔ f ∈ db.canonicalEvents ∧
    f.record = e.record ∧ f.revision.revisionNo = e.revision.revisionNo := by
  simp [Db.carriers]

/-- The newest revision in a ranking, and the last of its carriers in the minor order. -/
theorem mem_topEvents {ν : Type} [LinearOrder ν] {minor : CanonicalEvent → ν} {e : CanonicalEvent} :
    e ∈ topRows CanonicalEvent.record (fun e => toLex (e.revision.revisionNo, minor e))
      db.canonicalEvents ↔ e ∈ db.canonicalEvents ∧
        (∀ f ∈ db.canonicalEvents, f.record = e.record →
          f.revision.revisionNo ≤ e.revision.revisionNo) ∧
        ∀ f ∈ db.carriers e, minor f ≤ minor e := by
  rw [mem_topRows_lex]
  refine and_congr_right fun _ => and_congr_right fun _ => ⟨?_, ?_⟩
  · intro h f hf
    obtain ⟨hf, hrecord, hno⟩ := mem_carriers.mp hf
    exact h f hf hrecord hno
  · intro h f hf hrecord hno
    exact h f (mem_carriers.mpr ⟨hf, hrecord, hno⟩)

/-- The triples of the view. -/
theorem mem_selected_latest {x : StreamKey × String × String} :
    x ∈ db.canonicalLatest.map CanonicalEvent.selected ↔ ∃ e ∈ topRows CanonicalEvent.record
      (fun e => toLex (e.revision.revisionNo, toLex (e.runCompletedAt, e.canonicalRunId)))
      db.canonicalEvents, e.revision.revisionAction = .upsert ∧ e.selected = x := by
  simp only [Db.canonicalLatest, List.mem_map, List.mem_filter, decide_eq_true_eq, and_assoc]
  rfl

/-- The triples of the query, ranked over the rows of the view. -/
theorem mem_selected_asOf (h : db.SettledBy T) (href : RefInv env db) {classes : List AccessClass}
    (hclasses : ∀ c, c ∈ classes) {x : StreamKey × String × String} :
    x ∈ (db.canonicalAsOf T classes).map CanonicalRow.selected ↔ ∃ e ∈ topRows CanonicalEvent.record
      (fun e => toLex (e.revision.revisionNo, toLex (e.availableAt, e.canonicalRunId)))
      db.canonicalEvents, e.revision.revisionAction = .upsert ∧ e.selected = x := by
  have havailable : ∀ e ∈ db.canonicalEvents, e.availableAt ≤ T := by
    intro e he
    obtain ⟨l, -, r, -, a, ha, c, hc, o, -, p, hp, -, rfl⟩ := mem_canonicalEvents.mp he
    exact max_le (h.attempts a (List.mem_of_find?_eq_some ha) c hc)
      (h.promotions p (latestPromotion?_mem hp).1)
  have hdefined : ∀ e ∈ db.canonicalEvents, ∃ d,
      db.definition? e.revision.stream.datasourceId e.revision.definitionVersion = some d := by
    intro e he
    obtain ⟨l, -, r, -, a, -, c, -, o, ho, p, -, -, rfl⟩ := mem_canonicalEvents.mp he
    exact Option.isSome_iff_exists.mp (href.revision_defined o (List.mem_of_find?_eq_some ho))
  simp only [Db.canonicalAsOf, List.mem_map, List.mem_filter, decide_eq_true_eq, mem_topRows]
  constructor
  · rintro ⟨c, ⟨⟨⟨hc, -⟩, htop⟩, haction, -⟩, rfl⟩
    obtain ⟨e, he, d, hd, rfl⟩ := (mem_eligible h).mp hc
    refine ⟨e, ⟨he, ?_⟩, haction, rfl⟩
    intro f hf hrecord
    obtain ⟨d', hd'⟩ := hdefined f hf
    exact htop _ ⟨(mem_eligible h).mpr ⟨f, hf, d', hd', rfl⟩, havailable f hf⟩ hrecord
  · rintro ⟨e, ⟨he, htop⟩, haction, rfl⟩
    obtain ⟨d, hd⟩ := hdefined e he
    refine ⟨_, ⟨⟨⟨(mem_eligible h).mpr ⟨e, he, d, hd, rfl⟩, havailable e he⟩, ?_⟩, haction,
      hclasses _⟩, rfl⟩
    rintro c ⟨hc, -⟩ hrecord
    obtain ⟨f, hf, d', -, rfl⟩ := (mem_eligible h).mp hc
    exact htop f hf hrecord

/-- Rows of the view with one triple are one row. -/
theorem canonicalEvent_of_selected {e f : CanonicalEvent} (he : e ∈ db.canonicalEvents)
    (hf : f ∈ db.canonicalEvents) (h : e.selected = f.selected) : e = f := by
  simp only [CanonicalEvent.selected, Prod.mk.injEq] at h
  exact canonicalEvent_ext he hf h.2.2 h.2.1

/-- In every reachable store, the view and the query at an anchor later than everything stored
select the same triples exactly if the last completed run of every newest upsert is its last
available one. -/
theorem selections_agree_iff (hu : Function.Injective env.platform.uuid) {w : World}
    (h : Reachable env anyCall w) (hT : w.db.SettledBy T) {classes : List AccessClass}
    (hclasses : ∀ c, c ∈ classes) :
    (∀ x, x ∈ w.db.canonicalLatest.map CanonicalEvent.selected ↔
      x ∈ (w.db.canonicalAsOf T classes).map CanonicalRow.selected) ↔
        w.db.lastCompletedLastAvailable := by
  have href := (h.sound hu).store.references
  have hstreams := h.streams hu
  simp only [mem_selected_latest, mem_selected_asOf hT href hclasses]
  constructor
  · intro hagree e he haction hnewest hlast
    obtain ⟨f, hf, -, hsame⟩ := (hagree e.selected).mp
      ⟨e, mem_topEvents.mpr ⟨he, hnewest, hlast⟩, haction, rfl⟩
    obtain rfl := canonicalEvent_of_selected (mem_topEvents.mp hf).1 he hsame
    exact (mem_topEvents.mp hf).2.2
  · intro hcond x
    constructor
    · rintro ⟨e, he, haction, rfl⟩
      obtain ⟨he, hnewest, hlast⟩ := mem_topEvents.mp he
      exact ⟨e, mem_topEvents.mpr ⟨he, hnewest, hcond e he haction hnewest hlast⟩, haction, rfl⟩
    · rintro ⟨e, he, haction, rfl⟩
      obtain ⟨he, hnewest, hlast⟩ := mem_topEvents.mp he
      -- the row the view takes for the record carries the same revision, so it is this row
      obtain ⟨f, hf, hrecord⟩ := exists_mem_topRows CanonicalEvent.record
        (fun e => toLex (e.revision.revisionNo, toLex (e.runCompletedAt, e.canonicalRunId))) he
      obtain ⟨hfe, hfnewest, hflast⟩ := mem_topEvents.mp hf
      have hno : f.revision.revisionNo = e.revision.revisionNo :=
        le_antisymm (hnewest f hfe hrecord) (hfnewest e he hrecord.symm)
      have hrevision := canonicalEvent_revision hstreams hfe he hrecord hno
      have hfaction : f.revision.revisionAction = .upsert := by rw [hrevision, haction]
      have havailable := hcond f hfe hfaction hfnewest hflast e
        (mem_carriers.mpr ⟨he, hrecord.symm, hno.symm⟩)
      have hkey := le_antisymm havailable (hlast f (mem_carriers.mpr ⟨hfe, hrecord, hno⟩))
      have hrun : e.canonicalRunId = f.canonicalRunId := congrArg (fun k => (ofLex k).2) hkey
      obtain rfl := canonicalEvent_ext he hfe hrun (by rw [hrevision])
      exact ⟨e, hf, haction, rfl⟩

/-! ## A run that overtakes another one -/

namespace Sample

/-- The submarket mappings an operator imports and promotes. -/
def submarkets : DatasourceDefinition :=
  { rents with
    datasourceId := submarketMappingDatasourceId
    definitionHash := "submarkets-1"
    promotionPolicy := .manualReview
    id_ne := by decide }

def mappingRegistry : DatasourceRegistry where
  definitions := [submarkets]
  sources := [⟨"uk.register", 1, ["example.org"]⟩]
  definitions_keyed := by decide
  hashes_keyed := by decide
  sources_keyed := register_keyed
  bound := by decide

/-- Every file is the same mapping. -/
def mappingEnv : Env :=
  { Sample.env with
    registry := mappingRegistry
    submarketMapping := fun _ => .ok ⟨"london", "London", none, ["E1"]⟩ }

def mappingImport (n : Nat) : Op :=
  .importManualEvidence
    { datasourceId := submarketMappingDatasourceId, body := [], mediaType := none }
    fun k => tick (n + k)

/-- The mapping is imported twice; the second import finds the revision of the first. -/
def mapped : World := World.exec mappingEnv [mappingImport 1]

def remapped : World := mapped.step mappingEnv (mappingImport 11)

/-- Approve a review and promote its run. -/
def promoteAt (w : World) (reviewId : String) (n : Nat) : World :=
  (w.step mappingEnv (.decideReview reviewId .approved "operator" none (tick n))).step mappingEnv
    (.promoteReview reviewId "operator" none (tick n))

/-- The second import is promoted first. -/
def overtaken : World :=
  match mapped.last reviewReply, remapped.last reviewReply with
  | some first, some second => promoteAt (promoteAt remapped second 30) first 40
  | _, _ => remapped

theorem promoteAt_reachable {w : World} (h : Reachable mappingEnv anyCall w) (reviewId : String)
    (n : Nat) : Reachable mappingEnv anyCall (promoteAt w reviewId n) := by
  refine .call (.call h ?_ ?_) ?_ ?_ <;> trivial

theorem overtaken_reachable : Reachable mappingEnv anyCall overtaken := by
  have hremapped : Reachable mappingEnv anyCall remapped := by
    refine .call (.call .refl ?_ ?_) ?_ ?_ <;> trivial
  unfold overtaken
  split
  · exact promoteAt_reachable (promoteAt_reachable hremapped _ 30) _ 40
  · exact hremapped

/-- Every access class. -/
def allClasses : List AccessClass := [.open_, .internal, .restricted, .referenceOnly]

theorem mem_allClasses (c : AccessClass) : c ∈ allClasses := by
  cases c <;> decide

/-- The view names the second run, the query the first. -/
theorem overtaken_differs : overtaken.db.SettledBy (tick 50) ∧
    ∃ x ∈ overtaken.db.canonicalLatest.map CanonicalEvent.selected,
      x ∉ (overtaken.db.canonicalAsOf (tick 50) allClasses).map CanonicalRow.selected := by
  decide +kernel

theorem promoted_settled : promoted.db.SettledBy (tick 7) := by decide +kernel

end Sample

theorem selections_agree_iff_promoted :
    (∀ x, x ∈ Sample.promoted.db.canonicalLatest.map CanonicalEvent.selected ↔
      x ∈ (Sample.promoted.db.canonicalAsOf (Sample.tick 7) Sample.allClasses).map
        CanonicalRow.selected) ↔ Sample.promoted.db.lastCompletedLastAvailable :=
  selections_agree_iff Sample.uuid_injective Sample.promoted_reachable Sample.promoted_settled
    Sample.mem_allClasses

/-- The view and the query at an anchor later than everything stored may name different runs. -/
theorem not_selections_agree : ¬ ∀ (w : World) (T : Time) (classes : List AccessClass),
    Reachable Sample.mappingEnv anyCall w → w.db.SettledBy T → (∀ c, c ∈ classes) →
    ∀ x, x ∈ w.db.canonicalLatest.map CanonicalEvent.selected ↔
      x ∈ (w.db.canonicalAsOf T classes).map CanonicalRow.selected := by
  intro hall
  obtain ⟨hsettled, x, hx, hnot⟩ := Sample.overtaken_differs
  exact hnot ((hall _ _ _ Sample.overtaken_reachable hsettled Sample.mem_allClasses x).mp hx)

end NanFung
