import NanFung.Lease

/-!
# References between tables

The foreign keys the store relies on, beyond the jobs: definitions come from the registry, links
point to runs, revisions and evidence that exist, and a stream head points to a revision of its
stream. With the lease invariant they form the invariant of the whole store.
-/

namespace NanFung

open Table

/-- The reference invariant. -/
structure RefInv (env : Env) (db : Db) : Prop where
  definitions_registered : ∀ r ∈ db.definitions, r.definition ∈ env.registry.definitions
  definitions_keyed : Keyed (fun r : DefinitionRow => r.definition.key) db.definitions
  revisions_keyed : Keyed RevisionRow.observationId db.revisions
  revision_defined : ∀ o ∈ db.revisions,
    (db.definition? o.stream.datasourceId o.definitionVersion).isSome
  heads_keyed : Keyed HeadRow.stream db.heads
  head_revision : ∀ h ∈ db.heads,
    ∃ o ∈ db.revisions, o.observationId = h.observationId ∧ o.stream = h.stream
  observation_run : ∀ l ∈ db.runObservations, ∃ r ∈ db.runs, r.runId = l.runId
  observation_revision : ∀ l ∈ db.runObservations,
    ∃ o ∈ db.revisions, o.observationId = l.observationId
  evidence_keyed : Keyed EvidenceRow.evidenceId db.evidence
  run_evidence : ∀ l ∈ db.runEvidence, ∃ e ∈ db.evidence, e.evidenceId = l.evidenceId
  observation_evidence : ∀ l ∈ db.observationEvidence, ∃ e ∈ db.evidence, e.evidenceId = l.evidenceId

/-! ## Definitions and heads under insertion -/

/-- A definition that is there stays found when others are added. -/
theorem definition?_append {db : Db} {rows : List DefinitionRow} {id : String} {version : Nat}
    (h : (db.definition? id version).isSome) :
    ({ db with definitions := db.definitions ++ rows } : Db).definition? id version =
      db.definition? id version := by
  unfold Db.definition? at *
  rw [List.find?_append, Option.or_of_isSome h]

theorem upsertHead_eq_append {h : HeadRow} {heads : List HeadRow}
    (hnew : ∀ g ∈ heads, g.stream ≠ h.stream) : upsertHead h heads = heads ++ [h] := by
  rw [upsertHead, if_neg]
  rintro ⟨g, hg, hgs⟩
  exact hnew g hg hgs

theorem mem_upsertHead {h : HeadRow} {heads : List HeadRow} {g : HeadRow} :
    g ∈ upsertHead h heads ↔ g = h ∨ (g ∈ heads ∧ g.stream ≠ h.stream) := by
  unfold upsertHead
  split
  · next hex =>
    rw [mem_updateWhere]
    constructor
    · rintro (⟨g₀, -, -, rfl⟩ | ⟨hg, hne⟩)
      · exact Or.inl rfl
      · exact Or.inr ⟨hg, by simpa using hne⟩
    · rintro (rfl | ⟨hg, hne⟩)
      · obtain ⟨g₀, hg₀, hs⟩ := hex
        exact Or.inl ⟨g₀, hg₀, by simpa using hs, rfl⟩
      · exact Or.inr ⟨hg, by simpa using hne⟩
  · next hnex =>
    rw [List.mem_append, List.mem_singleton, or_comm]
    refine or_congr_right ⟨fun hg => ⟨hg, fun hs => hnex ⟨g, hg, hs⟩⟩, And.left⟩

theorem keyed_upsertHead {h : HeadRow} {heads : List HeadRow} (hk : Keyed HeadRow.stream heads) :
    Keyed HeadRow.stream (upsertHead h heads) := by
  unfold upsertHead
  split
  · -- the row written has the key of the row it replaces
    have : updateWhere (fun g => g.stream = h.stream) (fun _ => h) heads =
        updateWhere (fun g => g.stream = h.stream) (fun g => { h with stream := g.stream }) heads := by
      refine List.map_congr_left fun g _ => ?_
      by_cases hg : g.stream = h.stream
      · simp [hg]
      · simp [hg]
    rw [this]
    exact hk.updateWhere fun _ => rfl
  · next hnex => exact hk.append fun g hg hs => hnex ⟨g, hg, hs⟩

/-- The head of a stream after a write to it or to another one. -/
theorem find?_upsertHead {h : HeadRow} {heads : List HeadRow} (hk : Keyed HeadRow.stream heads)
    (s : StreamKey) :
    (upsertHead h heads).find? (fun g => g.stream = s) =
      if h.stream = s then some h else heads.find? fun g => g.stream = s := by
  split
  · next hs =>
    exact (keyed_upsertHead hk).find?_eq_some.mpr ⟨mem_upsertHead.mpr (Or.inl rfl), hs⟩
  · next hs =>
    cases hf : heads.find? fun g => g.stream = s with
    | none =>
      rw [find?_key_eq_none] at hf ⊢
      intro g hg
      rcases mem_upsertHead.mp hg with rfl | ⟨hg, -⟩
      · exact hs
      · exact hf g hg
    | some g =>
      obtain ⟨hg, hgs⟩ := hk.find?_eq_some.mp hf
      refine (keyed_upsertHead hk).find?_eq_some.mpr ⟨mem_upsertHead.mpr (Or.inr ⟨hg, ?_⟩), hgs⟩
      exact fun he => hs (he.symm.trans hgs)

/-! ## Preservation -/

namespace RefInv

variable {env : Env} {db : Db}

theorem empty (env : Env) : RefInv env {} := by
  constructor <;> simp

/-- Changes of runs that keep their identifiers. -/
theorem mapRuns (h : RefInv env db) {db' : Db} (hdef : db'.definitions = db.definitions)
    (hrev : db'.revisions = db.revisions) (hheads : db'.heads = db.heads)
    (hobs : db'.runObservations = db.runObservations) (hev : db'.evidence = db.evidence)
    (hre : db'.runEvidence = db.runEvidence) (hoe : db'.observationEvidence = db.observationEvidence)
    (hruns : ∀ r ∈ db.runs, ∃ s ∈ db'.runs, s.runId = r.runId) : RefInv env db' := by
  refine ⟨?_, ?_, ?_, ?_, ?_, ?_, ?_, ?_, ?_, ?_, ?_⟩
  · exact hdef ▸ h.definitions_registered
  · exact hdef ▸ h.definitions_keyed
  · exact hrev ▸ h.revisions_keyed
  · rw [hrev]
    intro o ho
    have := h.revision_defined o ho
    unfold Db.definition? at *
    rwa [hdef]
  · exact hheads ▸ h.heads_keyed
  · rw [hheads, hrev]
    exact h.head_revision
  · rw [hobs]
    intro l hl
    obtain ⟨r, hr, hrl⟩ := h.observation_run l hl
    obtain ⟨s, hs, hsr⟩ := hruns r hr
    exact ⟨s, hs, hsr.trans hrl⟩
  · rw [hobs, hrev]
    exact h.observation_revision
  · exact hev ▸ h.evidence_keyed
  · rw [hre, hev]
    exact h.run_evidence
  · rw [hoe, hev]
    exact h.observation_evidence

/-- Updating runs without touching their identifiers. -/
theorem updateRuns (h : RefInv env db) {p : RunRow → Bool} {f : RunRow → RunRow}
    (hf : ∀ r, (f r).runId = r.runId) : RefInv env { db with runs := updateWhere p f db.runs } := by
  refine h.mapRuns rfl rfl rfl rfl rfl rfl rfl fun r hr => ⟨_, mem_updateWhere_of_mem hr, ?_⟩
  split
  · exact hf r
  · rfl

end RefInv

/-- Every effect preserves the reference invariant. -/
theorem Effect.references {env : Env} {G : Guard} {t : Time} {db db' : Db}
    (e : Effect env G t db db') (h : RefInv env db) : RefInv env db' := by
  cases e with
  | define d createdAt registered new =>
    refine { h with definitions_registered := ?_, definitions_keyed := h.definitions_keyed.append new,
                    revision_defined := ?_ }
    · intro r hr
      rcases List.mem_append.mp hr with hr | hr
      · exact h.definitions_registered r hr
      · rw [List.mem_singleton.mp hr]
        exact registered
    · intro o ho
      have := h.revision_defined o ho
      rwa [definition?_append this]
  | start j a r => exact h.mapRuns rfl rfl rfl rfl rfl rfl rfl fun s hs =>
      ⟨s, List.mem_append_left _ hs, rfl⟩
  | close j a status =>
    exact (h.updateRuns (p := fun r => r.attemptId = a.attemptId) (f := RunRow.close status t)
      fun _ => rfl).mapRuns rfl rfl rfl rfl rfl rfl rfl fun r hr => ⟨r, hr, rfl⟩
  | count | declareScope | completeSnapshot => exact h.updateRuns fun _ => rfl
  | evidence hd j a r e link active linkRun linkEvidence new =>
    refine { h with evidence_keyed := h.evidence_keyed.append new, run_evidence := ?_,
                    observation_evidence := ?_ }
    · intro l hl
      rcases List.mem_append.mp hl with hl | hl
      · obtain ⟨f, hf, hfl⟩ := h.run_evidence l hl
        exact ⟨f, List.mem_append_left _ hf, hfl⟩
      · exact ⟨e, by simp, by rw [List.mem_singleton.mp hl, linkEvidence]⟩
    · intro l hl
      obtain ⟨f, hf, hfl⟩ := h.observation_evidence l hl
      exact ⟨f, List.mem_append_left _ hf, hfl⟩
  | revise hd j a r o active datasource lane scope declared extends_ unseen new defined =>
    refine { h with revisions_keyed := h.revisions_keyed.append new, revision_defined := ?_,
                    heads_keyed := keyed_upsertHead h.heads_keyed, head_revision := ?_,
                    observation_run := ?_, observation_revision := ?_ }
    · intro q hq
      rcases List.mem_append.mp hq with hq | hq
      · exact h.revision_defined q hq
      · rw [List.mem_singleton.mp hq]
        exact defined
    · intro g hg
      rcases mem_upsertHead.mp hg with rfl | ⟨hg, -⟩
      · exact ⟨o, by simp, rfl, rfl⟩
      · obtain ⟨q, hq, hqg⟩ := h.head_revision g hg
        exact ⟨q, List.mem_append_left _ hq, hqg⟩
    · intro l hl
      rcases List.mem_append.mp hl with hl | hl
      · exact h.observation_run l hl
      · exact ⟨r, active.run, by rw [List.mem_singleton.mp hl, active.runId]⟩
    · intro l hl
      rcases List.mem_append.mp hl with hl | hl
      · obtain ⟨q, hq, hql⟩ := h.observation_revision l hl
        exact ⟨q, List.mem_append_left _ hq, hql⟩
      · exact ⟨o, by simp, by rw [List.mem_singleton.mp hl]⟩
  | link hd j a r o active revision datasource lane new =>
    refine { h with observation_run := ?_, observation_revision := ?_ }
    · intro l hl
      rcases List.mem_append.mp hl with hl | hl
      · exact h.observation_run l hl
      · exact ⟨r, active.run, by rw [List.mem_singleton.mp hl, active.runId]⟩
    · intro l hl
      rcases List.mem_append.mp hl with hl | hl
      · exact h.observation_revision l hl
      · exact ⟨o, revision, by rw [List.mem_singleton.mp hl]⟩
  | linkEvidence hd j a r row active run evidence =>
    refine { h with observation_evidence := ?_ }
    intro l hl
    rcases List.mem_append.mp hl with hl | hl
    · exact h.observation_evidence l hl
    · exact List.mem_singleton.mp hl ▸ evidence
  | _ => exact { h with }

/-! ## The invariant of the store -/

/-- The invariant every operation relies on. -/
structure StoreInv (env : Env) (db : Db) : Prop where
  leases : db.Leases
  references : RefInv env db

theorem StoreInv.empty (env : Env) : StoreInv env {} := ⟨LeaseInv.empty, RefInv.empty env⟩

theorem Effect.storeInv {env : Env} {G : Guard} {t : Time} {db db' : Db}
    (e : Effect env G t db db') (h : StoreInv env db) : StoreInv env db' :=
  ⟨e.leases h.leases, e.references h.references⟩

/-- What every effect preserves, a chain of effects preserves. -/
theorem Effects.preserve {env : Env} {G : Guard} {I : Db → Prop} {db db' : Db}
    (e : Effects env G db db')
    (step : ∀ {t db db'}, G.clock t → Effect env G t db db' → I db → I db') (h : I db) : I db' := by
  induction e with
  | refl => exact h
  | tail _ hstep ih =>
    obtain ⟨t, ht, he⟩ := hstep
    exact step ht he ih

theorem Effects.storeInv {env : Env} {G : Guard} {db db' : Db} (e : Effects env G db db')
    (h : StoreInv env db) : StoreInv env db' :=
  e.preserve (fun _ he => he.storeInv) h

end NanFung
