import NanFung.Lineage

/-!
# The observations of a run

A run observes a record if a revision of the record's stream with the record's hash is linked to it.
Persisting a record adds what the record says to what its run observes, whether the revision is a new
one or that of the head; all other methods but the one that writes tombstones leave it alone.
-/

namespace NanFung

open Table

variable {env : Env} {db db' : Db} {now : Time} {run : RunHandle} {runId : String}

/-- What a revision says: its stream and its hash. -/
def RevisionRow.identity (o : RevisionRow) : StreamKey × String := (o.stream, o.recordHash)

/-- What a run says of a record when it persists it. -/
def observationIdentity (env : Env) (run : RunHandle) (args : ObservationArgs) :
    Except StoreError (StreamKey × String) := do
  let definition ← env.registry.lookup env.platform run.datasourceId (some run.definitionVersion)
  let keyHash ← env.platform.recordKeyHash run.datasourceId definition.recordKeyVersion args.recordKey
  let recordHash ← env.platform.observationHash (upsertEnvelope run definition args)
  .ok (streamOf run definition keyHash, recordHash)

/-- A revision that says so is linked to the run. -/
def Db.Observes (db : Db) (runId : String) (y : StreamKey × String) : Prop :=
  ∃ l ∈ db.runObservations, l.runId = runId ∧
    ∃ o ∈ db.revisions, o.observationId = l.observationId ∧ o.identity = y

theorem Silent.observes (h : Silent db db') {y : StreamKey × String} :
    db'.Observes runId y ↔ db.Observes runId y := by
  rw [Db.Observes, Db.Observes, h.links, h.revisions]

theorem mem_linkObservation {id : String} {l : RunObservationRow} :
    l ∈ (linkObservation runId id db).runObservations ↔ l ∈ db.runObservations ∨ l = ⟨runId, id⟩ := by
  unfold linkObservation
  split
  · next hlinked =>
    constructor
    · exact Or.inl
    · rintro (hl | rfl)
      · exact hl
      · exact hlinked
  · rw [List.mem_append, List.mem_singleton]

/-- Linking a revision adds what it says. -/
theorem observes_link (hkeyed : Keyed RevisionRow.observationId db.revisions) {o : RevisionRow}
    (ho : o ∈ db.revisions) {locator : Option (List (String × Json))} {items : List PersistedEvidence}
    (h : items.foldlM (linkEvidence env runId o.observationId locator)
      (linkObservation runId o.observationId db) = .ok db') {y : StreamKey × String} :
    db'.Observes runId y ↔ db.Observes runId y ∨ y = o.identity := by
  have hrevisions : (linkObservation runId o.observationId db).revisions = db.revisions := by
    unfold linkObservation
    split <;> rfl
  obtain ⟨rows, rfl, -⟩ := linkEvidence_rows h
  simp only [Db.Observes, hrevisions, mem_linkObservation]
  constructor
  · rintro ⟨l, hl | rfl, hrun, q, hq, hid, hy⟩
    · exact .inl ⟨l, hl, hrun, q, hq, hid, hy⟩
    · rw [hkeyed.eq_of_mem hq ho hid] at hy
      exact .inr hy.symm
  · rintro (⟨l, hl, hrest⟩ | rfl)
    · exact ⟨l, .inl hl, hrest⟩
    · exact ⟨_, .inr rfl, rfl, o, ho, rfl, rfl⟩

/-- Persisting a record adds what the record says. -/
theorem persistObservation_observes (hinv : StoreInv env db) (hstreams : ∀ s, StreamInv db s)
    {args : ObservationArgs} {id : String}
    (h : persistObservation env run args now db = .ok (id, db')) :
    ∃ y, observationIdentity env run args = .ok y ∧
      ∀ z, db'.Observes run.runId z ↔ db.Observes run.runId z ∨ z = y := by
  simp only [persistObservation, persistObservationTx, bind_ok, require_ok] at h
  obtain ⟨definition, hlookup, -, -, keyHash, hkey, recordHash, hhash, -, -, -, -, -, -, ⟨id₁, db₁⟩,
    hrevise, db₂, hlinks, h⟩ := h
  simp only [Except.ok.injEq, Prod.mk.injEq] at h
  obtain ⟨-, rfl⟩ := h
  refine ⟨(streamOf run definition keyHash, recordHash), ?_, fun z => ?_⟩
  · simp only [observationIdentity, bind_ok]
    exact ⟨definition, hlookup, keyHash, hkey, recordHash, hhash, rfl⟩
  rcases reviseStream_ok hrevise with ⟨rfl, g, hg, rfl, hghash, -⟩ |
    ⟨o, hstream, rfl, hohash, -, -, -, -, hnew, -, rfl⟩
  · -- the last revision of the stream has the hash of its head
    have hmatches := (hstreams (streamOf run definition keyHash)).head
    rw [Db.headOf?, hg] at hmatches
    cases hlast : (db₁.revisionsOf (streamOf run definition keyHash)).getLast? with
    | none =>
      rw [hlast] at hmatches
      exact hmatches.elim
    | some o =>
      rw [hlast] at hmatches
      obtain ⟨hid, hhashes, -, -⟩ : g.Of o := hmatches
      obtain ⟨ho, hstream⟩ := List.mem_filter.mp (List.mem_of_getLast? hlast)
      rw [hid] at hlinks
      rw [observes_link hinv.references.revisions_keyed ho hlinks, RevisionRow.identity,
        of_decide_eq_true hstream, ← hhashes, hghash]
  · have hunlinked : ∀ y, Db.Observes { db with
        revisions := db.revisions ++ [o]
        heads := upsertHead (headOf o now) db.heads
        drawn := db.drawn + 1 } run.runId y ↔ db.Observes run.runId y := by
      intro y
      constructor
      · rintro ⟨l, hl, hrun, q, hq, hid, hy⟩
        refine ⟨l, hl, hrun, q, (List.mem_append.mp hq).resolve_right fun hq => ?_, hid, hy⟩
        rw [List.mem_singleton.mp hq] at hid
        have hlink : l = ⟨run.runId, o.observationId⟩ := by rw [hid, ← hrun]
        exact hinv.references.not_linked hnew (hlink ▸ hl)
      · rintro ⟨l, hl, hrun, q, hq, hrest⟩
        exact ⟨l, hl, hrun, q, List.mem_append_left _ hq, hrest⟩
    have hkeyed : Keyed RevisionRow.observationId (db.revisions ++ [o]) :=
      hinv.references.revisions_keyed.append hnew
    rw [observes_link hkeyed (List.mem_append_right _ (List.mem_singleton_self o)) hlinks, hunlinked,
      RevisionRow.identity, hstream, hohash]

/-! ## What a running run depends on -/

/-- Persisting a record leaves the rows alone that say who runs the run. -/
theorem persistObservation_frame {args : ObservationArgs} {id : String}
    (h : persistObservation env run args now db = .ok (id, db')) :
    db'.jobs = db.jobs ∧ db'.attempts = db.attempts ∧ db'.definitions = db.definitions := by
  simp only [persistObservation, persistObservationTx, bind_ok, require_ok] at h
  obtain ⟨definition, -, -, -, keyHash, -, recordHash, -, -, -, -, -, -, -, ⟨id₁, db₁⟩, hrevise, db₂,
    hlinks, h⟩ := h
  simp only [Except.ok.injEq, Prod.mk.injEq] at h
  obtain ⟨-, rfl⟩ := h
  obtain ⟨rows, rfl, -⟩ := linkEvidence_rows hlinks
  have hlinked : ∀ id : String, (linkObservation run.runId id db₁).jobs = db₁.jobs ∧
      (linkObservation run.runId id db₁).attempts = db₁.attempts ∧
      (linkObservation run.runId id db₁).definitions = db₁.definitions := by
    intro id
    unfold linkObservation
    split <;> exact ⟨rfl, rfl, rfl⟩
  obtain ⟨hjobs, hattempts, hdefinitions⟩ := hlinked id₁
  dsimp only
  rw [hjobs, hattempts, hdefinitions]
  rcases reviseStream_ok hrevise with ⟨rfl, -⟩ | ⟨o, -, -, -, -, -, -, -, -, -, rfl⟩ <;>
    exact ⟨rfl, rfl, rfl⟩

theorem requireRunningRun_congr (hjobs : db'.jobs = db.jobs) (hattempts : db'.attempts = db.attempts)
    (hdefinitions : db'.definitions = db.definitions) :
    requireRunningRun run now db' = requireRunningRun run now db := by
  have hdefinition : db'.jobDefinition? = db.jobDefinition? := by
    funext j
    rw [Db.jobDefinition?, Db.jobDefinition?]
    simp only [Db.definition?, hdefinitions]
  rw [requireRunningRun, requireRunningRun, hjobs, hattempts, hdefinition]

end NanFung
