import NanFung.Lineage

/-!
# Revisions whose hashes can be computed again

`persist_observation` and `finalize_full_snapshot` hash an envelope and store its parts. The hash of a
revision is reproducible when the columns of its row give it again. A tombstone is hashed from the
columns it keeps. An upsert reads its limitations once for the hash and once more for the column, and an
iterable need not give the same strings twice.
-/

namespace NanFung

open Table Platform

variable {env : Env} {db db' : Db} {now : Time} {run : RunHandle}

/-! ## Rows -/

/-- The value of the column `revision_action`. -/
def RevisionAction.name : RevisionAction → String
  | .upsert => "upsert"
  | .tombstone => "tombstone"

/-- The envelope that the columns of a revision tell. The hash of an upsert leaves its scope out. -/
def RevisionRow.envelope (o : RevisionRow) : Envelope where
  datasourceId := o.stream.datasourceId
  definitionVersion := o.definitionVersion
  recordType := o.recordType
  schemaVersion := o.schemaVersion
  revisionAction := o.revisionAction.name
  recordKey := o.recordKey
  payload := o.payload
  sourceDate := o.sourceDate
  periodLabel := o.periodLabel
  unit := o.unit
  dataKind := o.dataKind.name
  confidence := o.confidence.name
  snapshotScopeHash := if o.revisionAction = .tombstone then o.snapshotScopeHash else none
  definition := o.definition
  limitations := o.limitations

/-- The record key hash is that of the stored record key. -/
def RevisionRow.KeyHashed (env : Env) (o : RevisionRow) : Prop :=
  ∃ key : List String, o.recordKey = .arr (key.map .str) ∧
    env.platform.recordKeyHash o.stream.datasourceId o.stream.recordKeyVersion key =
      .ok o.stream.recordKeyHash

/-- The columns give both hashes again. -/
def RevisionRow.Reproducible (env : Env) (o : RevisionRow) : Prop :=
  env.platform.observationHash o.envelope = .ok o.recordHash ∧ o.KeyHashed env

/-! ## Limitations -/

/-- An iterable of strings: what a first pass over it gives, and what a second one does. -/
structure Iterable where
  first : List String
  again : List String

/-- A tuple or a list. -/
def Iterable.ofList (items : List String) : Iterable := ⟨items, items⟩

/-- A generator is spent after one pass. -/
def Iterable.generator (items : List String) : Iterable := ⟨items, []⟩

/-- `persist_observation`: `tuple(limitations)` is hashed, and `list(limitations)` is stored. -/
def persistObservationFrom (env : Env) (run : RunHandle) (args : ObservationArgs)
    (limitations : Iterable) (now : Time) (db : Db) : Except StoreError (String × Db) := do
  let definition ← env.registry.lookup env.platform run.datasourceId (some run.definitionVersion)
  require (args.evidence ≠ []) (.operational "an observation requires persisted evidence")
  let keyHash ← env.platform.recordKeyHash run.datasourceId definition.recordKeyVersion
    args.recordKey
  let recordHash ← env.platform.observationHash
    (upsertEnvelope run definition { args with limitations := limitations.first })
  persistObservationTx env run definition { args with limitations := limitations.again } keyHash
    recordHash now db

theorem persistObservationFrom_ofList (args : ObservationArgs) :
    persistObservationFrom env run args (.ofList args.limitations) now db =
      persistObservation env run args now db := rfl

/-! ## Rows that are written -/

/-- A hash depends on the normal forms of the JSON parts. -/
theorem observationHash_congr {P : Platform} {e : Envelope} {key payload limitations : Json}
    (hkey : P.normalizeJson key = P.normalizeJson e.recordKey)
    (hpayload : P.normalizeJson payload = P.normalizeJson e.payload)
    (hlimitations : P.normalizeJson limitations = P.normalizeJson e.limitations) :
    P.observationHash { e with recordKey := key, payload := payload, limitations := limitations } =
      P.observationHash e := by
  simp only [observationHash, hashCanonical, canonicalJson, normalizeJson, normalizeMembers, hkey,
    hpayload, hlimitations]

/-- An upsert extends its stream by a row of its arguments, or leaves revisions and heads alone. -/
theorem reviseStream_row (hnfc : ∀ s, env.platform.nfc (env.platform.nfc s) = env.platform.nfc s)
    {definition : DatasourceDefinition} {args : ObservationArgs} {keyHash recordHash : String}
    {scopeHash : Option String} {id : String}
    (h : reviseStream env run definition args (streamOf run definition keyHash) recordHash scopeHash
      now db = .ok (id, db')) :
    db' = db ∨ ∃ o : RevisionRow, (∀ q ∈ db.revisions, q.observationId ≠ o.observationId) ∧
      db'.revisions = db.revisions ++ [o] ∧ db'.heads = upsertHead (headOf o now) db.heads ∧
      o.recordHash = recordHash ∧ o.stream = streamOf run definition keyHash ∧
      o.recordKey = .arr (args.recordKey.map fun s => .str (env.platform.nfc s)) ∧
      env.platform.observationHash o.envelope =
        env.platform.observationHash (upsertEnvelope run definition args) := by
  unfold reviseStream at h
  dsimp only at h
  split at h
  · cases h
    exact Or.inl rfl
  simp only [bind_ok, Except.ok.injEq, Prod.mk.injEq] at h
  obtain ⟨key, hkey, payload, hpayload, limitations, hlimitations, db₁, hins, -, rfl⟩ := h
  obtain ⟨hnew, -, rfl⟩ := insertRevision_ok hins
  refine Or.inr ⟨_, hnew, rfl, rfl, rfl, rfl, ?_, ?_⟩
  · rw [Env.json, normalizeJson_strings] at hkey
    exact (Except.ok.inj hkey).symm
  · have hhash := @observationHash_congr env.platform (upsertEnvelope run definition args) key payload
      limitations
    exact hhash ((normalizeJson_idem hnfc hkey).trans hkey.symm)
      ((normalizeJson_idem hnfc hpayload).trans hpayload.symm)
      ((normalizeJson_idem hnfc hlimitations).trans hlimitations.symm)

theorem recordKeyHash_nfc {P : Platform} (hnfc : ∀ s, P.nfc (P.nfc s) = P.nfc s)
    (datasourceId recordKeyVersion : String) (key : List String) :
    P.recordKeyHash datasourceId recordKeyVersion (key.map P.nfc) =
      P.recordKeyHash datasourceId recordKeyVersion key := by
  have hkey : P.normalizeJson (.arr ((key.map P.nfc).map .str)) = P.normalizeJson (.arr (key.map .str)) := by
    rw [normalizeJson_strings, normalizeJson_strings]
    simp [hnfc]
  simp only [recordKeyHash, canonicalJson, hkey]

theorem linkObservation_rows {runId id : String} :
    (linkObservation runId id db).revisions = db.revisions ∧
      (linkObservation runId id db).heads = db.heads := by
  unfold linkObservation
  split <;> exact ⟨rfl, rfl⟩

/-- What a call of `persist_observation` writes to the revisions and to the heads of the streams. -/
theorem persistObservationFrom_row
    (hnfc : ∀ s, env.platform.nfc (env.platform.nfc s) = env.platform.nfc s)
    {args : ObservationArgs} {limitations : Iterable} {id : String}
    (h : persistObservationFrom env run args limitations now db = .ok (id, db')) :
    (db'.revisions = db.revisions ∧ db'.heads = db.heads) ∨
      ∃ definition o, env.registry.lookup env.platform run.datasourceId (some run.definitionVersion) =
          .ok definition ∧
        (∀ q ∈ db.revisions, q.observationId ≠ o.observationId) ∧
        db'.revisions = db.revisions ++ [o] ∧ db'.heads = upsertHead (headOf o now) db.heads ∧
        o.KeyHashed env ∧
        env.platform.observationHash (upsertEnvelope run definition
          { args with limitations := limitations.first }) = .ok o.recordHash ∧
        env.platform.observationHash o.envelope = env.platform.observationHash
          (upsertEnvelope run definition { args with limitations := limitations.again }) := by
  simp only [persistObservationFrom, persistObservationTx, bind_ok, Except.ok.injEq, Prod.mk.injEq] at h
  obtain ⟨definition, hlookup, -, -, keyHash, hkey, recordHash, hhash, -, -, -, -, -, -, ⟨id₁, db₁⟩,
    hrevise, db₂, hlinks, -, rfl⟩ := h
  obtain ⟨rows, rfl, -⟩ := linkEvidence_rows hlinks
  obtain ⟨hrevisions, hheads⟩ := @linkObservation_rows db₁ run.runId id₁
  rcases reviseStream_row hnfc hrevise with rfl | ⟨o, hnew, hrows, hmoved, hohash, hstream, hstored, henv⟩
  · exact Or.inl ⟨hrevisions, hheads⟩
  · refine Or.inr ⟨definition, o, hlookup, hnew, hrevisions.trans hrows, hheads.trans hmoved,
      ⟨args.recordKey.map env.platform.nfc, ?_, ?_⟩, hohash ▸ hhash, henv⟩
    · rw [hstored, List.map_map]
      rfl
    · rw [hstream, recordKeyHash_nfc hnfc]
      exact hkey

/-! ## The keys of the streams -/

/-- Revisions are stored with their keys, and the head of a stream is one of its revisions. -/
structure KeyInv (env : Env) (db : Db) : Prop where
  hashed : ∀ o ∈ db.revisions, o.KeyHashed env
  unique : Keyed RevisionRow.observationId db.revisions
  head : ∀ g ∈ db.heads, ∃ o ∈ db.revisions, o.observationId = g.observationId ∧ o.stream = g.stream

namespace KeyInv

theorem empty (env : Env) : KeyInv env {} :=
  ⟨List.forall_mem_nil _, keyed_nil _, List.forall_mem_nil _⟩

theorem of_eq (h : KeyInv env db) (hrevisions : db'.revisions = db.revisions)
    (hheads : db'.heads = db.heads) : KeyInv env db' := by
  obtain ⟨hhashed, hunique, hhead⟩ := h
  rw [← hrevisions] at hhashed hunique hhead
  rw [← hheads] at hhead
  exact ⟨hhashed, hunique, hhead⟩

/-- A new revision, to which heads may move. -/
theorem append (h : KeyInv env db) {o : RevisionRow} (hhashed : o.KeyHashed env)
    (hnew : ∀ q ∈ db.revisions, q.observationId ≠ o.observationId)
    (hrevisions : db'.revisions = db.revisions ++ [o])
    (hheads : ∀ g ∈ db'.heads, g ∈ db.heads ∨ g.observationId = o.observationId ∧ g.stream = o.stream) :
    KeyInv env db' := by
  refine ⟨?_, ?_, ?_⟩
  · rw [hrevisions]
    exact List.forall_mem_append.mpr ⟨h.hashed, List.forall_mem_singleton.mpr hhashed⟩
  · rw [hrevisions]
    exact h.unique.append hnew
  · intro g hg
    rw [hrevisions]
    rcases hheads g hg with hold | ⟨hid, hstream⟩
    · obtain ⟨q, hq, hsame⟩ := h.head g hold
      exact ⟨q, List.mem_append_left _ hq, hsame⟩
    · exact ⟨o, List.mem_append_right _ (List.mem_singleton_self o), hid.symm, hstream.symm⟩

theorem mem_upsertHead {g h : HeadRow} {heads : List HeadRow} (hg : g ∈ upsertHead h heads) :
    g ∈ heads ∨ g = h := by
  unfold upsertHead at hg
  split at hg
  · rcases mem_updateWhere.mp hg with ⟨-, -, -, rfl⟩ | ⟨hmem, -⟩
    · exact Or.inr rfl
    · exact Or.inl hmem
  · exact (List.mem_append.mp hg).imp_right List.mem_singleton.mp

theorem persistObservationFrom
    (hnfc : ∀ s, env.platform.nfc (env.platform.nfc s) = env.platform.nfc s)
    (h : KeyInv env db) {args : ObservationArgs} {limitations : Iterable} {id : String}
    (hcall : NanFung.persistObservationFrom env run args limitations now db = .ok (id, db')) :
    KeyInv env db' := by
  rcases persistObservationFrom_row hnfc hcall with ⟨hrevisions, hheads⟩ |
    ⟨-, o, -, hnew, hrevisions, hheads, hhashed, -⟩
  · exact h.of_eq hrevisions hheads
  · refine h.append hhashed hnew hrevisions fun g hg => ?_
    rw [hheads] at hg
    refine (mem_upsertHead hg).imp_right ?_
    rintro rfl
    exact ⟨rfl, rfl⟩

theorem persistObservation
    (hnfc : ∀ s, env.platform.nfc (env.platform.nfc s) = env.platform.nfc s)
    (h : KeyInv env db) {args : ObservationArgs} {id : String}
    (hcall : NanFung.persistObservation env run args now db = .ok (id, db')) : KeyInv env db' := by
  rw [← persistObservationFrom_ofList] at hcall
  exact h.persistObservationFrom hnfc hcall

end KeyInv

/-! ## Tombstones -/

/-- The heads of a scope come with the revisions they point to. -/
theorem mem_scopeHeads (h : KeyInv env db) {datasourceId recordKeyVersion scopeHash : String} {lane : Lane}
    {row : HeadRow × RevisionRow}
    (hrow : row ∈ db.scopeHeads datasourceId lane recordKeyVersion scopeHash) :
    row.1.stream.datasourceId = datasourceId ∧ row.1.stream.recordKeyVersion = recordKeyVersion ∧
      row.2.stream = row.1.stream ∧ row.2.KeyHashed env := by
  rw [Db.scopeHeads, List.mem_insertionSort, List.mem_filterMap] at hrow
  obtain ⟨g, hg, hrow⟩ := hrow
  split at hrow
  · next hof =>
    obtain ⟨o, hfind, hrow⟩ := Option.bind_eq_some_iff.mp hrow
    split at hrow
    · cases hrow
      obtain ⟨ho, hid⟩ := h.unique.find?_eq_some.mp hfind
      obtain ⟨q, hq, hqid, hstream⟩ := h.head g hg
      obtain rfl := h.unique.eq_of_mem ho hq (hid.trans hqid.symm)
      exact ⟨hof.1, hof.2.2.1, hstream, h.hashed o ho⟩
    · cases hrow
  · cases hrow

/-- A tombstone is hashed from the columns it is written with. -/
theorem writeTombstone_row (h : KeyInv env db) {definition : DatasourceDefinition}
    {scopeHash evidenceId : String} {ids : List String} {row : HeadRow × RevisionRow}
    {acc' : List String × Db}
    (hrow : row.1.stream.datasourceId = run.datasourceId ∧
      row.1.stream.recordKeyVersion = definition.recordKeyVersion ∧
      row.2.stream = row.1.stream ∧ row.2.KeyHashed env)
    (hstep : writeTombstone env run definition scopeHash evidenceId now (ids, db) row = .ok acc') :
    KeyInv env acc'.2 ∧ ∃ o : RevisionRow, acc'.2.revisions = db.revisions ++ [o] ∧
      o.Reproducible env := by
  simp only [writeTombstone, bind_ok, Except.ok.injEq] at hstep
  obtain ⟨digest, hdigest, db₁, hins, -, -, -, -, rfl⟩ := hstep
  obtain ⟨hnew, -, rfl⟩ := insertRevision_ok hins
  obtain ⟨hds, hversion, hstream, key, hkey, hhash⟩ := hrow
  have hhashed : (tombstoneRevision run definition scopeHash row.1 row.2 (env.newId "obs" db.drawn)
      digest now).KeyHashed env := by
    refine ⟨key, hkey, ?_⟩
    rw [hstream, hds, hversion] at hhash
    exact hhash
  refine ⟨h.append hhashed hnew rfl fun g hg => ?_, _, rfl, hdigest, hhashed⟩
  rcases mem_updateWhere.mp hg with ⟨-, -, -, rfl⟩ | ⟨hmem, -⟩
  · exact Or.inr ⟨rfl, rfl⟩
  · exact Or.inl hmem

theorem writeTombstones_rows {definition : DatasourceDefinition} {scopeHash evidenceId : String}
    {rows : List (HeadRow × RevisionRow)} {acc acc' : List String × Db} (h : KeyInv env acc.2)
    (hrows : ∀ row ∈ rows, row.1.stream.datasourceId = run.datasourceId ∧
      row.1.stream.recordKeyVersion = definition.recordKeyVersion ∧
      row.2.stream = row.1.stream ∧ row.2.KeyHashed env)
    (hloop : rows.foldlM (writeTombstone env run definition scopeHash evidenceId now) acc = .ok acc') :
    KeyInv env acc'.2 ∧ ∃ tombstones : List RevisionRow,
      acc'.2.revisions = acc.2.revisions ++ tombstones ∧ ∀ o ∈ tombstones, o.Reproducible env := by
  induction rows generalizing acc with
  | nil =>
    simp only [List.foldlM_nil, pure_ok] at hloop
    subst hloop
    exact ⟨h, [], (List.append_nil _).symm, List.forall_mem_nil _⟩
  | cons row rows ih =>
    simp only [List.foldlM_cons, bind_ok] at hloop
    obtain ⟨acc₁, hstep, hloop⟩ := hloop
    obtain ⟨hrow, hrows⟩ := List.forall_mem_cons.mp hrows
    obtain ⟨h₁, o, hrevisions, ho⟩ := writeTombstone_row h hrow hstep
    obtain ⟨h₂, tombstones, hmore, htombstones⟩ := ih h₁ hrows hloop
    refine ⟨h₂, o :: tombstones, ?_, List.forall_mem_cons.mpr ⟨ho, htombstones⟩⟩
    rw [hmore, hrevisions, List.append_assoc, List.singleton_append]

/-- `finalize_full_snapshot` writes reproducible revisions only. -/
theorem finalizeFullSnapshot_rows (h : KeyInv env db) {proof : List (String × Json)} {ids : List String}
    (hcall : finalizeFullSnapshot env run proof now db = .ok (ids, db')) :
    KeyInv env db' ∧ ∃ tombstones : List RevisionRow,
      db'.revisions = db.revisions ++ tombstones ∧ ∀ o ∈ tombstones, o.Reproducible env := by
  simp only [finalizeFullSnapshot, bind_ok, Except.ok.injEq, Prod.mk.injEq] at hcall
  obtain ⟨definition, -, -, -, -, -, -, -, scopeHash, -, -, -, evidenceId, -, ⟨ids', db₁⟩, hloop, -, -, -,
    rfl⟩ := hcall
  obtain ⟨h₁, hrevisions⟩ := writeTombstones_rows h
    (fun row hrow => mem_scopeHeads h (List.mem_filter.mp hrow).1) hloop
  exact ⟨h₁.of_eq rfl rfl, hrevisions⟩

/-! ## Calls -/

/-- How calls move the store. -/
def KeepsKeys (env : Env) (db db' : Db) : Prop := KeyInv env db → KeyInv env db'

instance : Std.Refl (KeepsKeys env) := ⟨fun _ => id⟩

instance : IsTrans Db (KeepsKeys env) := ⟨fun _ _ _ h h' => h' ∘ h⟩

/-- A procedure that writes no observation. -/
theorem Silently.keepsKeys {α : Type} {p : Proc Db StoreError α} (hq : Silently p) :
    Proc.Spec (KeepsKeys env) (fun _ => True) p fun _ _ => True := by
  intro s hs
  have hsilent := (hq s hs).1
  exact ⟨fun h => h.of_eq hsilent.revisions hsilent.heads, fun _ _ => trivial⟩

section

variable (hnfc : ∀ s, env.platform.nfc (env.platform.nfc s) = env.platform.nfc s)

include hnfc

theorem persistObservation_keepsKeys {args : ObservationArgs} :
    Proc.Spec (KeepsKeys env) (fun _ => True)
      (Proc.atomically (persistObservation env run args now)) fun _ _ => True :=
  Proc.Spec.atomically fun _ _ _ _ hcall => ⟨fun h => h.persistObservation hnfc hcall, trivial⟩

theorem importManualEvidence_keepsKeys {args : ManualImportArgs} {clock : Nat → Time} :
    Proc.Spec (KeepsKeys env) (fun _ => True) (importManualEvidence env args clock)
      fun _ _ => True := by
  refine Proc.Spec.bind Silently.query.keepsKeys fun attestation => ?_
  refine Proc.Spec.bind Silently.query.keepsKeys fun definition => ?_
  refine Proc.Spec.bind Silently.draw.keepsKeys fun instanceId => ?_
  refine Proc.Spec.bind Silently.enqueue.keepsKeys fun queued => ?_
  refine Proc.Spec.bind Silently.claimJob.keepsKeys fun claim => ?_
  match claim with
  | none => exact (Silently.throw _).keepsKeys
  | some claim =>
    refine Proc.Spec.bind (Silently.atomically Silent.startRun).keepsKeys fun run => ?_
    refine Proc.Spec.bind Silently.captureManualEvidence.keepsKeys fun evidence => ?_
    refine Proc.Spec.bind (Q := fun _ _ => True) ?_ fun _ => ?_
    · unfold importSubmarketMapping captureSubmarketMapping
      split
      · split
        · exact Proc.Spec.bind (persistObservation_keepsKeys hnfc) fun _ => (Silently.pure _).keepsKeys
        · exact (Silently.bind (Silently.atomically Silent.finishRun) fun _ =>
            Silently.throw _).keepsKeys
      · exact (Silently.pure _).keepsKeys
    refine Proc.Spec.bind Silently.reviewManualImport.keepsKeys fun reviewId => ?_
    exact (Silently.bind (Silently.atomically Silent.finishRun) fun _ => Silently.pure _).keepsKeys

/-- Whatever handle it presents, a call keeps the keys. -/
theorem Op.keepsKeys (op : Op) :
    Proc.Spec (KeepsKeys env) (fun _ => True) (op.exec env) fun _ _ => True := by
  by_cases hobserves : op.Observes
  swap
  · exact (Op.silently hobserves).keepsKeys
  cases op with
  | persistObservation run args now =>
    exact Proc.Spec.bind (persistObservation_keepsKeys hnfc) fun _ => (Silently.pure _).keepsKeys
  | finalizeFullSnapshot run proof now =>
    refine Proc.Spec.bind (Q := fun _ _ => True) ?_ fun _ => (Silently.pure _).keepsKeys
    exact Proc.Spec.atomically fun _ _ _ _ hcall =>
      ⟨fun h => (finalizeFullSnapshot_rows h hcall).1, trivial⟩
  | importManualEvidence args clock =>
    exact Proc.Spec.bind (importManualEvidence_keepsKeys hnfc) fun _ => (Silently.pure _).keepsKeys
  | _ => exact hobserves.elim

end

/-- A call on the store, which may give `persist_observation` any iterable. -/
inductive StoreCall where
  | method (op : Op)
  | observe (run : RunHandle) (args : ObservationArgs) (limitations : Iterable) (now : Time)

/-- The store that a call leaves behind. -/
def StoreCall.effect (env : Env) (db : Db) : StoreCall → Db
  | .method op => ((op.exec env).run db).2
  | .observe run args limitations now =>
    ((Proc.atomically (persistObservationFrom env run args limitations now)).run db).2

/-- The stores that calls reach from the empty one, with whatever handles. -/
def Stored (env : Env) (db : Db) : Prop := ∃ calls : List StoreCall, calls.foldl (StoreCall.effect env) {} = db

theorem Stored.keyInv (hnfc : ∀ s, env.platform.nfc (env.platform.nfc s) = env.platform.nfc s)
    (h : Stored env db) : KeyInv env db := by
  obtain ⟨calls, rfl⟩ := h
  have hrun : ∀ s, KeyInv env s → KeyInv env (calls.foldl (StoreCall.effect env) s) := by
    induction calls with
    | nil => exact fun s hs => hs
    | cons call calls ih =>
      intro s hs
      apply ih
      cases call with
      | method op => exact (Op.keepsKeys hnfc op s trivial).1 hs
      | observe run args limitations now =>
        rw [StoreCall.effect, Proc.run_atomically]
        split
        · next hcall => exact hs.persistObservationFrom hnfc hcall
        · exact hs
  exact hrun {} (KeyInv.empty env)

theorem Stored.of_reachable {w : World} (h : Reachable env anyCall w) : Stored env w.db := by
  induction h with
  | refl => exact ⟨[], rfl⟩
  | @call w op before held permitted ih =>
    obtain ⟨calls, hcalls⟩ := ih
    refine ⟨calls ++ [.method op], ?_⟩
    rw [List.foldl_append, hcalls]
    rfl

/-! ## The two passes over the limitations -/

theorem sortedItems_strings (f : String → String) (xs : List String) :
    Json.sortedItems (xs.map fun s => .str (f s)) = xs.map fun s => .str (f s) := by
  induction xs with
  | nil => rfl
  | cons x xs ih =>
    rw [List.map_cons, Json.sortedItems, ih]
    rfl

/-- The hashed text tells the limitations, up to NFC. -/
theorem limitations_eq_of_observationText {P : Platform} {e e' : Envelope} {xs ys : List String}
    {text : List Char} (hxs : e.limitations = .arr (xs.map .str)) (hys : e'.limitations = .arr (ys.map .str))
    (h : P.observationText e = .ok text) (h' : P.observationText e' = .ok text) :
    xs.map P.nfc = ys.map P.nfc := by
  simp only [observationText, bind_ok, Except.ok.injEq] at h h'
  obtain ⟨json, hjson, rfl⟩ := h
  obtain ⟨json', hjson', heq⟩ := h'
  obtain rfl : json' = json := List.append_cancel_left heq
  have hmem : ∀ f : Envelope, ("limitations", f.limitations) ∈ f.members := by simp [Envelope.members]
  obtain ⟨y, y', hy, hy', hsorted⟩ := member_eq_of_canonicalJson hjson hjson' (hmem e) (hmem e')
  rw [hxs, normalizeJson_strings] at hy
  rw [hys, normalizeJson_strings] at hy'
  cases hy
  cases hy'
  rw [Json.sorted, Json.sorted, sortedItems_strings, sortedItems_strings] at hsorted
  have hvalues : (xs.map P.nfc).map Json.str = (ys.map P.nfc).map Json.str := by
    rw [List.map_map, List.map_map]
    exact Json.arr.inj hsorted
  exact List.map_injective_iff.mpr (fun _ _ hstr => Json.str.inj hstr) hvalues

/-- The texts that one call may hash and compare. -/
def limitationTexts (env : Env) (run : RunHandle) (args : ObservationArgs) (limitations : Iterable) :
    Set (List Char) :=
  {text | ∃ definition, env.registry.lookup env.platform run.datasourceId (some run.definitionVersion) =
      .ok definition ∧ ∃ items ∈ [limitations.first, limitations.again],
    env.platform.observationText (upsertEnvelope run definition { args with limitations := items }) =
      .ok text}

/-- An upsert is reproducible exactly if both passes give the same strings. -/
theorem reproducible_upsert_iff {definition : DatasourceDefinition} {args : ObservationArgs}
    {limitations : Iterable} {o : RevisionRow}
    (hlookup : env.registry.lookup env.platform run.datasourceId (some run.definitionVersion) =
      .ok definition) (hkey : o.KeyHashed env)
    (hhash : env.platform.observationHash (upsertEnvelope run definition
      { args with limitations := limitations.first }) = .ok o.recordHash)
    (henv : env.platform.observationHash o.envelope = env.platform.observationHash
      (upsertEnvelope run definition { args with limitations := limitations.again }))
    (hsha : Set.InjOn env.platform.sha256 (limitationTexts env run args limitations)) :
    o.Reproducible env ↔
      limitations.again.map env.platform.nfc = limitations.first.map env.platform.nfc := by
  rw [RevisionRow.Reproducible, henv, and_iff_left hkey]
  constructor
  · intro hagain
    obtain ⟨text, htext, hdigest⟩ := observationHash_ok hhash
    obtain ⟨text', htext', hdigest'⟩ := observationHash_ok hagain
    obtain rfl : text' = text := by
      refine hsha ⟨definition, hlookup, _, ?_, htext'⟩ ⟨definition, hlookup, _, ?_, htext⟩
        (hdigest'.trans hdigest.symm)
      · exact List.mem_cons_of_mem _ (List.mem_singleton_self _)
      · exact List.mem_cons_self
    exact limitations_eq_of_observationText rfl rfl htext' htext
  · intro hsame
    rw [← hhash]
    refine @observationHash_congr env.platform (upsertEnvelope run definition
      { args with limitations := limitations.first }) _ _ _ rfl rfl ?_
    show env.platform.normalizeJson (.arr (limitations.again.map .str)) =
      env.platform.normalizeJson (.arr (limitations.first.map .str))
    have hvalues := congrArg (List.map Json.str) hsame
    rw [List.map_map, List.map_map] at hvalues
    rw [normalizeJson_strings, normalizeJson_strings]
    exact congrArg (fun items => Except.ok (Json.arr items)) hvalues

/-- Tombstones are reproducible, and an upsert is exactly if the limitations can be read twice. -/
theorem reproducible_iff (hnfc : ∀ s, env.platform.nfc (env.platform.nfc s) = env.platform.nfc s)
    (h : Stored env db) :
    (∀ run proof now ids db', finalizeFullSnapshot env run proof now db = .ok (ids, db') →
      ∀ o ∈ db'.revisions, o ∉ db.revisions → o.Reproducible env) ∧
    ∀ run args limitations now id db',
      persistObservationFrom env run args limitations now db = .ok (id, db') →
      Set.InjOn env.platform.sha256 (limitationTexts env run args limitations) →
      ∀ o ∈ db'.revisions, o ∉ db.revisions → (o.Reproducible env ↔
        limitations.again.map env.platform.nfc = limitations.first.map env.platform.nfc) := by
  constructor
  · intro run proof now ids db' hcall o ho hnew
    obtain ⟨-, tombstones, hrevisions, htombstones⟩ := finalizeFullSnapshot_rows (h.keyInv hnfc) hcall
    rw [hrevisions] at ho
    exact htombstones o ((List.mem_append.mp ho).resolve_left hnew)
  · intro run args limitations now id db' hcall hsha o ho hnew
    rcases persistObservationFrom_row hnfc hcall with ⟨hrevisions, -⟩ |
      ⟨definition, q, hlookup, -, hrevisions, -, hkey, hhash, henv⟩
    · exact absurd (hrevisions ▸ ho) hnew
    · rw [hrevisions] at ho
      obtain rfl := List.mem_singleton.mp ((List.mem_append.mp ho).resolve_left hnew)
      exact reproducible_upsert_iff hlookup hkey hhash henv hsha

namespace Sample

/-- A composed text starts with an accent only if the text did. -/
theorem head_composeAcute {cs t : List Char} (h : composeAcute cs = '\u0301' :: t) :
    ∃ t', cs = '\u0301' :: t' := by
  unfold composeAcute at h
  split at h
  · exact absurd (List.cons.inj h).1 (by decide)
  · next c cs _ =>
    obtain rfl := (List.cons.inj h).1
    exact ⟨cs, rfl⟩
  · exact nomatch h

theorem composeAcute_idem (cs : List Char) : composeAcute (composeAcute cs) = composeAcute cs := by
  induction cs using composeAcute.induct with
  | case1 cs ih =>
    rw [composeAcute, composeAcute, ih]
    exact fun _ h => absurd h (by decide)
  | case2 c cs hplain ih =>
    rw [composeAcute, composeAcute, ih]
    · -- composing brings no accent behind the letter
      intro t hc ht
      obtain ⟨t', rfl⟩ := head_composeAcute ht
      exact hplain t' hc rfl
    · exact hplain
  | case3 => rfl

theorem nfc_idem (s : String) : platform.nfc (platform.nfc s) = platform.nfc s := by
  show nfc (nfc s) = nfc s
  by_cases hascii : s.toByteArray.data.toList.all (· < 128)
  · have hs : nfc s = s := if_pos hascii
    rw [hs, hs]
  · have hs : nfc s = String.ofList (composeAcute s.toList) := if_neg hascii
    rw [hs]
    unfold nfc
    split
    · rfl
    · rw [String.toList_ofList, composeAcute_idem]

/-- The run that has stored a page. -/
def capturedRun : RunHandle where
  runId := "run_3"
  attemptId := "attempt_2"
  jobId := "job_0"
  claimToken := "claim_1"
  datasourceId := "uk.rents"
  definitionVersion := 1
  lane := .productionIngestion

/-- The rent found on the page. -/
def capturedRent : ObservationArgs where
  recordKey := ["rent", "E1"]
  payload := [("value", .int 7)]
  recordType := "metric"
  category := "rents"
  evidence := [⟨"ev_4", "artifact", none⟩]

/-- The rows that a call adds, if it succeeds. -/
def addedRows (limitations : Iterable) : List RevisionRow :=
  match persistObservationFrom Sample.env capturedRun capturedRent limitations (tick 5) captured.db with
  | .ok (_, db) => db.revisions.filter fun o => o ∉ captured.db.revisions
  | .error _ => []

theorem mem_addedRows {limitations : Iterable} {o : RevisionRow} (h : o ∈ addedRows limitations) :
    ∃ id db, persistObservationFrom Sample.env capturedRun capturedRent limitations (tick 5) captured.db =
      .ok (id, db) ∧ o ∈ db.revisions ∧ o ∉ captured.db.revisions := by
  unfold addedRows at h
  split at h
  · next id db hcall =>
    obtain ⟨ho, hnew⟩ := List.mem_filter.mp h
    exact ⟨id, db, hcall, ho, of_decide_eq_true hnew⟩
  · exact nomatch h

theorem captured_stored : Stored Sample.env captured.db := .of_reachable captured_reachable

end Sample

/-- A tuple of limitations is hashed and stored alike. -/
theorem reproducible_iff_tuple : ∃ o ∈ Sample.addedRows (.ofList ["provisional"]),
    o.Reproducible Sample.env := by
  have hadded : (Sample.addedRows (.ofList ["provisional"])).length = 1 := by decide +kernel
  obtain ⟨o, ho⟩ := List.exists_mem_of_length_pos (hadded ▸ Nat.one_pos)
  obtain ⟨id, db, hcall, hmem, hnew⟩ := Sample.mem_addedRows ho
  refine ⟨o, ho, ((reproducible_iff Sample.nfc_idem Sample.captured_stored).2 _ _ _ _ id db hcall ?_ o hmem
    hnew).mpr rfl⟩
  -- both passes give one text
  rintro text ⟨d, hd, items, hitems, htext⟩ text' ⟨d', hd', items', hitems', htext'⟩ -
  obtain rfl := Except.ok.inj (hd.symm.trans hd')
  have hone : ∀ xs ∈ [["provisional"], ["provisional"]], xs = ["provisional"] := by simp
  rw [hone items hitems] at htext
  rw [hone items' hitems'] at htext'
  exact Except.ok.inj (htext.symm.trans htext')

/-- A generator of limitations is hashed, and an empty list is stored. -/
theorem not_reproducible : ¬ ∀ run args limitations now id db db', Stored Sample.env db →
    persistObservationFrom Sample.env run args limitations now db = .ok (id, db') →
      ∀ o ∈ db'.revisions, o ∉ db.revisions → o.Reproducible Sample.env := by
  intro hall
  have hadded : (Sample.addedRows (.generator ["provisional"])).any (fun o => decide
      ((Sample.platform.observationHash o.envelope).toOption ≠ some o.recordHash)) = true := by
    decide +kernel
  obtain ⟨o, ho, hwrong⟩ := List.any_eq_true.mp hadded
  obtain ⟨id, db, hcall, hmem, hnew⟩ := Sample.mem_addedRows ho
  have hhash := (hall _ _ _ _ id _ db Sample.captured_stored hcall o hmem hnew).1
  exact of_decide_eq_true hwrong (congrArg Except.toOption hhash)

end NanFung
