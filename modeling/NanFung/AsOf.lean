import NanFung.Read.Selection
import NanFung.Sample

/-!
# As-of reproducibility

What a reader sees at an anchor is made of rows no later write touches: a run counts only once its
attempt has succeeded, and from then on its row, its attempt, its links and their evidence stay as
they are. A write after the anchor can only add runs that complete later and decisions that are made
later, and the selection cuts both off.
-/

namespace NanFung

open Table

variable {env : Env} {G : Guard} {t T : Time} {db db' : Db}

/-! ## Settled rows -/

/-- A closed attempt stays as it is. -/
theorem Effect.mem_attempts_closed (e : Effect env G t db db') (hinv : db.Leases) {a : AttemptRow}
    (ha : a ∈ db.attempts) (hclosed : a.status ≠ .running) : a ∈ db'.attempts := by
  cases e with
  | start | startSystem => exact List.mem_append_left _ ha
  | heartbeat => exact mem_updateWhere.mpr (Or.inr ⟨ha, by simp [hclosed]⟩)
  | close j b status state completedAt availableAt heartbeatAt error promotion drawn job jobRunning
      attempt attemptJob attemptRunning =>
    refine mem_updateWhere.mpr (Or.inr ⟨ha, decide_eq_false fun hid => hclosed ?_⟩)
    rw [hinv.attempts_keyed.eq_of_mem ha attempt hid, attemptRunning]
  | _ => exact ha

/-- A closed attempt was closed before, or has just been. -/
theorem Effect.of_mem_attempts (e : Effect env G t db db') {a : AttemptRow} (ha : a ∈ db'.attempts)
    (hclosed : a.status ≠ .running) : a ∈ db.attempts ∨ a.completedAt = some t := by
  cases e with
  | start j b r job state datasource version attemptJob attemptRunning =>
    rcases List.mem_append.mp ha with ha | ha
    · exact Or.inl ha
    · rw [List.mem_singleton.mp ha, attemptRunning] at hclosed
      exact absurd rfl hclosed
  | startSystem j b job state system attemptJob attemptRunning =>
    rcases List.mem_append.mp ha with ha | ha
    · exact Or.inl ha
    · rw [List.mem_singleton.mp ha, attemptRunning] at hclosed
      exact absurd rfl hclosed
  | heartbeat =>
    rcases mem_updateWhere.mp ha with ⟨b, -, hp, rfl⟩ | ⟨ha, -⟩
    · simp only [decide_eq_true_eq] at hp
      exact absurd hp.2 hclosed
    · exact Or.inl ha
  | close =>
    rcases mem_updateWhere.mp ha with ⟨b, -, -, rfl⟩ | ⟨ha, -⟩
    · exact Or.inr rfl
    · exact Or.inl ha
  | _ => exact Or.inl ha

/-- A run has a row in its place before a write, unless the write started it. -/
theorem Effect.of_mem_runs (e : Effect env G t db db') {s : RunRow} (hs : s ∈ db'.runs) :
    (∃ r ∈ db.runs, r.runId = s.runId ∧ r.attemptId = s.attemptId ∧ r.lane = s.lane) ∨
      s.status = .running := by
  cases e with
  | start j a r job state datasource version attemptJob attemptRunning newAttempt runAttempt runJob
      runRunning =>
    rcases List.mem_append.mp hs with hs | hs
    · exact Or.inl ⟨s, hs, rfl, rfl, rfl⟩
    · exact Or.inr (List.mem_singleton.mp hs ▸ runRunning)
  | close | count | declareScope | completeSnapshot =>
    rcases mem_updateWhere.mp hs with ⟨r, hr, -, rfl⟩ | ⟨hs, -⟩
    · exact Or.inl ⟨r, hr, rfl, rfl, rfl⟩
    · exact Or.inl ⟨s, hs, rfl, rfl, rfl⟩
  | _ => exact Or.inl ⟨s, hs, rfl, rfl, rfl⟩

/-! ## Runs that have succeeded -/

theorem Db.Leases.succeededAt_eq_some (h : db.Leases) {runId : String} {lane : Lane} {c : Time} :
    db.succeededAt T runId = some (lane, c) ↔ ∃ r ∈ db.runs, r.runId = runId ∧ r.lane = lane ∧
      ∃ a ∈ db.attempts, a.attemptId = r.attemptId ∧ a.status = .succeeded ∧
        a.completedAt = some c ∧ c ≤ T := by
  simp only [Db.succeededAt, Option.bind_eq_bind, Option.bind_eq_some_iff,
    Option.ite_none_right_eq_some, Option.some.injEq, Prod.mk.injEq]
  constructor
  · rintro ⟨r, hr, a, ha, c', hc', ⟨hs, hle⟩, rfl, rfl⟩
    obtain ⟨hrmem, hrid⟩ := h.runs_keyed.find?_eq_some.mp hr
    obtain ⟨hamem, haid⟩ := h.attempts_keyed.find?_eq_some.mp ha
    exact ⟨r, hrmem, hrid, rfl, a, hamem, haid, hs, hc', hle⟩
  · rintro ⟨r, hr, hrid, hlane, a, ha, haid, hs, hc, hle⟩
    exact ⟨r, h.runs_keyed.find?_eq_some.mpr ⟨hr, hrid⟩, a,
      h.attempts_keyed.find?_eq_some.mpr ⟨ha, haid⟩, c, hc, ⟨hs, hle⟩, hlane, rfl⟩

/-- An open run has not succeeded. -/
theorem Db.Active.not_succeeded (hinv : db.Leases) {h : RunHandle} {j : JobRow} {a : AttemptRow}
    {r : RunRow} (hactive : db.Active h j a r) : db.succeededAt T h.runId = none := by
  rw [Option.eq_none_iff_forall_not_mem]
  rintro ⟨lane, c⟩ hsome
  obtain ⟨s, hs, hsid, -, b, hb, hbid, hstatus, -⟩ := hinv.succeededAt_eq_some.mp hsome
  obtain rfl : s = r := hinv.runs_keyed.eq_of_mem hs hactive.run (hsid.trans hactive.runId.symm)
  obtain rfl : b = a := hinv.attempts_keyed.eq_of_mem hb hactive.attempt
    (hbid.trans (hactive.runAttempt.trans hactive.attemptId.symm))
  exact nomatch hstatus.symm.trans hactive.attemptRunning

/-- A write after the anchor changes no run that had succeeded by then, and adds none. -/
theorem Effect.succeededAt (e : Effect env G t db db') (hinv : db.Leases) (hT : T < t)
    (runId : String) : db'.succeededAt T runId = db.succeededAt T runId := by
  have hinv' := e.leases hinv
  refine Option.ext fun x => ?_
  obtain ⟨lane, c⟩ := x
  rw [hinv'.succeededAt_eq_some, hinv.succeededAt_eq_some]
  constructor
  · rintro ⟨s, hs, hsid, hlane, a, ha, haid, hstatus, hc, hle⟩
    have hclosed : a.status ≠ .running := by simp [hstatus]
    have hold : a ∈ db.attempts := by
      refine (e.of_mem_attempts ha hclosed).resolve_right fun hnew => ?_
      rw [hc] at hnew
      exact absurd hle (not_le_of_gt (Option.some.inj hnew ▸ hT))
    rcases e.of_mem_runs hs with ⟨r, hr, hrid, hra, hrl⟩ | hrunning
    · exact ⟨r, hr, hrid.trans hsid, hrl.trans hlane, a, hold, haid.trans hra.symm, hstatus, hc, hle⟩
    · obtain ⟨b, hb, hbs, -, hbst⟩ := hinv'.run_attempt s hs
      rw [hinv'.attempts_keyed.eq_of_mem hb ha (hbs.trans haid.symm)] at hbst
      exact absurd (hbst.trans hrunning) hclosed
  · rintro ⟨r, hr, hrid, hlane, a, ha, haid, hstatus, hc, hle⟩
    obtain ⟨s, hs, hsid, hsa, -, -, -, hsl⟩ := e.mem_runs hr
    exact ⟨s, hs, hsid.trans hrid, hsl.trans hlane, a, e.mem_attempts_closed hinv ha (by simp [hstatus]),
      haid.trans hsa.symm, hstatus, hc, hle⟩

/-! ## What belongs to a succeeded run -/

/-- A decision made after the anchor is not seen at it. -/
theorem Effect.decisionAt (e : Effect env G t db db') (hT : T < t) (runId : String) :
    db'.decisionAt T runId = db.decisionAt T runId := by
  have hlater : ∀ ps : List PromotionRow, (∀ p ∈ ps, p.decisionAt = t) →
      ps.filter (fun p => p.runId = runId ∧ p.decisionAt ≤ T) = [] := by
    intro ps hps
    refine List.filter_eq_nil_iff.mpr fun p hp => ?_
    simp [hps p hp, hT]
  unfold Db.decisionAt
  cases e with
  | close j a status state completedAt availableAt heartbeatAt error promotion drawn job jobRunning
      attempt attemptJob attemptRunning closed released later promoted =>
    rw [List.filter_append, hlater promotion.toList, List.append_nil]
    exact fun p hp => (promoted p (Option.mem_toList.mp hp)).decisionAt
  | promoteReview p m manual =>
    rw [List.filter_append, hlater [p], List.append_nil]
    exact fun q hq => List.mem_singleton.mp hq ▸ manual.decisionAt
  | revoke p decision decisionAt =>
    rw [List.filter_append, hlater [p], List.append_nil]
    exact fun q hq => List.mem_singleton.mp hq ▸ decisionAt
  | _ => rfl

/-- The evidence of a succeeded run's observations is complete. -/
theorem Effect.evidenceOf (e : Effect env G t db db') (hinv : StoreInv env db) {runId : String}
    (hrun : db.succeededAt T runId ≠ none) (observationId : String) :
    db'.evidenceOf runId observationId = db.evidenceOf runId observationId := by
  unfold Db.evidenceOf
  cases e with
  | evidence h j a r f link active linkRun linkEvidence new =>
    refine List.filterMap_congr fun l hl => ?_
    obtain ⟨g, hg, hgl⟩ := hinv.references.observation_evidence l (List.mem_of_mem_filter hl)
    rw [find?_append_of_mem ⟨g, hg, decide_eq_true hgl⟩]
  | linkEvidence h j a r row active run =>
    have hne : row.runId ≠ runId := by
      rintro rfl
      exact hrun (run ▸ active.not_succeeded hinv.leases)
    have hnil : [row].filter (fun l => l.runId = runId ∧ l.observationId = observationId) = [] := by
      simp [hne]
    rw [List.filter_append, hnil, List.append_nil]
  | _ => rfl

/-- The links a write adds belong to an open run. -/
theorem Effect.runObservations (e : Effect env G t db db') (hinv : db.Leases) :
    ∃ links, db'.runObservations = db.runObservations ++ links ∧
      ∀ l ∈ links, db.succeededAt T l.runId = none := by
  cases e with
  | revise h j a r o active | link h j a r o active =>
    exact ⟨_, rfl, fun l hl => List.mem_singleton.mp hl ▸ active.not_succeeded hinv⟩
  | _ => exact ⟨[], (List.append_nil _).symm, fun _ hl => nomatch hl⟩

theorem Effect.find?_revisions (e : Effect env G t db db') {id : String}
    (h : ∃ o ∈ db.revisions, o.observationId = id) :
    (db'.revisions.find? fun o => o.observationId = id) =
      db.revisions.find? fun o => o.observationId = id := by
  cases e with
  | revise =>
    obtain ⟨o, ho, hoid⟩ := h
    exact find?_append_of_mem ⟨o, ho, decide_eq_true hoid⟩
  | _ => rfl

theorem Effect.definition? (e : Effect env G t db db') {id : String} {version : Nat}
    (h : (db.definition? id version).isSome) :
    db'.definition? id version = db.definition? id version := by
  cases e with
  | define => exact definition?_append h
  | _ => rfl

/-! ## The selection -/

/-- A write after the anchor does not change the row a link gives. -/
theorem Effect.eligibleRow (e : Effect env G t db db') (hinv : StoreInv env db) (hT : T < t)
    {l : RunObservationRow} (hl : l ∈ db.runObservations) :
    db'.eligibleRow T l = db.eligibleRow T l := by
  unfold Db.eligibleRow Db.promotionAt
  rw [e.succeededAt hinv.leases hT, e.find?_revisions (hinv.references.observation_revision l hl),
    e.decisionAt hT]
  cases hrun : db.succeededAt T l.runId with
  | none => rfl
  | some x =>
    have hne : db.succeededAt T l.runId ≠ none := by simp [hrun]
    have hevidence := e.evidenceOf hinv hne l.observationId
    simp only [Option.bind_eq_bind, Option.bind_some, hevidence]
    refine Option.bind_congr fun o ho => ?_
    rw [e.definition? (hinv.references.revision_defined o (List.mem_of_find?_eq_some ho))]

theorem Effect.eligible (e : Effect env G t db db') (hinv : StoreInv env db) (hT : T < t) :
    db'.eligible T = db.eligible T := by
  obtain ⟨links, hlinks, hopen⟩ := e.runObservations hinv.leases (T := T)
  have hnew : links.filterMap (db'.eligibleRow T) = [] := by
    refine List.filterMap_eq_nil_iff.mpr fun l hl => ?_
    unfold Db.eligibleRow
    rw [e.succeededAt hinv.leases hT, hopen l hl]
    rfl
  unfold Db.eligible
  rw [hlinks, List.filterMap_append, hnew, List.append_nil]
  exact List.filterMap_congr fun l hl => e.eligibleRow hinv hT hl

/-- A selected row belongs to a run that has succeeded. -/
theorem succeededAt_of_mem_canonicalAsOf {classes : List AccessClass} {e : CanonicalRow}
    (h : e ∈ db.canonicalAsOf T classes) : db.succeededAt T e.canonicalRunId ≠ none := by
  have heligible : e ∈ db.eligible T :=
    List.mem_of_mem_filter (mem_of_mem_topRows (List.mem_of_mem_filter h))
  obtain ⟨l, -, hrow⟩ := List.mem_filterMap.mp heligible
  simp only [Db.eligibleRow, Option.bind_eq_bind, Option.bind_eq_some_iff,
    Option.ite_none_right_eq_some, Option.some.injEq] at hrow
  obtain ⟨x, hx, o, -, p, -, d, -, -, rfl⟩ := hrow
  simp [hx]

theorem Effect.canonicalRecords (e : Effect env G t db db') (hinv : StoreInv env db) (hT : T < t)
    (classes : List AccessClass) (recordType : Option String) :
    db'.canonicalRecords T classes recordType = db.canonicalRecords T classes recordType := by
  have hselection : db'.canonicalAsOf T classes = db.canonicalAsOf T classes := by
    unfold Db.canonicalAsOf
    rw [e.eligible hinv hT]
  unfold Db.canonicalRecords
  rw [hselection]
  refine List.map_congr_left fun row hrow => ?_
  rw [e.evidenceOf hinv (succeededAt_of_mem_canonicalAsOf (List.mem_of_mem_filter hrow))]

namespace Guard

/-- Writes after an anchor. -/
def after (T : Time) : Guard := ⟨fun t => T < t, fun _ _ => True, False, fun _ => True⟩

end Guard

/-- Calls all of whose clock readings are after an anchor. -/
def callsAfter (env : Env) (T : Time) (w : World) (op : Op) : Prop :=
  op.Respects env (Guard.after T) w.db

/-- As-of reproducibility: what any reader is shown at an anchor, for any query kind and with its
evidence, is not changed by any history of calls made after the anchor, failing ones included. -/
theorem as_of_reproducible (hu : Function.Injective env.platform.uuid) {v w : World}
    (hv : Reachable env anyCall v) (h : Continues env (callsAfter env T) v w)
    (classes : List AccessClass) (recordType : Option String) :
    w.db.canonicalRecords T classes recordType = v.db.canonicalRecords T classes recordType := by
  have hsound := hv.sound hu
  have he : Effects env (Guard.after T) v.db w.db := h.effects hu hsound
  exact (he.preserve (I := fun s => StoreInv env s ∧
      s.canonicalRecords T classes recordType = v.db.canonicalRecords T classes recordType)
    (fun hT hstep hI => ⟨hstep.storeInv hI.1, (hstep.canonicalRecords hI.1 hT _ _).trans hI.2⟩)
    ⟨hsound.store, rfl⟩).2

/-- A revocation after the anchor: the record stays visible at the anchor, and is gone later. -/
def revoked : World :=
  match Sample.promoted.last Sample.runReply with
  | some run => Sample.promoted.step Sample.env (.revokePromotion run.runId "operator" none
      (Sample.tick 8))
  | none => Sample.promoted

theorem as_of_reproducible_revoked :
    revoked.db.canonicalRecords (Sample.tick 7) [.open_] (some "metric") =
      Sample.promoted.db.canonicalRecords (Sample.tick 7) [.open_] (some "metric") := by
  refine as_of_reproducible Sample.uuid_injective Sample.promoted_reachable ?_ _ _
  unfold revoked
  split
  · exact Continues.refl.call trivial (show Sample.tick 7 < Sample.tick 8 by decide)
  · exact .refl

example : (revoked.db.canonicalRecords (Sample.tick 7) [.open_] (some "metric")).length = 1 ∧
    revoked.db.canonicalRecords (Sample.tick 8) [.open_] (some "metric") = [] := by decide +kernel

end NanFung
