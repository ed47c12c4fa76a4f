import NanFung.Selections

/-!
# Revocation

`revoke_promotion` appends a decision to the history of a run; the readers take the newest decision
there is. A revocation therefore withdraws the run from every read that sees it, and no other, if it
is not older than the approval it revokes. It accepts an older time too: then the approval stays in
force, and the next revocation is another new row.
-/

namespace NanFung

open Table

variable {env : Env} {G : Guard} {T now : Time} {db db' : Db} {runId : String}

/-! ## The decisions about a run -/

/-- The order in which the decisions about a run count. -/
def PromotionRow.rank (p : PromotionRow) : Lex (Time × Nat) := toLex (p.decisionAt, p.promotionSeq)

/-- The decisions about a run, and those made by an instant. -/
def Db.decisionsOf (db : Db) (runId : String) : List PromotionRow :=
  db.promotions.filter fun p => p.runId = runId

def Db.decisionsBy (db : Db) (T : Time) (runId : String) : List PromotionRow :=
  db.promotions.filter fun p => p.runId = runId ∧ p.decisionAt ≤ T

theorem latestPromotion?_eq (db : Db) (runId : String) :
    db.latestPromotion? runId = newest PromotionRow.rank (db.decisionsOf runId) := rfl

theorem decisionAt_eq (db : Db) (T : Time) (runId : String) :
    db.decisionAt T runId = newest PromotionRow.rank (db.decisionsBy T runId) := rfl

/-- A new promotion has the highest number. -/
theorem lt_nextPromotionSeq {p : PromotionRow} (hp : p ∈ db.promotions) :
    p.promotionSeq < db.nextPromotionSeq := by
  have hne : db.promotions.map (·.promotionSeq) ≠ [] := by
    intro hnil
    rw [List.map_eq_nil_iff.mp hnil] at hp
    exact nomatch hp
  obtain ⟨m, hm⟩ := Option.isSome_iff_exists.mp (List.isSome_max?_of_ne_nil hne)
  have hle := (List.max?_eq_some_iff.mp hm).2 _ (List.mem_map_of_mem hp)
  unfold Db.nextPromotionSeq
  rw [hm]
  exact Nat.lt_succ_of_le hle

/-- A row that revokes a run. -/
structure Revokes (db : Db) (runId : String) (now : Time) (q : PromotionRow) : Prop where
  run : q.runId = runId
  decision : q.decision = .revoked
  decisionAt : q.decisionAt = now
  seq : q.promotionSeq = db.nextPromotionSeq

/-- A revocation that is not older than a decision counts before it. -/
theorem Revokes.rank_lt {q p : PromotionRow} (h : Revokes db runId now q) (hp : p ∈ db.promotions)
    (hle : p.decisionAt ≤ now) : p.rank < q.rank := by
  unfold PromotionRow.rank
  rw [Prod.Lex.toLex_lt_toLex, h.decisionAt, h.seq]
  rcases hle.lt_or_eq with hlt | heq
  · exact Or.inl hlt
  · exact Or.inr ⟨heq, lt_nextPromotionSeq hp⟩

/-- What a call of `revoke_promotion` does that creates a row. -/
theorem revokePromotion_created {actorId : String} {reason : Option String}
    {r : PromotionRevocationResult}
    (h : revokePromotion env runId actorId reason now db = .ok (r, db'))
    (hcreated : r.created = true) :
    runId ≠ "" ∧ (∃ run ∈ db.runs.find? fun r => r.runId = runId,
      (db.attempts.find? fun a => a.attemptId = run.attemptId).isSome) ∧
    ∃ q, Revokes db runId now q ∧
      db' = { db with promotions := db.promotions ++ [q], drawn := db.drawn + 1 } := by
  simp only [revokePromotion, bind_ok, require_ok, orThrow_ok] at h
  obtain ⟨-, hrunId, -, -, p, -, run, hrun, attempt, hattempt, h⟩ := h
  split at h
  · cases h
    cases hcreated
  · simp only [bind_ok, require_ok, insertPromotion, Except.ok.injEq, Prod.mk.injEq] at h
    obtain ⟨-, -, -, -, details, -, ⟨id, db₁⟩, ⟨-, -, -, rfl⟩, -, rfl⟩ := h
    exact ⟨hrunId, ⟨run, hrun, by rw [hattempt]; rfl⟩, _, ⟨rfl, rfl, rfl, rfl⟩, rfl⟩

/-- A call that finds the run revoked changes nothing. -/
theorem revokePromotion_revoked {actorId : String} {reason : Option String} {p : PromotionRow}
    (hrunId : runId ≠ "") (hactor : actorId ≠ "") (hp : db.latestPromotion? runId = some p)
    (hrevoked : p.decision = .revoked)
    (hrun : ∃ run ∈ db.runs.find? fun r => r.runId = runId,
      (db.attempts.find? fun a => a.attemptId = run.attemptId).isSome) :
    revokePromotion env runId actorId reason now db = .ok (⟨runId, p.promotionId, false⟩, db) := by
  obtain ⟨run, hfind, hattempt⟩ := hrun
  obtain ⟨attempt, hattempt⟩ := Option.isSome_iff_exists.mp hattempt
  have hfind : (db.runs.find? fun r => r.runId = runId) = some run := hfind
  simp only [revokePromotion, bind_ok, require_ok, orThrow_ok]
  refine ⟨(), hrunId, (), hactor, p, hp, run, hfind, attempt, hattempt, ?_⟩
  rw [if_pos hrevoked]

/-- A call that creates no row has found the run revoked. -/
theorem revokePromotion_not_created {actorId : String} {reason : Option String} {id : String}
    (h : revokePromotion env runId actorId reason now db = .ok (⟨runId, id, false⟩, db')) :
    ∃ p, db.latestPromotion? runId = some p ∧ p.decision = .revoked := by
  simp only [revokePromotion, bind_ok, require_ok, orThrow_ok] at h
  obtain ⟨-, -, -, -, p, hp, run, -, attempt, -, h⟩ := h
  split at h
  · next hrevoked => exact ⟨p, hp, hrevoked⟩
  · simp only [bind_ok, require_ok, insertPromotion, Except.ok.injEq, Prod.mk.injEq] at h
    obtain ⟨-, -, -, -, details, -, ⟨id, db₁⟩, -, hresult, -⟩ := h
    cases (PromotionRevocationResult.mk.inj hresult).2.2

/-! ## After a revocation -/

section After

variable {q : PromotionRow} (hq : Revokes db runId now q)
  (hdb : db' = { db with promotions := db.promotions ++ [q], drawn := db.drawn + 1 })

include hq hdb

theorem decisionsOf_revoked : db'.decisionsOf runId = db.decisionsOf runId ++ [q] := by
  unfold Db.decisionsOf
  rw [hdb, List.filter_append, List.filter_singleton, decide_eq_true hq.run, cond_true]

theorem latestPromotion?_other {other : String} (hne : other ≠ runId) :
    db'.latestPromotion? other = db.latestPromotion? other := by
  have hskip : ¬ q.runId = other := fun h => hne (h.symm.trans hq.run)
  unfold Db.latestPromotion?
  rw [hdb, List.filter_append, List.filter_singleton, decide_eq_false hskip, cond_false,
    List.append_nil]

theorem decisionAt_other {other : String} (hne : other ≠ runId) (T : Time) :
    db'.decisionAt T other = db.decisionAt T other := by
  have hskip : ¬ (q.runId = other ∧ q.decisionAt ≤ T) := fun h => hne (h.1.symm.trans hq.run)
  unfold Db.decisionAt
  rw [hdb, List.filter_append, List.filter_singleton, decide_eq_false hskip, cond_false,
    List.append_nil]

/-- A timely revocation is the newest decision. -/
theorem latestPromotion?_revoked {p : PromotionRow} (hp : db.latestPromotion? runId = some p)
    (hle : p.decisionAt ≤ now) : db'.latestPromotion? runId = some q := by
  rw [latestPromotion?_eq, decisionsOf_revoked hq hdb]
  apply newest_append_newer
  intro s hs
  have hrank := (newest_spec hp).2 s hs
  exact lt_of_le_of_lt hrank (hq.rank_lt (List.mem_of_mem_filter (newest_spec hp).1) hle)

/-- An early one leaves the approval the newest decision. -/
theorem latestPromotion?_early {p : PromotionRow} (hp : db.latestPromotion? runId = some p)
    (hlt : now < p.decisionAt) : db'.latestPromotion? runId = some p := by
  rw [latestPromotion?_eq, decisionsOf_revoked hq hdb]
  apply newest_append_older hp
  refine Prod.Lex.toLex_lt_toLex.mpr (Or.inl ?_)
  rw [hq.decisionAt]
  exact hlt

/-- A timely revocation is the newest decision at every later anchor. -/
theorem decisionAt_revoked {p : PromotionRow} (hp : db.latestPromotion? runId = some p)
    (hle : p.decisionAt ≤ now) (hT : now ≤ T) : db'.decisionAt T runId = some q := by
  have hseen : q.runId = runId ∧ q.decisionAt ≤ T := ⟨hq.run, hq.decisionAt ▸ hT⟩
  rw [decisionAt_eq, Db.decisionsBy, hdb, List.filter_append, List.filter_singleton,
    decide_eq_true hseen, cond_true]
  apply newest_append_newer
  intro s hs
  obtain ⟨hs, hrun⟩ := List.mem_filter.mp hs
  have hrun := of_decide_eq_true hrun
  have hrank := (newest_spec hp).2 s (List.mem_filter.mpr ⟨hs, decide_eq_true hrun.1⟩)
  exact lt_of_le_of_lt hrank (hq.rank_lt (List.mem_of_mem_filter (newest_spec hp).1) hle)

/-- The view loses the rows of the run and no others. -/
theorem mem_canonicalEvents_revoked {p : PromotionRow} (hp : db.latestPromotion? runId = some p)
    (hle : p.decisionAt ≤ now) {e : CanonicalEvent} :
    e ∈ db'.canonicalEvents ↔ e ∈ db.canonicalEvents ∧ e.canonicalRunId ≠ runId := by
  have hlatest := latestPromotion?_revoked hq hdb hp hle
  have hother : ∀ {other}, other ≠ runId → _ := fun hne => latestPromotion?_other hq hdb hne
  constructor
  · intro he
    obtain ⟨l, hl, r, hr, a, ha, c, hc, o, ho, s, hs, hcond, rfl⟩ := mem_canonicalEvents.mp he
    have hne : l.runId ≠ runId := by
      intro hrun
      rw [hrun, hlatest] at hs
      rw [← Option.some.inj hs, hq.decision] at hcond
      exact nomatch hcond.2.2.2
    rw [hother hne] at hs
    rw [hdb] at hl hr ha ho
    exact ⟨mem_canonicalEvents.mpr ⟨l, hl, r, hr, a, ha, c, hc, o, ho, s, hs, hcond, rfl⟩, hne⟩
  · rintro ⟨he, hne⟩
    obtain ⟨l, hl, r, hr, a, ha, c, hc, o, ho, s, hs, hcond, rfl⟩ := mem_canonicalEvents.mp he
    rw [← hother hne] at hs
    refine mem_canonicalEvents.mpr ⟨l, ?_, r, ?_, a, ?_, c, hc, o, ?_, s, hs, hcond, rfl⟩
    all_goals rw [hdb]; assumption

/-- At a later anchor the query loses the rows of the run and no others. -/
theorem mem_eligible_revoked {p : PromotionRow} (hp : db.latestPromotion? runId = some p)
    (hle : p.decisionAt ≤ now) (hT : now ≤ T) {e : CanonicalRow} :
    e ∈ db'.eligible T ↔ e ∈ db.eligible T ∧ e.canonicalRunId ≠ runId := by
  have hrevoked : db'.promotionAt T runId = none := by
    unfold Db.promotionAt
    rw [decisionAt_revoked hq hdb hp hle hT, Option.filter_some, hq.decision]
    rfl
  have hrow : ∀ l : RunObservationRow, l.runId ≠ runId → db'.eligibleRow T l = db.eligibleRow T l := by
    intro l hne
    unfold Db.eligibleRow Db.promotionAt
    rw [decisionAt_other hq hdb hne, hdb]
    rfl
  have hlinks : db'.runObservations = db.runObservations := by rw [hdb]
  have hrun : ∀ (s : Db) (l : RunObservationRow), s.eligibleRow T l = some e →
      e.canonicalRunId = l.runId ∧ s.promotionAt T l.runId ≠ none := by
    intro s l hl
    simp only [Db.eligibleRow, Option.bind_eq_bind, Option.bind_eq_some_iff,
      Option.ite_none_right_eq_some, Option.some.injEq] at hl
    obtain ⟨x, -, o, -, s, hs, d, -, -, rfl⟩ := hl
    exact ⟨rfl, by simp [hs]⟩
  simp only [Db.eligible, List.mem_filterMap, hlinks]
  constructor
  · rintro ⟨l, hl, he⟩
    obtain ⟨hid, hpromoted⟩ := hrun db' l he
    have hne : l.runId ≠ runId := fun h => hpromoted (h ▸ hrevoked)
    exact ⟨⟨l, hl, hrow l hne ▸ he⟩, hid ▸ hne⟩
  · rintro ⟨⟨l, hl, he⟩, hne⟩
    obtain ⟨hid, -⟩ := hrun db l he
    exact ⟨l, hl, (hrow l (hid ▸ hne)).trans he⟩

end After

/-! ## The theorem -/

/-- The order in which the rows of the view and of the query are preferred. -/
def CanonicalEvent.rank (e : CanonicalEvent) : Lex (Nat × Lex (Time × String)) :=
  toLex (e.revision.revisionNo, toLex (e.runCompletedAt, e.canonicalRunId))

def CanonicalRow.rank (e : CanonicalRow) : Lex (Nat × Lex (Time × String)) :=
  toLex (e.revision.revisionNo, toLex (e.availableAt, e.canonicalRunId))

/-- A revocation takes effect, and only forward. -/
structure Withdrawn (env : Env) (db db' : Db) (runId : String) (now : Time) : Prop where
  latest : ∀ e ∈ db'.canonicalLatest, e.canonicalRunId ≠ runId
  asOf : ∀ T, now ≤ T → ∀ classes, ∀ e ∈ db'.canonicalAsOf T classes, e.canonicalRunId ≠ runId
  past : ∀ T, T < now → ∀ classes recordType,
    db'.canonicalRecords T classes recordType = db.canonicalRecords T classes recordType
  /-- A record that other approved runs carry is seen through the one the view prefers. -/
  othersLatest : ∀ f ∈ db.canonicalEvents, f.canonicalRunId ≠ runId →
    f.revision.revisionAction = .upsert →
    (∀ g ∈ db.canonicalEvents, g.canonicalRunId ≠ runId → g.record = f.record →
      g.rank ≤ f.rank) → f ∈ db'.canonicalLatest
  othersAsOf : ∀ T, now ≤ T → ∀ classes, ∀ f ∈ db.eligible T, f.availableAt ≤ T →
    f.canonicalRunId ≠ runId → f.revision.revisionAction = .upsert →
    f.definition.accessClass ∈ classes →
    (∀ g ∈ db.eligible T, g.availableAt ≤ T → g.canonicalRunId ≠ runId → g.record = f.record →
      g.rank ≤ f.rank) → f ∈ db'.canonicalAsOf T classes
  /-- The run is revoked: revoking it again changes nothing. -/
  again : ∀ actorId, actorId ≠ "" → ∀ reason now', ∃ id,
    revokePromotion env runId actorId reason now' db' = .ok (⟨runId, id, false⟩, db')

/-- A revocation is the effect of one row. -/
theorem Revokes.effect {q p : PromotionRow} (hq : Revokes db runId now q)
    (hp : db.latestPromotion? runId = some p) : Effect env Guard.any now
      { db with drawn := db.drawn }
      { db with promotions := db.promotions ++ [q], drawn := db.drawn + 1 } := by
  refine .revoke db q hq.decision hq.decisionAt ⟨p, ?_, ?_⟩
  · exact (latestPromotion?_mem hp).1
  · exact (latestPromotion?_mem hp).2.trans hq.run.symm

theorem withdrawn_of_le (hinv : StoreInv env db) {actorId : String} {reason : Option String}
    {r : PromotionRevocationResult} {p : PromotionRow} (hp : db.latestPromotion? runId = some p)
    (h : revokePromotion env runId actorId reason now db = .ok (r, db'))
    (hcreated : r.created = true) (hle : p.decisionAt ≤ now) : Withdrawn env db db' runId now := by
  obtain ⟨hrunId, hrun, q, hq, hdb⟩ := revokePromotion_created h hcreated
  have heffect : Effect env Guard.any now { db with drawn := db.drawn } _ := hq.effect hp
  rw [← hdb] at heffect
  have hevents := fun e => mem_canonicalEvents_revoked (e := e) hq hdb hp hle
  have heligible := fun T (hT : now ≤ T) e => mem_eligible_revoked (e := e) hq hdb hp hle hT
  constructor
  · intro e he
    exact ((hevents e).mp (mem_of_mem_topRows (List.mem_of_mem_filter he))).2
  · intro T hT classes e he
    have hmem := List.mem_of_mem_filter (mem_of_mem_topRows (List.mem_of_mem_filter he))
    exact ((heligible T hT e).mp hmem).2
  · intro T hT classes recordType
    exact heffect.canonicalRecords hinv hT classes recordType
  · intro f hf hne haction hbest
    refine List.mem_filter.mpr ⟨mem_topRows.mpr ⟨(hevents f).mpr ⟨hf, hne⟩, ?_⟩, decide_eq_true haction⟩
    intro g hg hrecord
    obtain ⟨hg, hgne⟩ := (hevents g).mp hg
    exact hbest g hg hgne hrecord
  · intro T hT classes f hf havailable hne haction hclass hbest
    refine List.mem_filter.mpr ⟨mem_topRows.mpr ⟨?_, ?_⟩, decide_eq_true ⟨haction, hclass⟩⟩
    · exact List.mem_filter.mpr ⟨(heligible T hT f).mpr ⟨hf, hne⟩, decide_eq_true havailable⟩
    · intro g hg hrecord
      obtain ⟨hg, hgavailable⟩ := List.mem_filter.mp hg
      obtain ⟨hg, hgne⟩ := (heligible T hT g).mp hg
      exact hbest g hg (of_decide_eq_true hgavailable) hgne hrecord
  · intro actorId' hactor reason' now'
    have hlatest := latestPromotion?_revoked hq hdb hp hle
    refine ⟨q.promotionId, revokePromotion_revoked hrunId hactor hlatest hq.decision ?_⟩
    rw [hdb]
    exact hrun

/-- In every reachable store, a revocation of an approved run takes effect, and only forward, exactly
if it is not dated before the approval. -/
theorem revocation_withdraws_iff (hu : Function.Injective env.platform.uuid) {w : World}
    (h : Reachable env anyCall w) {actorId : String} {reason : Option String}
    {r : PromotionRevocationResult} {p : PromotionRow} (hp : w.db.latestPromotion? runId = some p)
    (happroved : p.decision = .approved)
    (hcall : revokePromotion env runId actorId reason now w.db = .ok (r, db'))
    (hcreated : r.created = true) : Withdrawn env w.db db' runId now ↔ p.decisionAt ≤ now := by
  refine ⟨fun hwithdrawn => ?_, withdrawn_of_le (h.sound hu).store hp hcall hcreated⟩
  by_contra hearly
  obtain ⟨-, -, q, hq, hdb⟩ := revokePromotion_created hcall hcreated
  -- the approval is still the newest decision, so a second call does not find the run revoked
  have hlatest := latestPromotion?_early hq hdb hp (lt_of_not_ge hearly)
  obtain ⟨id, hagain⟩ := hwithdrawn.again "operator" (by decide) none now
  obtain ⟨s, hs, hrevoked⟩ := revokePromotion_not_created hagain
  rw [hlatest] at hs
  rw [← Option.some.inj hs, happroved] at hrevoked
  exact nomatch hrevoked

/-- The sample run is approved at the sixth tick. A revocation dated before that is recorded, and
the run is still seen. -/
theorem Sample.promoted_early : ∃ run ∈ promoted.last runReply,
    ∃ p ∈ promoted.db.latestPromotion? run.runId, p.decision = .approved ∧
    ∃ x ∈ (revokePromotion Sample.env run.runId "operator" none (tick 5) promoted.db).toOption,
      x.1.created = true ∧ ∃ e ∈ x.2.canonicalLatest, e.canonicalRunId = run.runId := by
  decide +kernel

theorem Sample.promoted_late : ∃ run ∈ promoted.last runReply,
    ∃ p ∈ promoted.db.latestPromotion? run.runId, p.decision = .approved ∧
    ∃ x ∈ (revokePromotion Sample.env run.runId "operator" none (tick 8) promoted.db).toOption,
      x.1.created = true := by
  decide +kernel

theorem revocation_withdraws_iff_promoted : ∃ runId p db',
    Withdrawn Sample.env Sample.promoted.db db' runId (Sample.tick 8) ↔
      PromotionRow.decisionAt p ≤ Sample.tick 8 := by
  obtain ⟨run, -, p, hp, happroved, ⟨r, db'⟩, hcall, hcreated⟩ := Sample.promoted_late
  exact ⟨run.runId, p, db', revocation_withdraws_iff Sample.uuid_injective Sample.promoted_reachable
    hp happroved (ok_of_toOption hcall) hcreated⟩

/-- A revocation that is accepted may have no effect. -/
theorem not_revocation_withdraws : ¬ ∀ (w : World) (runId actorId : String) (reason : Option String)
    (now : Time) (p : PromotionRow) (r : PromotionRevocationResult) (db' : Db),
    Reachable Sample.env anyCall w → w.db.latestPromotion? runId = some p →
    p.decision = .approved → revokePromotion Sample.env runId actorId reason now w.db = .ok (r, db') →
    r.created = true → Withdrawn Sample.env w.db db' runId now := by
  intro hall
  obtain ⟨run, -, p, hp, happroved, ⟨r, db'⟩, hcall, hcreated, e, he, hrun⟩ := Sample.promoted_early
  have hwithdrawn := hall _ _ _ _ _ p r db' Sample.promoted_reachable hp happroved
    (ok_of_toOption hcall) hcreated
  exact hwithdrawn.latest e he hrun

end NanFung
