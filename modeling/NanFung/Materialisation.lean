import NanFung.Sample
import NanFung.Spec.Scheduler

/-!
# Schedules become jobs exactly once

Any ticks, at any clock readings, each of which may stop after any of its writes: a slot of a schedule
has at most one job, which carries what the schedule's row says, and no cursor moves back. A tick that
stops and is made again leaves the jobs that the second tick alone would have made, unless it had
finished a schedule whose window left slots for the next tick.
-/

namespace NanFung

open Table

section

variable {env : Env} {db db' : Db} {now : Time}

/-! ## Jobs of a schedule -/

/-- The columns of a job that its slot determines. -/
def JobRow.slotColumns (j : JobRow) :
    String × Option String × Time × Option String × Option Nat × Option Lane :=
  (j.dedupeKey, j.scheduleId, j.scheduledFor, j.datasourceId, j.definitionVersion, j.lane)

/-- The job is the one that submitting its slot makes, up to what its lease has changed. -/
def ScheduleRow.Submits (env : Env) (r : ScheduleRow) (j : JobRow) : Prop :=
  ∃ definition i n,
    env.registry.lookup env.platform r.datasourceId (some r.definitionVersion) = .ok definition ∧
    slotInsertion env r definition j.scheduledFor = .ok i ∧ j.slotColumns = (i.row n).slotColumns ∧
    ∃ recurrence, recurrenceFromRule env.platform env.zoneInfo r.rule r.timezone r.createdAt =
      .ok recurrence ∧ recurrence.IsSlot j.scheduledFor

/-- The invariant of the schedules: the constraints of the two tables, and every job of a schedule
is that of a slot. -/
structure ScheduleInv (env : Env) (db : Db) : Prop where
  dedupe : Keyed JobRow.dedupeKey db.jobs
  schedules : Keyed ScheduleRow.scheduleId db.schedules
  jobs : ∀ j ∈ db.jobs, ∀ id ∈ j.scheduleId, ∃ r ∈ db.schedules, r.scheduleId = id ∧ r.Submits env j

theorem ScheduleRow.Submits.advances {r r' : ScheduleRow} {j : JobRow} (h : r.Submits env j)
    (ha : r.Advances r') : r'.Submits env j := by
  obtain ⟨_, _, _, _, rfl, -⟩ := ha
  exact h

theorem ScheduleRow.Advances.scheduleId {r r' : ScheduleRow} (h : r.Advances r') :
    r'.scheduleId = r.scheduleId := by
  obtain ⟨_, _, _, _, rfl, -⟩ := h
  rfl

namespace ScheduleInv

/-- Jobs and schedules may change in whatever their slots do not depend on. -/
theorem of_columns (h : ScheduleInv env db)
    (hjobs : db'.jobs.map JobRow.slotColumns = db.jobs.map JobRow.slotColumns)
    (hkeyed : Keyed ScheduleRow.scheduleId db'.schedules) (hgrows : db.Grows db') :
    ScheduleInv env db' := by
  have hkeys : ∀ l : List JobRow,
      l.map JobRow.dedupeKey = (l.map JobRow.slotColumns).map Prod.fst := fun l => by
    rw [List.map_map]
    rfl
  refine ⟨?_, hkeyed, fun j hj id hid => ?_⟩
  · have hdedupe := h.dedupe
    unfold Keyed at hdedupe ⊢
    rwa [hkeys, hjobs, ← hkeys]
  · have hmem := List.mem_map_of_mem (f := JobRow.slotColumns) hj
    rw [hjobs] at hmem
    obtain ⟨i, hi, heq⟩ := List.mem_map.mp hmem
    simp only [JobRow.slotColumns, Prod.mk.injEq] at heq
    obtain ⟨hdedupe, hschedule, hslot, hdatasource, hversion, hlane⟩ := heq
    obtain ⟨r, hr, hrid, hsubmits⟩ := h.jobs i hi id (hschedule ▸ hid)
    obtain ⟨r', hr', ha⟩ := hgrows.schedules r hr
    refine ⟨r', hr', ha.scheduleId.trans hrid, .advances ?_ ha⟩
    obtain ⟨definition, ins, n, hlookup, hins, hcolumns, hrecurrence⟩ := hsubmits
    refine ⟨definition, ins, n, hlookup, hslot ▸ hins, ?_, hslot ▸ hrecurrence⟩
    rw [← hcolumns]
    simp only [JobRow.slotColumns, hdedupe, hschedule, hslot, hdatasource, hversion, hlane]

/-- Insertions of slots that are due keep the invariant. -/
theorem place (h : ScheduleInv env db) {s : ScheduleRow} (hs : s ∈ db.schedules)
    {is : List (Insertion JobRow.dedupeKey)} (his : is <+: (schedulePass env now s).inserts) :
    ScheduleInv env (db.place is) := by
  refine ⟨Keyed.insertAll h.dedupe, h.schedules, fun j hj id hid => ?_⟩
  rcases mem_insertAll hj with hj | ⟨i, hi, n, rfl⟩
  · exact h.jobs j hj id hid
  obtain ⟨definition, recurrence, due, slot, hlookup, hplan, hslot, hi⟩ :=
    mem_schedulePass (his.mem hi)
  have hrow : (i.row n).scheduledFor = slot ∧ (i.row n).scheduleId = some s.scheduleId := by
    simp only [slotInsertion, bind_ok, Except.ok.injEq] at hi
    obtain ⟨plan, hplan, key, -, request, -, rfl⟩ := hi
    exact ⟨(enqueuePlan_ok hplan).2.2.2.2, rfl⟩
  rw [hrow.2] at hid
  obtain ⟨hrecurrence, hdue⟩ := planSchedule_ok hplan
  have hisSlot := ((materializeDueSlots_due hdue).slots_spec slot hslot).1
  refine ⟨s, hs, Option.some.inj hid, definition, i, n, hlookup, ?_, rfl, recurrence, hrecurrence, ?_⟩
  · rw [hrow.1]
    exact hi
  · rw [hrow.1]
    exact hisSlot

theorem finish (h : ScheduleInv env db) {s : ScheduleRow} {rows : List ScheduleRow}
    (hrows : db.Unread (s :: rows)) (now : Time) : ScheduleInv env (db.finish env now s) := by
  have hplace := h.place (hrows.rows_mem s (by simp)) (List.prefix_refl (schedulePass env now s).inserts)
  refine hplace.of_columns rfl (h.schedules.updateWhere (schedulePass_id env now s)) ?_
  exact ⟨List.prefix_rfl, (hrows.grows now).schedules⟩

/-- What a tick did when it ended: the invariant holds, and nothing went back. -/
theorem progress {rows : List ScheduleRow} (h : ScheduleInv env db) (hrows : db.Unread rows)
    (hp : Progress env now rows db db') : ScheduleInv env db' ∧ db.Grows db' := by
  induction hp with
  | done db => exact ⟨h, .refl db⟩
  | part some_ => exact ⟨h.place (hrows.rows_mem _ (by simp)) some_, .of_same rfl rfl⟩
  | next _ ih =>
    obtain ⟨hinv, hgrows⟩ := ih (h.finish hrows now) (hrows.finish now)
    exact ⟨hinv, (hrows.grows now).trans hgrows⟩

end ScheduleInv

/-! ## Recovery -/

/-- One iteration of the recovery, on the jobs. -/
theorem recoverRow_jobs {row : JobRow × Json} (h : recoverRow env now db row = .ok db') :
    ∃ state completedAt availableAt error, db'.jobs = updateWhere
      (fun j => j.jobId = row.1.jobId ∧ ∃ token ∈ row.1.claimToken, j.claimToken = some token)
      (JobRow.release state completedAt availableAt none error) db.jobs := by
  simp only [recoverRow, bind_ok, Except.ok.injEq] at h
  obtain ⟨error, -, ⟨state, availableAt⟩, -, rfl⟩ := h
  refine ⟨state, if state = .deadLetter then some now else none, availableAt, some error, ?_⟩
  have hsame : (if row.1.state = .claimed then db
      else failRunningAttempt row.1.jobId now error db).jobs = db.jobs := by
    split
    · rfl
    · unfold failRunningAttempt
      split <;> rfl
  simp only [hsame]

theorem recoverExpired_columns {ids : List String} (h : recoverExpired env now db = .ok (ids, db')) :
    db'.jobs.map JobRow.slotColumns = db.jobs.map JobRow.slotColumns := by
  let R : Db → Db → Prop := fun s s' =>
    s'.jobs.map JobRow.slotColumns = s.jobs.map JobRow.slotColumns
  have hrefl : Std.Refl R := ⟨fun _ => rfl⟩
  have htrans : IsTrans Db R := ⟨fun _ _ _ h h' => h'.trans h⟩
  simp only [recoverExpired, bind_ok, Except.ok.injEq, Prod.mk.injEq] at h
  obtain ⟨db₁, h, -, rfl⟩ := h
  refine (foldlM_ok_rel (R := R) (I := fun _ => True) (fun row _ s s' _ hs => ⟨?_, trivial⟩) trivial h).1
  obtain ⟨state, completedAt, availableAt, error, hjobs⟩ := recoverRow_jobs hs
  show s'.jobs.map JobRow.slotColumns = s.jobs.map JobRow.slotColumns
  rw [hjobs]
  exact map_updateWhere (f := JobRow.release state completedAt availableAt none error)
    (fun _ => rfl) s.jobs

/-- No lease has expired. -/
def Db.Recovered (now : Time) (db : Db) : Prop := ∀ j ∈ db.jobs, j.leaseExpired now = false

/-- Recovering again changes nothing. -/
theorem Db.Recovered.recoverExpired (h : db.Recovered now) (env : Env) :
    recoverExpired env now db = .ok ([], db) := by
  have hnone : db.jobs.filter (JobRow.leaseExpired now) = [] :=
    List.filter_eq_nil_iff.mpr fun j hj => by simp [h j hj]
  unfold NanFung.recoverExpired
  rw [hnone]
  rfl

/-- After the loop over the expired rows, no row is expired. -/
theorem recoverRows_recovered {rows : List (JobRow × Json)} (hinv : StoreInv env db)
    (hmem : ∀ r ∈ rows, r.1 ∈ db.jobs ∧ (r.1.state = .claimed ∨ r.1.state = .running))
    (hdistinct : rows.Pairwise fun r s => r.1.jobId ≠ s.1.jobId)
    (hall : ∀ j ∈ db.jobs, j.leaseExpired now = true → ∃ r ∈ rows, r.1 = j)
    (h : rows.foldlM (recoverRow env now) db = .ok db') : db'.Recovered now := by
  induction rows generalizing db with
  | nil =>
    simp only [List.foldlM_nil, pure_ok] at h
    subst h
    intro j hj
    by_contra hexp
    obtain ⟨r, hr, -⟩ := hall j hj (by simpa using hexp)
    cases hr
  | cons r rows ih =>
    simp only [List.foldlM_cons, bind_ok] at h
    obtain ⟨db₁, h₁, h⟩ := h
    obtain ⟨job, policy⟩ := r
    obtain ⟨hr, hstate⟩ := hmem _ (List.mem_cons_self)
    obtain ⟨hrest, hdistinct⟩ := List.pairwise_cons.mp hdistinct
    obtain ⟨he, hkeep⟩ := recoverRow_effects (G := Guard.any) trivial hinv.leases hr hstate h₁
    refine ih (he.storeInv hinv) (fun s hs => ?_) hdistinct (fun j hj hexp => ?_) h
    · exact ⟨hkeep s.1 (hmem s (by simp [hs])).1 (hrest s hs).symm, (hmem s (by simp [hs])).2⟩
    obtain ⟨state, completedAt, availableAt, error, hjobs⟩ := recoverRow_jobs h₁
    rw [hjobs] at hj
    rcases mem_updateWhere.mp hj with ⟨i, -, -, rfl⟩ | ⟨hj, hp⟩
    · -- a released row has no lease
      simp [JobRow.leaseExpired, JobRow.release] at hexp
    · obtain ⟨r, hr', hrj⟩ := hall j hj hexp
      rcases List.mem_cons.mp hr' with rfl | hr'
      · -- the row itself was selected by its own identifier and token
        obtain ⟨token, htoken⟩ := Option.ne_none_iff_exists'.mp (hinv.leases.leased job hr hstate)
        rw [← hrj] at hp
        simp [htoken] at hp
      · exact ⟨r, hr', hrj⟩

theorem recoverExpired_recovered (hinv : StoreInv env db) {ids : List String}
    (h : recoverExpired env now db = .ok (ids, db')) : db'.Recovered now := by
  simp only [recoverExpired, bind_ok, Except.ok.injEq, Prod.mk.injEq] at h
  obtain ⟨db₁, h, -, rfl⟩ := h
  refine recoverRows_recovered hinv ?_ ?_ ?_ h
  · intro r hr
    obtain ⟨j, hj, rfl⟩ := List.mem_map.mp hr
    obtain ⟨hj, hexp⟩ := List.mem_filter.mp hj
    exact ⟨hj, JobRow.leaseExpired_state hexp⟩
  · rw [List.pairwise_map]
    exact (List.pairwise_map.mp hinv.leases.jobs_keyed).filter _
  · exact fun j hj hexp => ⟨_, List.mem_map_of_mem (List.mem_filter.mpr ⟨hj, hexp⟩), rfl⟩

/-- Inserted jobs have no lease. -/
theorem Db.Recovered.place (h : db.Recovered now) {s : ScheduleRow}
    {is : List (Insertion JobRow.dedupeKey)} (his : is <+: (schedulePass env now s).inserts) :
    (db.place is).Recovered now := by
  intro j hj
  rcases mem_insertAll hj with hj | ⟨i, hi, n, rfl⟩
  · exact h j hj
  obtain ⟨definition, -, -, slot, -, -, -, hi⟩ := mem_schedulePass (his.mem hi)
  simp only [slotInsertion, bind_ok, Except.ok.injEq] at hi
  obtain ⟨plan, -, key, -, request, -, rfl⟩ := hi
  simp [JobRow.leaseExpired, queuedJob]

theorem Progress.recovered {rows : List ScheduleRow} (hp : Progress env now rows db db')
    (h : db.Recovered now) : db'.Recovered now := by
  induction hp with
  | done => exact h
  | part some_ => exact h.place some_
  | next _ ih => exact ih (h.place List.prefix_rfl)

/-! ## A tick made again -/

/-- The condition of `scheduler_tick`'s query. -/
def ScheduleRow.active (s : ScheduleRow) : Bool := s.enabled ∧ s.pausedReason = none

theorem Db.mem_enabledSchedules {s : ScheduleRow} :
    s ∈ db.enabledSchedules ↔ s ∈ db.schedules ∧ s.active = true := by
  unfold Db.enabledSchedules
  rw [List.mem_insertionSort, List.mem_filter]
  rfl

theorem Db.enabledSchedules_sorted (db : Db) :
    db.enabledSchedules.Pairwise fun s r => s.scheduleId ≤ r.scheduleId :=
  List.pairwise_insertionSort (fun s r : ScheduleRow => s.scheduleId ≤ r.scheduleId) _

/-- The insertions a tick makes for the row a schedule has come to have. -/
def laterInserts (env : Env) (now : Time) (g : ScheduleRow → ScheduleRow) (s : ScheduleRow) :
    List (Insertion JobRow.dedupeKey) :=
  if (g s).active then (schedulePass env now (g s)).inserts else []

/-- A tick that has completed a schedule leaves nothing of its window to the next one. -/
def NoBacklog (env : Env) (now : Time) (db : Db) (s : ScheduleRow) : Prop :=
  s.catchupPolicy = .windowed → s ∉ db.schedules → ∀ recurrence due,
    planSchedule env s now = .ok (recurrence, due) → due.skippedSlots = 0

/-- Once the cursor has moved, nothing more of the schedule is due. -/
theorem schedulePass_moved {s : ScheduleRow} {recurrence : Recurrence}
    {due : ScheduleMaterialization} (nextDue : Time)
    (hplan : planSchedule env s now = .ok (recurrence, due))
    (hcap : s.catchupPolicy = .windowed → due.skippedSlots = 0) :
    (schedulePass env now (s.moveTo (due.nextCursorAt.getD s.cursor) nextDue now)).inserts = [] := by
  refine List.eq_nil_iff_forall_not_mem.mpr fun i hi => ?_
  obtain ⟨-, recurrence', due', slot, -, hplan', hslot, -⟩ := mem_schedulePass hi
  obtain ⟨hrecurrence, hdue⟩ := planSchedule_ok hplan
  obtain ⟨hrecurrence', hdue'⟩ := planSchedule_ok hplan'
  obtain rfl : recurrence = recurrence' := Except.ok.inj (hrecurrence.symm.trans hrecurrence')
  have hnone := materializeDueSlots_again hdue hcap hdue'
  rw [hnone] at hslot
  exact nomatch hslot

theorem Progress.jobs_prefix {rows : List ScheduleRow} (hp : Progress env now rows db db') :
    db.jobs <+: db'.jobs := by
  induction hp with
  | done => exact List.prefix_rfl
  | @part s rows db is _ => exact @prefix_insertAll _ _ _ JobRow.dedupeKey (db.jobs, db.drawn) is
  | @next s rows db db' rest ih =>
    have hfinish : db.jobs <+: (db.finish env now s).jobs :=
      @prefix_insertAll _ _ _ JobRow.dedupeKey (db.jobs, db.drawn) (schedulePass env now s).inserts
    exact hfinish.trans ih

/-- The rows of the schedules after a part of the loop, and what inserting for all of them once more
amounts to: the insertions of the whole loop. -/
theorem Progress.again {rows : List ScheduleRow} (hp : Progress env now rows db db')
    (hrows : db.Unread rows) (hactive : ∀ s ∈ rows, s.active = true)
    (hcap : ∀ s ∈ rows, NoBacklog env now db' s) :
    ∃ g : ScheduleRow → ScheduleRow, db'.schedules = db.schedules.map g ∧
      (∀ s, (g s).scheduleId = s.scheduleId) ∧ (∀ s ∈ db.schedules, s ∉ rows → g s = s) ∧
      insertAll (db'.jobs, db'.drawn) (rows.flatMap (laterInserts env now g)) =
        insertAll (db.jobs, db.drawn) (rows.flatMap fun s => (schedulePass env now s).inserts) := by
  induction hp with
  | done db => exact ⟨id, (List.map_id _).symm, fun _ => rfl, fun _ _ _ => rfl, rfl⟩
  | @part s rows db is some_ =>
    refine ⟨id, (List.map_id _).symm, fun _ => rfl, fun _ _ _ => rfl, ?_⟩
    have hsame : (s :: rows).flatMap (laterInserts env now id) =
        (s :: rows).flatMap fun s => (schedulePass env now s).inserts := by
      refine List.flatMap_congr fun r hr => ?_
      simp [laterInserts, hactive r hr]
    rw [hsame, List.flatMap_cons]
    show insertAll (insertAll (db.jobs, db.drawn) is) _ = _
    exact insertAll_of_prefix (some_.trans (List.prefix_append _ _))
  | @next s rows db db' rest ih =>
    obtain ⟨g, hmap, hid, hothers, hagain⟩ := ih (hrows.finish now)
      (fun r hr => hactive r (by simp [hr])) fun r hr => hcap r (by simp [hr])
    obtain ⟨hne, -⟩ := List.pairwise_cons.mp hrows.distinct
    let f : ScheduleRow → ScheduleRow := fun r =>
      if r.scheduleId = s.scheduleId then (schedulePass env now s).settle r else r
    have hfid : ∀ r, (f r).scheduleId = r.scheduleId := fun r => by
      simp only [f]
      split
      · exact schedulePass_id env now s r
      · rfl
    have hfinish : (db.finish env now s).schedules = db.schedules.map f := by
      simp only [Db.finish, updateWhere, f, decide_eq_true_eq]
    have hfs : f s = (schedulePass env now s).settle s := if_pos rfl
    have hs : s ∈ db.schedules := hrows.rows_mem s (by simp)
    have hgs : g ((schedulePass env now s).settle s) = (schedulePass env now s).settle s := by
      rw [← hfs]
      refine hothers (f s) (hfinish ▸ List.mem_map_of_mem hs) fun hmem => ?_
      exact hne (f s) hmem (hfid s).symm
    refine ⟨g ∘ f, ?_, fun r => (hid (f r)).trans (hfid r), fun r hr hrmem => ?_, ?_⟩
    · rw [hmap, hfinish, List.map_map]
    · have hrs : r.scheduleId ≠ s.scheduleId := fun heq =>
        hrmem (hrows.keyed.eq_of_mem hr hs heq ▸ List.mem_cons_self)
      have hfr : f r = r := if_neg hrs
      show g (f r) = r
      rw [hfr]
      refine hothers r ?_ fun hmem => hrmem (List.mem_cons_of_mem _ hmem)
      rw [hfinish]
      exact hfr ▸ List.mem_map_of_mem hr
    -- the schedule itself: its insertions have been made, or are not made again
    have hkeys : ∀ i ∈ laterInserts env now (g ∘ f) s, HasKey JobRow.dedupeKey db'.jobs i.key := by
      intro i hi
      have hold : i ∈ (schedulePass env now s).inserts →
          HasKey JobRow.dedupeKey db'.jobs i.key := fun hmem => by
        have hfinish : HasKey JobRow.dedupeKey (db.finish env now s).jobs i.key :=
          hasKey_insertAll hmem
        obtain ⟨r, hr, hk⟩ := hfinish
        exact ⟨r, rest.jobs_prefix.mem hr, hk⟩
      simp only [laterInserts, Function.comp_apply, hfs, hgs] at hi
      have hsettled := schedulePass_settled env now s
      rcases hpass : schedulePass env now s with ⟨is, settle⟩
      rw [hpass] at hsettled hi hold
      cases hsettled with
      | kept =>
        rw [if_pos (show (id s).active = true from hactive s (by simp))] at hi
        exact hold (by simpa [hpass] using hi)
      | paused => simp [ScheduleRow.pause, ScheduleRow.active] at hi
      | @moved recurrence due nextDue is plan =>
        by_cases hmem : s ∈ db'.schedules
        · -- the row is as it was: the cursor it was moved to is its own
          have hrow : g (f s) ∈ db'.schedules := by
            rw [hmap, hfinish]
            exact List.mem_map_of_mem (List.mem_map_of_mem hs)
          have hkeyed : Keyed ScheduleRow.scheduleId db'.schedules := by
            unfold Keyed
            rw [hmap, hfinish, List.map_map, List.map_map]
            have hids : (ScheduleRow.scheduleId ∘ g) ∘ f = ScheduleRow.scheduleId :=
              funext fun r => (hid (f r)).trans (hfid r)
            rw [hids]
            exact hrows.keyed
          have heq : g (f s) = s :=
            hkeyed.eq_of_mem hrow hmem ((hid (f s)).trans (hfid s))
          rw [hfs, hgs, hpass] at heq
          split at hi
          · rw [heq, hpass] at hi
            exact hold hi
          · cases hi
        · have hnone := schedulePass_moved nextDue plan
            fun hw => hcap s (by simp) hw hmem recurrence due plan
          split at hi
          · rw [hnone] at hi
            cases hi
          · cases hi
    have hrest : rows.flatMap (laterInserts env now (g ∘ f)) =
        rows.flatMap (laterInserts env now g) := by
      refine List.flatMap_congr fun r hr => ?_
      have hfr : f r = r := if_neg (hne r hr).symm
      simp only [laterInserts, Function.comp_apply, hfr]
    have hnoop : insertAll (db'.jobs, db'.drawn) (laterInserts env now (g ∘ f) s) =
        (db'.jobs, db'.drawn) := insertAll_of_hasKey hkeys
    rw [List.flatMap_cons, insertAll_append, hnoop, hrest, hagain, List.flatMap_cons,
      insertAll_append]
    rfl

/-- The rows a later tick reads are the rows of before, with the columns they have come to have. -/
theorem flatMap_enabledSchedules {g : ScheduleRow → ScheduleRow} (hkeyed : Keyed ScheduleRow.scheduleId db.schedules)
    (hmap : db'.schedules = db.schedules.map g) (hid : ∀ s, (g s).scheduleId = s.scheduleId)
    (hothers : ∀ s ∈ db.schedules, s ∉ db.enabledSchedules → g s = s) :
    db'.enabledSchedules.flatMap (fun s => (schedulePass env now s).inserts) =
      db.enabledSchedules.flatMap (laterInserts env now g) := by
  have hperm : db'.enabledSchedules.Perm ((db.enabledSchedules.map g).filter ScheduleRow.active) := by
    have hrows : db'.enabledSchedules.Perm (db'.schedules.filter ScheduleRow.active) :=
      List.perm_insertionSort _ _
    have hread : db.enabledSchedules.Perm (db.schedules.filter ScheduleRow.active) :=
      List.perm_insertionSort _ _
    refine hrows.trans ?_
    rw [hmap]
    refine .trans ?_ ((hread.map g).filter ScheduleRow.active).symm
    rw [List.filter_map, List.filter_map, List.filter_filter]
    refine .of_eq (congrArg (List.map g) (List.filter_congr fun s hs => ?_))
    -- a row the first tick did not read is as it was, so the second does not read it either
    simp only [Function.comp_apply, Bool.eq_self_and]
    intro hgs
    by_contra hns
    have hsame := hothers s hs fun hmem => hns (Db.mem_enabledSchedules.mp hmem).2
    exact hns (hsame ▸ hgs)
  have hsorted : ((db.enabledSchedules.map g).filter ScheduleRow.active).Pairwise
      fun s r => s.scheduleId ≤ r.scheduleId := by
    refine List.Pairwise.filter _ ?_
    rw [List.pairwise_map]
    exact db.enabledSchedules_sorted.imp fun h => by rwa [hid, hid]
  have hkeyed' : Keyed ScheduleRow.scheduleId db'.schedules := by
    unfold Keyed
    rw [hmap, List.map_map, funext (f := ScheduleRow.scheduleId ∘ g) hid]
    exact hkeyed
  have heq : db'.enabledSchedules = (db.enabledSchedules.map g).filter ScheduleRow.active := by
    refine hperm.eq_of_pairwise (fun a b ha hb hab hba => ?_) db'.enabledSchedules_sorted hsorted
    exact hkeyed'.eq_of_mem (Db.mem_enabledSchedules.mp ha).1
      (Db.mem_enabledSchedules.mp (hperm.mem_iff.mpr hb)).1 (le_antisymm hab hba)
  rw [heq]
  induction db.enabledSchedules with
  | nil => rfl
  | cons s rows ih =>
    rw [List.map_cons, List.filter_cons, List.flatMap_cons, laterInserts]
    split
    · rw [List.flatMap_cons, ih]
    · rw [List.nil_append, ih]

theorem Db.finishAll_jobs (rows : List ScheduleRow) : (db.finishAll env now rows).jobs =
    (insertAll (db.jobs, db.drawn) (rows.flatMap fun s => (schedulePass env now s).inserts)).1 := by
  induction rows generalizing db with
  | nil => rfl
  | cons s rows ih =>
    rw [List.flatMap_cons, insertAll_append]
    exact ih

/-! ## Ticks -/

/-- A call of `scheduler_tick`; with a limit it stops after that many of its writes. -/
structure TickCall where
  now : Time
  clock : Nat → Time
  limit : Option Nat

section

variable (env : Env)

def TickCall.outcome (c : TickCall) (db : Db) : Except StoreError Tick × Db :=
  (schedulerTick env c.now c.clock c.limit).run db

def TickCall.after (c : TickCall) (db : Db) : Db := (c.outcome env db).2

/-- The tick runs to its end. -/
def TickCall.Completes (c : TickCall) (db : Db) : Prop :=
  c.limit = none ∧ (c.outcome env db).1.isOk

/-- The database in which a tick reads its schedules. -/
def Db.atTick (now : Time) (db : Db) : Db :=
  ((do
    Proc.atomically (syncRegistry env now)
    Proc.atomically (recoverExpired env now)).run db).2

/-- The database after some ticks. -/
def Db.ticks (db : Db) (calls : List TickCall) : Db := calls.foldl (fun s c => c.after env s) db

end

theorem TickCall.run (c : TickCall) (hinv : ScheduleInv env db) :
    TickRun env c.now c.limit db (c.outcome env db).1 (c.after env db) :=
  schedulerTick_run hinv.schedules c.clock c.limit

theorem TickCall.store (c : TickCall) (hstore : StoreInv env db) : StoreInv env (c.after env db) :=
  (schedulerTick_effects (G := Guard.any) (fun _ => trivial) trivial db hstore).1.storeInv hstore

theorem ScheduleInv.synced (h : ScheduleInv env db)
    (hsync : syncRegistry env now db = .ok ((), db')) : ScheduleInv env db' ∧ db.Grows db' := by
  obtain ⟨hgrows, -⟩ := syncRegistry_synced hsync
  refine ⟨h.of_columns ?_ (syncRegistry_keyed hsync h.schedules) hgrows, hgrows⟩
  obtain ⟨_, _, rfl⟩ := syncRegistry_frame hsync
  rfl

theorem ScheduleInv.recovered (h : ScheduleInv env db) {ids : List String}
    (hrecover : recoverExpired env now db = .ok (ids, db')) :
    ScheduleInv env db' ∧ db.Grows db' := by
  obtain ⟨hdefinitions, hschedules⟩ := recoverExpired_frame hrecover
  have hgrows : db.Grows db' := .of_same hdefinitions hschedules
  exact ⟨h.of_columns (recoverExpired_columns hrecover) (hschedules ▸ h.schedules) hgrows, hgrows⟩

/-- One tick: the invariant, and nothing goes back. -/
theorem ScheduleInv.tick (h : ScheduleInv env db) (c : TickCall) :
    ScheduleInv env (c.after env db) ∧ db.Grows (c.after env db) := by
  have hrun := c.run h
  generalize (c.outcome env db).1 = result at hrun
  generalize c.after env db = db' at hrun ⊢
  cases hrun with
  | unsynced => exact ⟨h, .refl db⟩
  | unrecovered synced => exact h.synced synced
  | ran synced recovered progress =>
    obtain ⟨h₁, hgrows₁⟩ := h.synced synced
    obtain ⟨h₂, hgrows₂⟩ := h₁.recovered recovered
    obtain ⟨h₃, hgrows₃⟩ := h₂.progress (Db.unread_enabledSchedules h₂.schedules) progress
    exact ⟨h₃, (hgrows₁.trans hgrows₂).trans hgrows₃⟩

/-- A tick that finds the registry synchronised does what it would have done before. -/
theorem TickCall.outcome_synced (c : TickCall) {db₁ : Db}
    (h : syncRegistry env c.now db = .ok ((), db₁)) : c.outcome env db₁ = c.outcome env db := by
  have hagain := (syncRegistry_synced h).2.sync c.now
  simp only [TickCall.outcome, schedulerTick, Proc.run_bind, Proc.run_atomically, h, hagain]

/-- The jobs after a tick that completes. -/
theorem TickCall.completed {c : TickCall} (hinv : ScheduleInv env db) (hc : c.Completes env db)
    {db₁ db₂ : Db} {ids : List String} (hsync : syncRegistry env c.now db = .ok ((), db₁))
    (hrecover : recoverExpired env c.now db₁ = .ok (ids, db₂)) :
    (c.after env db).jobs = (insertAll (db₂.jobs, db₂.drawn)
      (db₂.enabledSchedules.flatMap fun s => (schedulePass env c.now s).inserts)).1 := by
  obtain ⟨hlimit, hok⟩ := hc
  have hrun := c.run hinv
  generalize (c.outcome env db).1 = result at hrun hok
  generalize c.after env db = db' at hrun ⊢
  cases hrun with
  | unsynced => exact nomatch hok
  | unrecovered => exact nomatch hok
  | ran synced recovered _ complete =>
    obtain rfl := (Prod.mk.inj (Except.ok.inj (hsync.symm.trans synced))).2
    obtain rfl := (Prod.mk.inj (Except.ok.inj (hrecover.symm.trans recovered))).2
    rw [complete hlimit hok, Db.finishAll_jobs]

/-- A tick that is made again. -/
theorem ScheduleInv.again (hstore : StoreInv env db) (hinv : ScheduleInv env db)
    {stopped c : TickCall} (hnow : stopped.now = c.now) (hc : c.Completes env db)
    (hc' : c.Completes env (stopped.after env db))
    (hcap : ∀ s ∈ (db.atTick env c.now).enabledSchedules,
      NoBacklog env c.now (stopped.after env db) s) :
    (c.after env (stopped.after env db)).jobs = (c.after env db).jobs := by
  have hstopped := stopped.run hinv
  have hinv' := (hinv.tick stopped).1
  rw [hnow] at hstopped
  generalize (stopped.outcome env db).1 = result at hstopped
  generalize stopped.after env db = db' at hstopped hinv' hc' hcap ⊢
  cases hstopped with
  | unsynced => rfl
  | unrecovered synced => rw [TickCall.after, c.outcome_synced synced, TickCall.after]
  | @ran _ db₁ db₂ _ ids synced recovered progress =>
    have hatTick : db.atTick env c.now = db₂ := by
      simp only [Db.atTick, Proc.run_bind, Proc.run_atomically, synced, recovered]
    rw [hatTick] at hcap
    obtain ⟨h₁, -⟩ := hinv.synced synced
    obtain ⟨h₂, hgrows₂⟩ := h₁.recovered recovered
    have hstore₁ : StoreInv env db₁ :=
      (syncRegistry_effects (G := Guard.any) (t := c.now) trivial synced).storeInv hstore
    have hunread := Db.unread_enabledSchedules h₂.schedules
    obtain ⟨-, hgrows₃⟩ := h₂.progress hunread progress
    obtain ⟨g, hmap, hid, hothers, hjobs⟩ := progress.again hunread
      (fun s hs => (Db.mem_enabledSchedules.mp hs).2) hcap
    -- the second tick finds the registry in place and no lease to recover
    have hsync : syncRegistry env c.now db' = .ok ((), db') :=
      (((syncRegistry_synced synced).2.grows hgrows₂).grows hgrows₃).sync c.now
    have hrecover : recoverExpired env c.now db' = .ok ([], db') :=
      (progress.recovered (recoverExpired_recovered hstore₁ recovered)).recoverExpired env
    rw [TickCall.completed hinv' hc' hsync hrecover, TickCall.completed hinv hc synced recovered,
      flatMap_enabledSchedules h₂.schedules hmap hid hothers, hjobs]

/-! ## Exactly once -/

/-- What the job of a slot carries: the definition version is the row's where that is the version the
datasource resolves to. -/
structure ScheduleRow.Records (env : Env) (r : ScheduleRow) (j : JobRow) : Prop where
  slot : ∃ recurrence, recurrenceFromRule env.platform env.zoneInfo r.rule r.timezone r.createdAt =
    .ok recurrence ∧ recurrence.IsSlot j.scheduledFor
  datasource : j.datasourceId = some r.datasourceId
  lane : j.lane = some r.lane
  version : ∀ d, env.registry.lookup env.platform r.datasourceId none = .ok d →
    d.definitionVersion = r.definitionVersion → j.definitionVersion = some r.definitionVersion

/-- Every slot has one job at most, and the job of a slot carries what its schedule's row says. -/
structure Materialised (env : Env) (db : Db) : Prop where
  once : ∀ i ∈ db.jobs, ∀ j ∈ db.jobs, i.scheduleId = j.scheduleId → i.scheduleId ≠ none →
    i.scheduledFor = j.scheduledFor → i = j
  recorded : ∀ j ∈ db.jobs, ∀ id ∈ j.scheduleId,
    ∃ r ∈ db.schedules, r.scheduleId = id ∧ r.Records env j

theorem ScheduleRow.Submits.records {r : ScheduleRow} {j : JobRow} (h : r.Submits env j) :
    r.Records env j := by
  obtain ⟨definition, i, n, hlookup, hi, hcolumns, hslot⟩ := h
  simp only [slotInsertion, bind_ok, Except.ok.injEq] at hi
  obtain ⟨plan, hplan, key, -, request, -, rfl⟩ := hi
  simp only [JobRow.slotColumns, queuedJob, slotArgs, Prod.mk.injEq] at hcolumns
  obtain ⟨-, -, -, hdatasource, hversion, hlane⟩ := hcolumns
  obtain ⟨-, hid, -⟩ := DatasourceRegistry.lookup_mem hlookup
  refine ⟨hslot, hdatasource.trans (congrArg some hid), ?_, fun d hd hlatest => ?_⟩
  · rw [hlane]
    simp only [enqueuePlan, bind_ok, orThrow_ok, Except.ok.injEq] at hplan
    obtain ⟨_, -, lane, hname, -, -, -, -, -, -, -, -, -, -, -, -, -, -, -, -, -, -, rfl⟩ := hplan
    have hgiven : ∀ fallback, orText (some r.lane.name) fallback = r.lane.name := fun _ =>
      if_neg (by cases r.lane <;> decide)
    have hself : Lane.ofName? r.lane.name = some r.lane := by cases r.lane <;> decide +kernel
    rw [show (slotArgs r definition j.scheduledFor).lane = some r.lane.name from rfl, hgiven,
      hself] at hname
    exact hname.symm
  · have hdefinition := (enqueuePlan_ok hplan).1
    simp only [slotArgs, hid] at hdefinition
    obtain rfl : d = plan.definition := Except.ok.inj (hd.symm.trans hdefinition)
    rw [hversion, hlatest]

theorem ScheduleInv.materialised (h : ScheduleInv env db) : Materialised env db := by
  constructor
  · intro i hi j hj hid hne hslot
    obtain ⟨id, hiid⟩ := Option.ne_none_iff_exists'.mp hne
    obtain ⟨r, hr, hrid, definition, ins, n, hlookup, hins, hcolumns, -⟩ := h.jobs i hi id hiid
    obtain ⟨r', hr', hrid', definition', ins', n', hlookup', hins', hcolumns', -⟩ :=
      h.jobs j hj id (hid ▸ hiid)
    obtain rfl := h.schedules.eq_of_mem hr hr' (hrid.trans hrid'.symm)
    obtain rfl := Except.ok.inj (hlookup.symm.trans hlookup')
    rw [hslot] at hins
    obtain rfl := Except.ok.inj (hins.symm.trans hins')
    refine h.dedupe.eq_of_mem hi hj ?_
    rw [(Prod.mk.inj hcolumns).1, (Prod.mk.inj hcolumns').1, ins.column_row, ins.column_row]
  · intro j hj id hid
    obtain ⟨r, hr, hrid, hsubmits⟩ := h.jobs j hj id hid
    exact ⟨r, hr, hrid, hsubmits.records⟩

/-- A store without jobs of schedules; its schedules may be any. -/
structure Db.Unscheduled (env : Env) (db : Db) : Prop where
  store : StoreInv env db
  dedupe : Keyed JobRow.dedupeKey db.jobs
  schedules : Keyed ScheduleRow.scheduleId db.schedules
  jobs : ∀ j ∈ db.jobs, j.scheduleId = none

theorem Db.Unscheduled.ticks (h : db.Unscheduled env) (calls : List TickCall) :
    StoreInv env (db.ticks env calls) ∧ ScheduleInv env (db.ticks env calls) := by
  have hstart : ScheduleInv env db :=
    ⟨h.dedupe, h.schedules, fun j hj id hid => nomatch (h.jobs j hj).symm.trans hid⟩
  have hrun : ∀ (calls : List TickCall) (db : Db), StoreInv env db → ScheduleInv env db →
      StoreInv env (db.ticks env calls) ∧ ScheduleInv env (db.ticks env calls) := by
    intro calls
    induction calls with
    | nil => exact fun _ hstore hinv => ⟨hstore, hinv⟩
    | cons c calls ih => exact fun _ hstore hinv => ih _ (c.store hstore) (hinv.tick c).1
  exact hrun calls db h.store hstart

/-- Schedules are materialised exactly once, whatever the clock readings and wherever ticks stop. -/
theorem schedules_exactly_once (h : db.Unscheduled env) (calls : List TickCall) :
    Materialised env (db.ticks env calls) ∧
      (∀ c : TickCall, (db.ticks env calls).Grows (c.after env (db.ticks env calls))) ∧
      ∀ stopped c : TickCall, stopped.now = c.now → c.Completes env (db.ticks env calls) →
        c.Completes env (stopped.after env (db.ticks env calls)) →
        (∀ s ∈ ((db.ticks env calls).atTick env c.now).enabledSchedules,
          NoBacklog env c.now (stopped.after env (db.ticks env calls)) s) →
        (c.after env (stopped.after env (db.ticks env calls))).jobs =
          (c.after env (db.ticks env calls)).jobs := by
  obtain ⟨hstore, hinv⟩ := h.ticks calls
  exact ⟨hinv.materialised, fun c => (hinv.tick c).2, fun _ _ => hinv.again hstore⟩

end

/-! ## Windows -/

namespace Sample

/-- A datasource with a schedule that catches up one second at a time, and one that does not. -/
def nightly : DatasourceDefinition := { rents with
  schedules := [
    ⟨"caught up", .obj [("kind", .str "interval"), ("seconds", .int 1)], "UTC", .windowed, 1, 0, true,
      oneJob_pos, oneJob_le⟩,
    ⟨"current", .obj [("kind", .str "interval"), ("seconds", .int 1)], "UTC", .latestOnly, 1, 0, true,
      oneJob_pos, oneJob_le⟩] }

def scheduleEnv : Env := { env with
  registry := {
    definitions := [nightly]
    sources := [⟨"uk.register", 1, ["example.org"]⟩]
    definitions_keyed := by decide
    hashes_keyed := by decide
    sources_keyed := register_keyed
    bound := by decide }
  runtimeBindings := nightly.executableBindings }

/-- A tick at a second, which may stop after some writes. -/
def tickAt (n : Nat) (limit : Option Nat) : TickCall := ⟨tick n, fun _ => tick n, limit⟩

theorem unscheduled : ({} : Db).Unscheduled scheduleEnv :=
  ⟨StoreInv.empty scheduleEnv, keyed_nil _, keyed_nil _, fun _ hj => nomatch hj⟩

/-- The slots that have jobs. -/
def slots (db : Db) : List (Option String × Time) := db.jobs.map fun j => (j.scheduleId, j.scheduledFor)

/-- At the second second every schedule has one slot due. -/
theorem second_tick :
    ((tickAt 2 none).outcome scheduleEnv (Db.ticks scheduleEnv {} [tickAt 1 none])).1.isOk ∧
    ((tickAt 2 none).outcome scheduleEnv ((tickAt 2 (some 2)).after scheduleEnv
      (Db.ticks scheduleEnv {} [tickAt 1 none]))).1.isOk ∧
    (((Db.ticks scheduleEnv {} [tickAt 1 none]).atTick scheduleEnv (tick 2)).enabledSchedules.all
      fun s => match planSchedule scheduleEnv s (tick 2) with
        | .ok plan => plan.2.skippedSlots = 0
        | .error _ => true) = true := by
  decide +kernel

/-- At the third one the first schedule has two, and makes them one at a time. -/
theorem third_tick :
    ((tickAt 3 none).outcome scheduleEnv (Db.ticks scheduleEnv {} [tickAt 1 none])).1.isOk ∧
    ((tickAt 3 none).outcome scheduleEnv ((tickAt 3 (some 2)).after scheduleEnv
      (Db.ticks scheduleEnv {} [tickAt 1 none]))).1.isOk ∧
    (some "schedule_204395060607", tick 3) ∈ slots ((tickAt 3 none).after scheduleEnv
      ((tickAt 3 (some 2)).after scheduleEnv (Db.ticks scheduleEnv {} [tickAt 1 none]))) ∧
    (some "schedule_204395060607", tick 3) ∉ slots ((tickAt 3 none).after scheduleEnv
      (Db.ticks scheduleEnv {} [tickAt 1 none])) := by
  decide +kernel

end Sample

open Sample in
theorem schedules_exactly_once_second :
    Materialised scheduleEnv (Db.ticks scheduleEnv {} [tickAt 1 none]) ∧
    ((tickAt 2 none).after scheduleEnv ((tickAt 2 (some 2)).after scheduleEnv
      (Db.ticks scheduleEnv {} [tickAt 1 none]))).jobs =
    ((tickAt 2 none).after scheduleEnv (Db.ticks scheduleEnv {} [tickAt 1 none])).jobs := by
  obtain ⟨hfirst, hagain, hplans⟩ := second_tick
  obtain ⟨hmaterialised, -, hstopped⟩ := schedules_exactly_once unscheduled [tickAt 1 none]
  refine ⟨hmaterialised, hstopped (tickAt 2 (some 2)) (tickAt 2 none) rfl ⟨rfl, hfirst⟩ ⟨rfl, hagain⟩ ?_⟩
  intro s hs _ _ recurrence due hplan
  have hskipped := List.all_eq_true.mp hplans s hs
  have hplan : planSchedule scheduleEnv s (tick 2) = .ok (recurrence, due) := hplan
  rw [hplan] at hskipped
  exact of_decide_eq_true hskipped

/-- A stopped tick that has completed a schedule with a window leaves the rest of the window to the
next one. -/
theorem not_schedules_exactly_once : ¬ ∀ (db : Db), db.Unscheduled Sample.scheduleEnv →
    ∀ (calls : List TickCall) (stopped c : TickCall), stopped.now = c.now →
      c.Completes Sample.scheduleEnv (db.ticks Sample.scheduleEnv calls) →
      c.Completes Sample.scheduleEnv
        (stopped.after Sample.scheduleEnv (db.ticks Sample.scheduleEnv calls)) →
      ∀ slot, slot ∈ Sample.slots (c.after Sample.scheduleEnv
          (stopped.after Sample.scheduleEnv (db.ticks Sample.scheduleEnv calls))) ↔
        slot ∈ Sample.slots (c.after Sample.scheduleEnv (db.ticks Sample.scheduleEnv calls)) := by
  intro h
  obtain ⟨hfirst, hagain, hmade, hnotMade⟩ := Sample.third_tick
  exact hnotMade ((h {} Sample.unscheduled [Sample.tickAt 1 none] (Sample.tickAt 3 (some 2))
    (Sample.tickAt 3 none) rfl ⟨rfl, hfirst⟩ ⟨rfl, hagain⟩ _).mp hmade)

end NanFung
