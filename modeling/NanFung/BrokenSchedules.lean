import NanFung.Materialisation

/-!
# Broken schedules

What a tick does for a schedule depends on the row of the schedule alone, and an exception that the
loop handles ends the pass over one schedule only. Some exceptions are not handled: a schedule that
raises one ends the tick for every schedule after it.
-/

namespace NanFung

open Table

section

variable {env : Env} {db db' : Db} {now : Time}

/-! ## Submitting -/

/-- The identifiers that are still to be drawn for jobs are new. -/
def Unissued (env : Env) (t : Intake JobRow) : Prop :=
  ∀ j ∈ t.1, ∀ n, t.2 ≤ n → j.jobId ≠ env.newId "job" n

/-- The rows of an insertion are named by their number. -/
def Named (env : Env) (i : Insertion JobRow.dedupeKey) : Prop :=
  ∀ n, (i.row n).jobId = env.newId "job" n

theorem Unissued.insertNew (hu : Function.Injective env.platform.uuid) {t : Intake JobRow}
    {i : Insertion JobRow.dedupeKey} (h : Unissued env t) (hi : Named env i) :
    Unissued env (insertNew t i) := by
  unfold Table.insertNew
  split
  · exact h
  · intro j hj n hn
    rcases List.mem_append.mp hj with hj | hj
    · exact h j hj n (Nat.le_of_succ_le hn)
    · obtain rfl := List.mem_singleton.mp hj
      rw [hi]
      intro heq
      have := env.platform.newId_injective hu "job" heq
      have hlt : t.2 < n := hn
      omega

theorem Unissued.insertAll (hu : Function.Injective env.platform.uuid) {t : Intake JobRow}
    {is : List (Insertion JobRow.dedupeKey)} (h : Unissued env t) (his : ∀ i ∈ is, Named env i) :
    Unissued env (insertAll t is) := by
  induction is generalizing t with
  | nil => exact h
  | cons i is ih =>
    obtain ⟨hi, his⟩ := List.forall_mem_cons.mp his
    exact ih (h.insertNew hu hi) his

theorem slotInsertion_row {s : ScheduleRow} {definition : DatasourceDefinition} {slot : Time}
    {i : Insertion JobRow.dedupeKey} (h : slotInsertion env s definition slot = .ok i) :
    Named env i ∧ ∀ n, (i.row n).scheduleId = some s.scheduleId := by
  simp only [slotInsertion, bind_ok, Except.ok.injEq] at h
  obtain ⟨plan, -, key, -, request, -, rfl⟩ := h
  exact ⟨fun _ => rfl, fun _ => rfl⟩

theorem schedulePass_row {s : ScheduleRow} {i : Insertion JobRow.dedupeKey}
    (h : i ∈ (schedulePass env now s).inserts) :
    Named env i ∧ ∀ n, (i.row n).scheduleId = some s.scheduleId := by
  obtain ⟨_, _, _, _, -, -, -, hi⟩ := mem_schedulePass h
  exact slotInsertion_row hi

/-- A synchronised store has the definitions that jobs refer to. -/
theorem Db.Synced.definition_isSome (hsync : db.Synced env) {datasourceId : String}
    {version : Option Nat} {d : DatasourceDefinition}
    (h : env.registry.lookup env.platform datasourceId version = .ok d) :
    (db.definition? datasourceId d.definitionVersion).isSome := by
  obtain ⟨hmem, rfl, -⟩ := DatasourceRegistry.lookup_mem h
  obtain ⟨r, hr, -⟩ := (hsync d hmem).definition
  exact Option.isSome_of_eq_some hr

/-- In such a store no constraint refuses the job of a slot. -/
theorem enqueueTx_returns {s : ScheduleRow} {definition : DatasourceDefinition} {slot : Time}
    {plan : EnqueuePlan} {dedupe : String} (hsync : db.Synced env)
    (hnumbered : Unissued env (db.jobs, db.drawn))
    (hrow : ∃ r ∈ db.schedules, r.scheduleId = s.scheduleId)
    (hplan : enqueuePlan env (slotArgs s definition slot) slot = .ok plan) :
    ∃ result, enqueueTx env (slotArgs s definition slot) plan dedupe db = .ok result := by
  obtain ⟨hlookup, htrigger, -, hhash, -⟩ := enqueuePlan_ok hplan
  obtain ⟨request, hrequest⟩ := json_of_requestHash hhash
  unfold enqueueTx
  split
  · next hnone =>
    have hinsert : ∃ db', insertJob (queuedJob (slotArgs s definition slot) plan
        (env.newId "job" db.drawn) dedupe request none) { db with drawn := db.drawn + 1 } =
        .ok db' := by
      simp only [insertJob, bind_ok, require_ok]
      refine ⟨_, (), fun j hj => hnumbered j hj _ le_rfl, (), find?_key_eq_none.mp hnone, (), le_rfl, (),
        ?_, (), fun p hp => (by cases hp), (), ?_, rfl⟩
      · rintro id ⟨⟩
        exact hrow
      · rintro d ⟨⟩ v ⟨⟩
        exact hsync.definition_isSome hlookup
    obtain ⟨db', hdb'⟩ := hinsert
    exact ⟨_, bind_ok.mpr ⟨request, hrequest, bind_ok.mpr ⟨db', hdb', rfl⟩⟩⟩
  · next existing hfind =>
    have htrigger : plan.trigger = .schedule := by
      have hname : Trigger.ofName? "schedule" = some Trigger.schedule := by decide +kernel
      exact (Option.some.inj (hname.symm.trans htrigger)).symm
    rw [if_neg (by simp [htrigger])]
    exact ⟨_, rfl⟩

/-- Submitting a slot makes its insertion, or raises what refuses it. -/
theorem enqueue_slot {s : ScheduleRow} (definition : DatasourceDefinition) (slot : Time)
    (clock : Nat → Time) (hsync : db.Synced env) (hnumbered : Unissued env (db.jobs, db.drawn))
    (hrow : ∃ r ∈ db.schedules, r.scheduleId = s.scheduleId) :
    (∃ i r, slotInsertion env s definition slot = .ok i ∧
      (enqueue env (slotArgs s definition slot) clock).run db = (.ok r, db.place [i])) ∨
    ∃ e, slotInsertion env s definition slot = .error e ∧
      (enqueue env (slotArgs s definition slot) clock).run db = (.error e, db) := by
  unfold enqueue
  rw [Proc.run_bind_of_ok (Proc.run_atomically_of_ok (hsync.sync (clock 0)))]
  -- the wall clock plays no part: the slot is the time of the submission
  have hclock : enqueuePlan env (slotArgs s definition slot) (clock 1) =
      enqueuePlan env (slotArgs s definition slot) slot := rfl
  have hquery : ∀ {α : Type} {x y : Except StoreError α}, x = y →
      (Proc.query fun _ : Db => x).run db = (y, db) := fun h => h ▸ rfl
  cases hplan : enqueuePlan env (slotArgs s definition slot) slot with
  | error e =>
    refine Or.inr ⟨e, bind_of_error hplan, ?_⟩
    rw [Proc.run_bind_of_error (hquery (hclock.trans hplan))]
  | ok plan =>
    rw [Proc.run_bind_of_ok (hquery (hclock.trans hplan))]
    cases hkey : dedupeKey env (slotArgs s definition slot) plan
        (slotArgs s definition slot).requestInstanceId with
    | error e =>
      refine Or.inr ⟨e, ?_, ?_⟩
      · rw [slotInsertion, hplan]
        show (dedupeKey env (slotArgs s definition slot) plan none >>= _) = _
        exact bind_of_error hkey
      · simp only [Proc.run_bind, Proc.run_query]
    | ok dedupe =>
      obtain ⟨⟨r, db₁⟩, htx⟩ : ∃ result,
          enqueueTx env (slotArgs s definition slot) plan dedupe db = .ok result :=
        enqueueTx_returns hsync hnumbered hrow hplan
      have hsubmitted := @enqueueTx_submitted env db _ _ _ _ _ hplan hkey
      rw [Proc.run_atomically_of_ok htx] at hsubmitted
      simp only [Proc.run_bind, Proc.run_query]
      rw [Proc.run_atomically_of_ok htx]
      generalize hresult : (Except.ok r : Except StoreError EnqueueResult) = result at hsubmitted
      cases hsubmitted with
      | @placed i r insertion => exact Or.inl ⟨i, _, insertion, by rw [hresult]; rfl⟩
      | refused => cases hresult
      | broken => cases hresult

/-! ## What escapes a pass -/

/-- The exception that the loop over the schedules does not handle. -/
def scheduleRaises (env : Env) (now : Time) (s : ScheduleRow) : Option StoreError :=
  match env.registry.lookup env.platform s.datasourceId (some s.definitionVersion) with
  | .error e => some e
  | .ok definition =>
    if !runtimeReady env definition then none
    else match planSchedule env s now with
      | .error e => if e.isValueError then none else some e
      | .ok (recurrence, due) =>
        match (slotInsertions env s definition due.slots).2 with
        | some e => if e.isOperational then none else some e
        | none =>
          match recurrence.nextAfter (due.nextCursorAt.getD s.cursor) with
          | .ok _ => none
          | .error e => some e

/-- The slots of a schedule: an exception escapes exactly if a slot is refused with another one than
an `OperationalError`. -/
theorem tickSlots_isOk (hu : Function.Injective env.platform.uuid) {s : ScheduleRow}
    {definition : DatasourceDefinition} {clock : Nat → Time} {slots : List Time}
    {writes accepted deduplicated : Nat} (hsync : db.Synced env)
    (hnumbered : Unissued env (db.jobs, db.drawn))
    (hrow : ∃ r ∈ db.schedules, r.scheduleId = s.scheduleId) :
    ((tickSlots env s definition clock none slots writes accepted deduplicated).run db).1.isOk = true ↔
      ∀ e ∈ (slotInsertions env s definition slots).2, e.isOperational = true := by
  induction slots generalizing db writes accepted deduplicated with
  | nil => exact iff_of_true rfl fun e he => by cases he
  | cons slot slots ih =>
    unfold tickSlots
    rw [if_neg (fun h => by cases h), slotInsertions, Proc.run_bind, Proc.run_tryCatch, Proc.run_bind]
    rcases enqueue_slot definition slot (fun _ => clock writes) hsync hnumbered hrow with
      ⟨i, r, hi, hrun⟩ | ⟨e, hi, hrun⟩
    · have hnumbered' : Unissued env ((db.place [i]).jobs, (db.place [i]).drawn) :=
        hnumbered.insertNew hu (slotInsertion_row hi).1
      rw [hrun, hi]
      simp only [Proc.run_pure]
      split
      · exact ih (hsync.place [i]) hnumbered' hrow
      · exact ih (hsync.place [i]) hnumbered' hrow
    · rw [hrun, hi]
      cases hop : e.isOperational with
      | true =>
        simp only [hop, if_true, Proc.run_pure]
        exact iff_of_true rfl fun e' he' => Option.some.inj he' ▸ hop
      | false =>
        simp only [hop, Bool.false_eq_true, if_false, Proc.run_throw]
        refine iff_of_false Bool.false_ne_true fun h => ?_
        exact Bool.false_ne_true (hop.symm.trans (h e rfl))

theorem tickSchedule_isOk (hu : Function.Injective env.platform.uuid) (hsync : db.Synced env)
    (hnumbered : Unissued env (db.jobs, db.drawn)) (clock : Nat → Time) {s : ScheduleRow}
    (hrow : ∃ r ∈ db.schedules, r.scheduleId = s.scheduleId) {t : Tick} (ht : t.stopped = false) :
    ((tickSchedule env now clock none t s).run db).1.isOk = true ↔ scheduleRaises env now s = none := by
  unfold tickSchedule scheduleRaises
  rw [ht, if_neg Bool.false_ne_true]
  simp only [Proc.run_bind, Proc.run_query]
  cases hlookup : env.registry.lookup env.platform s.datasourceId (some s.definitionVersion) with
  | error e => exact iff_of_false Bool.false_ne_true (fun h => by cases h)
  | ok definition =>
    simp only
    cases hready : runtimeReady env definition with
    | false => exact iff_of_true rfl rfl
    | true =>
      simp only [Bool.not_true, Bool.false_eq_true, if_false]
      cases hplan : planSchedule env s now with
      | error e =>
        simp only
        cases hvalue : e.isValueError with
        | false => exact iff_of_false Bool.false_ne_true (fun h => by cases h)
        | true =>
          rw [if_pos rfl, if_neg (fun h => by cases h), if_pos rfl]
          exact iff_of_true rfl rfl
      | ok plan =>
        obtain ⟨recurrence, due⟩ := plan
        simp only [Proc.run_bind]
        have hok := @tickSlots_isOk env db hu s definition clock due.slots t.writes 0 0 hsync hnumbered
          hrow
        have hslots := @tickSlots_run env db s definition clock none due.slots t.writes 0 0 hsync
        rcases hrun : (tickSlots env s definition clock none due.slots t.writes 0 0).run db with
          ⟨result, db₁⟩
        rw [hrun] at hok hslots
        generalize slotInsertions env s definition due.slots = all at hok hslots
        cases hslots with
        | raised some_ =>
          cases hall : all.2 with
          | none =>
            rw [hall] at hok
            exact absurd (hok.mpr fun e he => absurd he (Option.not_mem_none e)) Bool.false_ne_true
          | some e =>
            cases hop : e.isOperational with
            | true =>
              rw [hall] at hok
              refine absurd (hok.mpr fun e' he' => ?_) Bool.false_ne_true
              exact Option.some.inj he' ▸ hop
            | false =>
              simp only [hop, Bool.false_eq_true, if_false]
              exact iff_of_false Bool.false_ne_true (fun h => by cases h)
        | stopped some_ limited => exact absurd rfl limited
        | failed refused =>
          obtain ⟨e, he⟩ := Option.isSome_iff_exists.mp refused
          rw [he]
          simp only
          rw [if_pos (hok.mp rfl e he)]
          exact iff_of_true rfl rfl
        | done admitted =>
          rw [admitted]
          simp only [tickCursor, Proc.run_bind, Proc.run_query]
          cases recurrence.nextAfter (due.nextCursorAt.getD s.cursor) with
          | error e => exact iff_of_false Bool.false_ne_true (fun h => by cases h)
          | ok nextDue => exact iff_of_true rfl rfl

/-! ## All schedules -/

theorem tickSchedules_isOk (hu : Function.Injective env.platform.uuid) {clock : Nat → Time}
    {rows : List ScheduleRow} {t : Tick} (ht : t.stopped = false) (hsync : db.Synced env)
    (hnumbered : Unissued env (db.jobs, db.drawn)) (hrows : db.Unread rows) :
    ((rows.foldlM (tickSchedule env now clock none) t).run db).1.isOk = true ↔
      ∀ s ∈ rows, scheduleRaises env now s = none := by
  induction rows generalizing db t with
  | nil => exact iff_of_true rfl fun s hs => nomatch hs
  | cons s rows ih =>
    have hrow : ∃ r ∈ db.schedules, r.scheduleId = s.scheduleId :=
      ⟨s, hrows.rows_mem s List.mem_cons_self, rfl⟩
    have hok := @tickSchedule_isOk env db now hu hsync hnumbered clock s hrow t ht
    have hstep := @tickSchedule_run _ _ now hsync clock none s _ ht
    rcases hrun : (tickSchedule env now clock none t s).run db with ⟨result, db₁⟩
    rw [hrun] at hok hstep
    rw [List.foldlM_cons, List.forall_mem_cons, ← hok]
    cases hstep with
    | raised =>
      rw [Proc.run_bind_of_error hrun]
      exact iff_of_false Bool.false_ne_true fun h => Bool.false_ne_true h.1
    | stopped _ limited => exact absurd rfl limited
    | done goes_on =>
      have hnumbered' : Unissued env ((db.finish env now s).jobs, (db.finish env now s).drawn) :=
        hnumbered.insertAll hu fun i hi => (schedulePass_row hi).1
      have hrest := ih goes_on (hsync.grows (hrows.grows now)) hnumbered' (hrows.finish now)
      rw [Proc.run_bind_of_ok hrun]
      exact hrest.trans (and_iff_right rfl).symm

/-- The row of a schedule after a tick is the one that its own pass leaves. -/
theorem Db.Unread.finishAll_row {s : ScheduleRow} {rows : List ScheduleRow} (h : db.Unread rows)
    (hs : s ∈ rows) : (schedulePass env now s).settle s ∈ (db.finishAll env now rows).schedules := by
  have hkept : ∀ {rows : List ScheduleRow} {db : Db} {r : ScheduleRow}, r ∈ db.schedules →
      (∀ u ∈ rows, u.scheduleId ≠ r.scheduleId) → r ∈ (db.finishAll env now rows).schedules := by
    intro rows
    induction rows with
    | nil => exact fun hr _ => hr
    | cons u rows ih =>
      intro db r hr hne
      obtain ⟨hu, hne⟩ := List.forall_mem_cons.mp hne
      exact ih (mem_updateWhere.mpr (Or.inr ⟨hr, by simpa using hu.symm⟩)) hne
  induction rows generalizing db with
  | nil => exact nomatch hs
  | cons u rows ih =>
    rcases List.mem_cons.mp hs with rfl | hs
    · have hrow : (schedulePass env now s).settle s ∈ (db.finish env now s).schedules :=
        mem_updateWhere.mpr (Or.inl ⟨s, h.rows_mem s List.mem_cons_self, by simp, rfl⟩)
      show _ ∈ ((db.finish env now s).finishAll env now rows).schedules
      refine hkept hrow fun r hr => ?_
      rw [schedulePass_id]
      exact ((List.pairwise_cons.mp h.distinct).1 r hr).symm
    · exact ih (h.finish now) hs

/-! ## A tick -/

theorem recoverExpired_numbered {ids : List String} (h : recoverExpired env now db = .ok (ids, db'))
    (hnumbered : Unissued env (db.jobs, db.drawn)) : Unissued env (db'.jobs, db'.drawn) := by
  let R : Db → Db → Prop := fun s s' =>
    s'.drawn = s.drawn ∧ ∀ j ∈ s'.jobs, ∃ i ∈ s.jobs, i.jobId = j.jobId
  have hrefl : Std.Refl R := ⟨fun _ => ⟨rfl, fun j hj => ⟨j, hj, rfl⟩⟩⟩
  have htrans : IsTrans Db R := by
    refine ⟨fun _ _ _ h h' => ⟨h'.1.trans h.1, fun j hj => ?_⟩⟩
    obtain ⟨i, hi, hid⟩ := h'.2 j hj
    obtain ⟨k, hk, hid'⟩ := h.2 i hi
    exact ⟨k, hk, hid'.trans hid⟩
  simp only [recoverExpired, bind_ok, Except.ok.injEq, Prod.mk.injEq] at h
  obtain ⟨db₁, h, -, rfl⟩ := h
  have hstep : ∀ row s s', recoverRow env now s row = .ok s' → R s s' := by
    intro row s s' hs
    refine ⟨?_, fun j hj => ?_⟩
    · simp only [recoverRow, bind_ok, Except.ok.injEq] at hs
      obtain ⟨error, -, next, -, rfl⟩ := hs
      show (if row.1.state = .claimed then s else failRunningAttempt row.1.jobId now error s).drawn = _
      split
      · rfl
      · unfold failRunningAttempt
        split <;> rfl
    · obtain ⟨_, _, _, _, hjobs⟩ := recoverRow_jobs hs
      rw [hjobs] at hj
      rcases mem_updateWhere.mp hj with ⟨i, hi, -, rfl⟩ | ⟨hj, -⟩
      · exact ⟨i, hi, rfl⟩
      · exact ⟨j, hj, rfl⟩
  obtain ⟨hdrawn, hids⟩ := (foldlM_ok_rel (R := R) (I := fun _ => True)
    (fun row _ s s' _ hs => ⟨hstep row s s' hs, trivial⟩) trivial h).1
  intro j hj n hn
  obtain ⟨i, hi, hid⟩ := hids j hj
  exact hid ▸ hnumbered i hi n (hdrawn ▸ hn)

/-- What a tick does for a schedule between two states of the store: the row of the schedule gets the
cursor of its own pass, and its new jobs are those of its own slots. -/
structure Apart (env : Env) (now : Time) (before after : Db) (s : ScheduleRow) : Prop where
  row : after.schedules.find? (fun r => r.scheduleId = s.scheduleId) =
    some ((schedulePass env now s).settle s)
  submitted : ∀ i ∈ (schedulePass env now s).inserts, HasKey JobRow.dedupeKey after.jobs i.key
  own : ∀ j ∈ after.jobs, j ∉ before.jobs → j.scheduleId = some s.scheduleId →
    ∃ i ∈ (schedulePass env now s).inserts, ∃ n, j = i.row n

/-- A tick returns, and treats every schedule that it reads as if there were no other. -/
structure TickIsolates (env : Env) (c : TickCall) (db : Db) : Prop where
  returns : (c.outcome env db).1.isOk = true
  apart : ∀ s ∈ (db.atTick env c.now).enabledSchedules,
    Apart env c.now (db.atTick env c.now) (c.after env db) s

/-- The tick gets to its loop, and nothing escapes the pass over any schedule that it reads. -/
structure NothingEscapes (env : Env) (now : Time) (db : Db) : Prop where
  starts : ∃ db₁ ids db₂, syncRegistry env now db = .ok ((), db₁) ∧
    recoverExpired env now db₁ = .ok (ids, db₂)
  passes : ∀ s ∈ (db.atTick env now).enabledSchedules, scheduleRaises env now s = none

theorem Db.atTick_eq {db₁ db₂ : Db} {ids : List String}
    (hsync : syncRegistry env now db = .ok ((), db₁))
    (hrecover : recoverExpired env now db₁ = .ok (ids, db₂)) : db.atTick env now = db₂ := by
  rw [Db.atTick, Proc.run_bind_of_ok (Proc.run_atomically_of_ok hsync),
    Proc.run_atomically_of_ok hrecover]

/-- A tick that gets to its loop is the loop. -/
theorem TickCall.outcome_loop {db₁ db₂ : Db} {ids : List String} (clock : Nat → Time)
    (hsync : syncRegistry env now db = .ok ((), db₁))
    (hrecover : recoverExpired env now db₁ = .ok (ids, db₂)) :
    TickCall.outcome env ⟨now, clock, none⟩ db =
      (db₂.enabledSchedules.foldlM (tickSchedule env now clock none) {}).run db₂ := by
  rw [TickCall.outcome, schedulerTick, Proc.run_bind_of_ok (Proc.run_atomically_of_ok hsync),
    Proc.run_bind_of_ok (Proc.run_atomically_of_ok hrecover)]
  rfl

/-- A tick that returns has got to its loop. -/
theorem TickCall.starts_of_returns {c : TickCall} (h : (c.outcome env db).1.isOk = true) :
    ∃ db₁ ids db₂, syncRegistry env c.now db = .ok ((), db₁) ∧
      recoverExpired env c.now db₁ = .ok (ids, db₂) := by
  rw [TickCall.outcome, schedulerTick] at h
  cases hsync : syncRegistry env c.now db with
  | error e =>
    rw [Proc.run_bind_of_error (Proc.run_atomically_of_error hsync)] at h
    cases h
  | ok synced =>
    obtain ⟨_, db₁⟩ := synced
    rw [Proc.run_bind_of_ok (Proc.run_atomically_of_ok hsync)] at h
    cases hrecover : recoverExpired env c.now db₁ with
    | error e =>
      rw [Proc.run_bind_of_error (Proc.run_atomically_of_error hrecover)] at h
      cases h
    | ok recovered => exact ⟨db₁, recovered.1, recovered.2, rfl, hrecover⟩

/-- After complete passes over the schedules each of them has had its own. -/
theorem Db.Unread.apart {rows : List ScheduleRow} (h : db.Unread rows) {s : ScheduleRow}
    (hs : s ∈ rows) : Apart env now db (db.finishAll env now rows) s := by
  have hkeyed : Keyed ScheduleRow.scheduleId (db.finishAll env now rows).schedules := by
    clear hs
    induction rows generalizing db with
    | nil => exact h.keyed
    | cons u rows ih => exact ih (h.finish now)
  refine ⟨?_, fun i hi => ?_, fun j hj hnew hid => ?_⟩
  · exact hkeyed.find?_eq_some.mpr ⟨h.finishAll_row hs, schedulePass_id env now s s⟩
  · rw [Db.finishAll_jobs]
    exact hasKey_insertAll (List.mem_flatMap.mpr ⟨s, hs, hi⟩)
  · rw [Db.finishAll_jobs] at hj
    obtain ⟨i, hi, n, rfl⟩ := (mem_insertAll hj).resolve_left hnew
    obtain ⟨u, hu, hi⟩ := List.mem_flatMap.mp hi
    -- the row names the schedule of its pass
    have hsame : u.scheduleId = s.scheduleId :=
      Option.some.inj (((schedulePass_row hi).2 n).symm.trans hid)
    obtain rfl := h.keyed.eq_of_mem (h.rows_mem u hu) (h.rows_mem s hs) hsame
    exact ⟨i, hi, n, rfl⟩

/-- Two ticks at one time, over whatever tables, leave one row for a schedule that both read, and a
new job of it in one has its key in the other. -/
theorem Apart.same {before before' after after' : Db} {s : ScheduleRow}
    (h : Apart env now before after s) (h' : Apart env now before' after' s) :
    after.schedules.find? (fun r => r.scheduleId = s.scheduleId) =
        after'.schedules.find? (fun r => r.scheduleId = s.scheduleId) ∧
      ∀ j ∈ after.jobs, j ∉ before.jobs → j.scheduleId = some s.scheduleId →
        HasKey JobRow.dedupeKey after'.jobs j.dedupeKey := by
  refine ⟨h.row.trans h'.row.symm, fun j hj hnew hid => ?_⟩
  obtain ⟨i, hi, n, rfl⟩ := h.own j hj hnew hid
  rw [i.column_row]
  exact h'.submitted i hi

end

/-! ## Two tables -/

namespace Sample

theorem numbered_nil : Unissued scheduleEnv ([], 0) := fun _ hj => nomatch hj

/-- Nothing escapes a tick over the schedules of the registry. -/
theorem nothingEscapes : NothingEscapes scheduleEnv (tick 1) {} := by
  have hok : ((tickAt 1 none).outcome scheduleEnv {}).1.isOk = true := by decide +kernel
  have hstarts : ∃ db₁ ids db₂, syncRegistry scheduleEnv (tick 1) {} = .ok ((), db₁) ∧
      recoverExpired scheduleEnv (tick 1) db₁ = .ok (ids, db₂) :=
    @TickCall.starts_of_returns scheduleEnv {} (tickAt 1 none) hok
  have hall : ((({} : Db).atTick scheduleEnv (tick 1)).enabledSchedules.all fun s =>
      (scheduleRaises scheduleEnv (tick 1) s).isNone) = true := by decide +kernel
  exact ⟨hstarts, fun s hs => Option.isNone_iff_eq_none.mp (List.all_eq_true.mp hall s hs)⟩

/-- A schedule of a version of the definition that the registry had before. -/
def outdated : ScheduleRow where
  scheduleId := "schedule_0"
  datasourceId := nightly.datasourceId
  definitionVersion := 7
  name := "current"
  lane := nightly.defaultLane
  rule := .obj [("kind", .str "interval"), ("seconds", .int 1)]
  ruleHash := "rule-0"
  timezone := "UTC"
  catchupPolicy := .latestOnly
  maxCatchupJobs := 1
  maxCatchupHorizonSeconds := 0
  cursorAt := none
  nextDueAt := none
  enabled := true
  pausedReason := none
  createdAt := tick 0
  updatedAt := tick 0

end Sample

end NanFung
