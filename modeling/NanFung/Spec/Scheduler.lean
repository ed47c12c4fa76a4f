import NanFung.Catchup
import NanFung.Lib.Intake
import NanFung.Spec.Refresh

/-!
# What a tick writes

Once the registry is synchronised, what a tick does for a schedule depends on the row it has read
and the clock only: some insertions under dedupe keys, then possibly new columns for the row.
`Progress` says how far a tick has come, wherever and why it ends; a tick that completes has made the
whole pass over every schedule.
-/

namespace NanFung

open Table

variable {env : Env} {db db' : Db} {now : Time}

/-! ## Schedule rows over time -/

/-- A later state of a schedule's row: only the columns of a tick differ, and the cursor is not
behind. -/
def ScheduleRow.Advances (r r' : ScheduleRow) : Prop :=
  ∃ cursorAt nextDueAt pausedReason updatedAt,
    r' = { r with
      cursorAt := cursorAt
      nextDueAt := nextDueAt
      pausedReason := pausedReason
      updatedAt := updatedAt } ∧ ∀ t ∈ r.cursorAt, ∃ u ∈ cursorAt, t ≤ u

theorem ScheduleRow.Advances.refl (r : ScheduleRow) : r.Advances r :=
  ⟨_, _, _, _, rfl, fun t ht => ⟨t, ht, le_rfl⟩⟩

theorem ScheduleRow.Advances.trans {r s u : ScheduleRow} (h : r.Advances s) (h' : s.Advances u) :
    r.Advances u := by
  obtain ⟨c, n, p, t, rfl, hc⟩ := h
  obtain ⟨c', n', p', t', rfl, hc'⟩ := h'
  refine ⟨c', n', p', t', rfl, fun x hx => ?_⟩
  obtain ⟨y, hy, hxy⟩ := hc x hx
  obtain ⟨z, hz, hyz⟩ := hc' y hy
  exact ⟨z, hz, hxy.trans hyz⟩

/-- Definitions stay, and no schedule goes back. -/
structure Db.Grows (db db' : Db) : Prop where
  definitions : db.definitions <+: db'.definitions
  schedules : ∀ r ∈ db.schedules, ∃ r' ∈ db'.schedules, r.Advances r'

theorem Db.Grows.refl (db : Db) : db.Grows db :=
  ⟨List.prefix_rfl, fun r hr => ⟨r, hr, .refl r⟩⟩

theorem Db.Grows.trans {db'' : Db} (h : db.Grows db') (h' : db'.Grows db'') : db.Grows db'' := by
  refine ⟨h.definitions.trans h'.definitions, fun r hr => ?_⟩
  obtain ⟨s, hs, hrs⟩ := h.schedules r hr
  obtain ⟨u, hu, hsu⟩ := h'.schedules s hs
  exact ⟨u, hu, hrs.trans hsu⟩

/-- What concerns other tables does not count. -/
theorem Db.Grows.of_same (hd : db'.definitions = db.definitions)
    (hs : db'.schedules = db.schedules) : db.Grows db' :=
  ⟨hd ▸ List.prefix_rfl, fun r hr => ⟨r, hs ▸ hr, .refl r⟩⟩

/-! ## Synchronisation -/

/-- A row for the schedule is in the database. -/
def ScheduleSynced (env : Env) (db : Db) (d : DatasourceDefinition) (s : ScheduleDescriptor) : Prop :=
  ∃ id rule ruleHash, scheduleId env d s.name = .ok id ∧ env.json s.rule = .ok rule ∧
    env.platform.requestHash s.rule = .ok ruleHash ∧ ∃ r ∈ db.schedules, r.scheduleId = id ∨
      ((r.datasourceId, r.definitionVersion) = d.key ∧ r.name = s.name ∧ r.ruleHash = ruleHash)

/-- The definition and its schedules are in the database. -/
structure DefinitionSynced (env : Env) (db : Db) (d : DatasourceDefinition) : Prop where
  definition : ∃ r, db.definitions.find? (fun r => r.definition.key = d.key) = some r ∧
    r.definition.definitionHash = d.definitionHash
  schedules : ∀ s ∈ d.schedules, ScheduleSynced env db d s

/-- The registry is in the database. -/
def Db.Synced (env : Env) (db : Db) : Prop := ∀ d ∈ env.registry.definitions, DefinitionSynced env db d

theorem ScheduleSynced.grows {d : DatasourceDefinition} {s : ScheduleDescriptor}
    (h : ScheduleSynced env db d s) (hg : db.Grows db') : ScheduleSynced env db' d s := by
  obtain ⟨id, rule, hash, hid, hrule, hh, r, hr, hmatch⟩ := h
  obtain ⟨r', hr', _, _, _, _, rfl, _⟩ := hg.schedules r hr
  exact ⟨id, rule, hash, hid, hrule, hh, _, hr', hmatch⟩

theorem DefinitionSynced.grows {d : DatasourceDefinition} (h : DefinitionSynced env db d)
    (hg : db.Grows db') : DefinitionSynced env db' d := by
  obtain ⟨⟨r, hr, hhash⟩, hschedules⟩ := h
  refine ⟨?_, fun s hs => (hschedules s hs).grows hg⟩
  obtain ⟨rows, hrows⟩ := hg.definitions
  exact ⟨r, by rw [← hrows, List.find?_append, hr, Option.some_or], hhash⟩

theorem Db.Synced.grows (h : db.Synced env) (hg : db.Grows db') : db'.Synced env :=
  fun d hd => (h d hd).grows hg

/-- A loop whose steps change nothing. -/
theorem foldlM_self {α : Type} {f : Db → α → Except StoreError Db} {l : List α}
    (h : ∀ a ∈ l, f db a = .ok db) : l.foldlM f db = .ok db := by
  induction l with
  | nil => rfl
  | cons a l ih =>
    rw [List.foldlM_cons, bind_ok]
    exact ⟨db, h a (by simp), ih fun b hb => h b (by simp [hb])⟩

/-- Synchronising a definition again changes nothing. -/
theorem DefinitionSynced.sync {d : DatasourceDefinition} (h : DefinitionSynced env db d)
    (now : Time) : syncDefinition env now db d = .ok db := by
  obtain ⟨⟨r, hr, hhash⟩, hschedules⟩ := h
  have hdefinition : insertDefinition d now db = .ok db := by
    unfold insertDefinition
    rw [hr]
    simp [require, hhash]
  simp only [syncDefinition, bind_ok]
  refine ⟨db, hdefinition, foldlM_self fun s hs => ?_⟩
  obtain ⟨id, rule, hash, hid, hrule, hh, hrow⟩ := hschedules s hs
  simp only [insertSchedule, bind_ok]
  exact ⟨id, hid, rule, hrule, hash, hh, if_pos hrow⟩

theorem Db.Synced.sync (h : db.Synced env) (now : Time) : syncRegistry env now db = .ok ((), db) := by
  simp only [syncRegistry, bind_ok]
  exact ⟨db, foldlM_self fun d hd => (h d hd).sync now, rfl⟩

theorem insertSchedule_grows {d : DatasourceDefinition} {s : ScheduleDescriptor}
    (h : insertSchedule env d s now db = .ok db') : db.Grows db' ∧ ScheduleSynced env db' d s := by
  simp only [insertSchedule, bind_ok] at h
  obtain ⟨id, hid, rule, hrule, hash, hh, h⟩ := h
  split at h
  · next hrow =>
    cases h
    exact ⟨.refl db, id, rule, hash, hid, hrule, hh, hrow⟩
  · cases h
    refine ⟨⟨List.prefix_rfl, fun r hr => ⟨r, List.mem_append_left _ hr, .refl r⟩⟩, ?_⟩
    exact ⟨id, rule, hash, hid, hrule, hh, _, List.mem_append_right _ (List.mem_singleton_self _),
      Or.inl rfl⟩

theorem insertDefinition_grows {d : DatasourceDefinition} (h : insertDefinition d now db = .ok db') :
    db.Grows db' ∧ ∃ r, db'.definitions.find? (fun r => r.definition.key = d.key) = some r ∧
      r.definition.definitionHash = d.definitionHash := by
  unfold insertDefinition at h
  split at h
  · next r hr =>
    simp only [bind_ok, require_ok, Except.ok.injEq] at h
    obtain ⟨-, hhash, rfl⟩ := h
    exact ⟨.refl db, r, hr, hhash⟩
  · next hnone =>
    simp only [bind_ok, require_ok, Except.ok.injEq] at h
    obtain ⟨-, -, rfl⟩ := h
    refine ⟨⟨List.prefix_append _ _, fun r hr => ⟨r, hr, .refl r⟩⟩, ⟨d, now⟩, ?_, rfl⟩
    rw [List.find?_append, hnone]
    simp

/-- A loop that puts every item in the database, where it stays. -/
theorem foldlM_grows {α : Type} {f : Db → α → Except StoreError Db} {P : Db → α → Prop}
    (hstep : ∀ s a s', f s a = .ok s' → s.Grows s' ∧ P s' a)
    (hkeep : ∀ s a s', P s a → s.Grows s' → P s' a) {l : List α}
    (h : l.foldlM f db = .ok db') : db.Grows db' ∧ ∀ a ∈ l, P db' a := by
  induction l generalizing db with
  | nil =>
    rw [List.foldlM_nil, pure_ok] at h
    exact ⟨h ▸ .refl db, fun a ha => nomatch ha⟩
  | cons a l ih =>
    rw [List.foldlM_cons, bind_ok] at h
    obtain ⟨s, hs, h⟩ := h
    obtain ⟨hgrows, ha⟩ := hstep _ _ _ hs
    obtain ⟨hrest, hl⟩ := ih h
    refine ⟨hgrows.trans hrest, fun b hb => ?_⟩
    rcases List.mem_cons.mp hb with rfl | hb
    · exact hkeep _ _ _ ha hrest
    · exact hl b hb

/-- A definition that has been synchronised is in the database. -/
theorem syncDefinition_grows {d : DatasourceDefinition} (h : syncDefinition env now db d = .ok db') :
    db.Grows db' ∧ DefinitionSynced env db' d := by
  simp only [syncDefinition, bind_ok] at h
  obtain ⟨db₁, hdefinition, h⟩ := h
  obtain ⟨hgrows, r, hr, hhash⟩ := insertDefinition_grows hdefinition
  obtain ⟨hrest, hschedules⟩ := foldlM_grows (P := fun s u => ScheduleSynced env s d u)
    (fun _ _ _ => insertSchedule_grows) (fun _ _ _ => ScheduleSynced.grows) h
  obtain ⟨rows, hrows⟩ := hrest.definitions
  exact ⟨hgrows.trans hrest,
    ⟨r, by rw [← hrows, List.find?_append, hr, Option.some_or], hhash⟩, hschedules⟩

/-- After a synchronisation the registry is in the database. -/
theorem syncRegistry_synced {u : Unit} (h : syncRegistry env now db = .ok (u, db')) :
    db.Grows db' ∧ db'.Synced env := by
  simp only [syncRegistry, bind_ok, Except.ok.injEq, Prod.mk.injEq, true_and] at h
  obtain ⟨db₁, h, rfl⟩ := h
  exact foldlM_grows (f := syncDefinition env now) (P := DefinitionSynced env)
    (fun _ _ _ => syncDefinition_grows) (fun _ _ _ => DefinitionSynced.grows) h

/-! ## One slot -/

/-- A constraint of the table is no refusal. -/
theorem insertJob_error {j : JobRow} {e : StoreError} (h : insertJob j db = .error e) :
    e.isOperational = false := by
  unfold insertJob at h
  rcases bind_error h with h | ⟨_, -, h⟩
  · exact (require_error h).2 ▸ rfl
  rcases bind_error h with h | ⟨_, -, h⟩
  · exact (require_error h).2 ▸ rfl
  rcases bind_error h with h | ⟨_, -, h⟩
  · exact (require_error h).2 ▸ rfl
  rcases bind_error h with h | ⟨_, -, h⟩
  · exact (require_error h).2 ▸ rfl
  rcases bind_error h with h | ⟨_, -, h⟩
  · exact (require_error h).2 ▸ rfl
  rcases bind_error h with h | ⟨_, -, h⟩
  · exact (require_error h).2 ▸ rfl
  · exact nomatch h

/-- What is hashed can be stored. -/
theorem json_of_requestHash {v : Json} {digest : String}
    (h : env.platform.requestHash v = .ok digest) : ∃ w, env.json v = .ok w := by
  simp only [Platform.requestHash, Platform.hashCanonical, Platform.canonicalJson, bind_ok] at h
  obtain ⟨_, ⟨w, hw, -⟩, -⟩ := h
  exact ⟨w, hw⟩

/-- The insertion that submitting a slot makes. -/
def slotInsertion (env : Env) (s : ScheduleRow) (definition : DatasourceDefinition) (slot : Time) :
    Except StoreError (Insertion JobRow.dedupeKey) := do
  let args := slotArgs s definition slot
  let plan ← enqueuePlan env args slot
  let dedupe ← dedupeKey env args plan none
  let request ← env.json (.obj plan.payload)
  .ok {
    key := dedupe
    row := fun n => queuedJob args plan (env.newId "job" n) dedupe request none
    column_row := fun _ => rfl }

/-- The database after some insertions of jobs. -/
def Db.place (db : Db) (is : List (Insertion JobRow.dedupeKey)) : Db :=
  { db with
    jobs := (insertAll (db.jobs, db.drawn) is).1
    drawn := (insertAll (db.jobs, db.drawn) is).2 }

theorem Db.place_append (db : Db) (is js : List (Insertion JobRow.dedupeKey)) :
    db.place (is ++ js) = (db.place is).place js := by
  simp only [Db.place, insertAll_append]

/-- Submitting a slot: its insertion is made, refused, or breaks a constraint, which ends the tick. -/
inductive Submitted (env : Env) (s : ScheduleRow) (definition : DatasourceDefinition) (slot : Time)
    (db : Db) : Except StoreError EnqueueResult → Db → Prop where
  | placed {i : Insertion JobRow.dedupeKey} {r : EnqueueResult}
      (insertion : slotInsertion env s definition slot = .ok i) :
      Submitted env s definition slot db (.ok r) (db.place [i])
  | refused {e : StoreError} (insertion : slotInsertion env s definition slot = .error e) :
      Submitted env s definition slot db (.error e) db
  | broken {e : StoreError} (raises : e.isOperational = false) :
      Submitted env s definition slot db (.error e) db

theorem enqueueTx_submitted {s : ScheduleRow} {definition : DatasourceDefinition} {slot : Time}
    {plan : EnqueuePlan} {dedupe : String}
    (hplan : enqueuePlan env (slotArgs s definition slot) slot = .ok plan)
    (hkey : dedupeKey env (slotArgs s definition slot) plan none = .ok dedupe) :
    Submitted env s definition slot db
      ((Proc.atomically (enqueueTx env (slotArgs s definition slot) plan dedupe)).run db).1
      ((Proc.atomically (enqueueTx env (slotArgs s definition slot) plan dedupe)).run db).2 := by
  obtain ⟨-, htrigger, -, hhash, -⟩ := enqueuePlan_ok hplan
  have htrigger : plan.trigger = .schedule := by
    have hname : Trigger.ofName? "schedule" = some Trigger.schedule := by decide +kernel
    exact (Option.some.inj (hname.symm.trans htrigger)).symm
  obtain ⟨request, hrequest⟩ := json_of_requestHash hhash
  have hinsertion : slotInsertion env s definition slot = .ok {
      key := dedupe
      row := fun n =>
        queuedJob (slotArgs s definition slot) plan (env.newId "job" n) dedupe request none
      column_row := fun _ => rfl } := by
    simp only [slotInsertion, bind_ok]
    exact ⟨plan, hplan, dedupe, hkey, request, hrequest, rfl⟩
  cases htx : enqueueTx env (slotArgs s definition slot) plan dedupe db with
  | error e =>
    rw [Proc.run_atomically_of_error htx]
    refine .broken ?_
    unfold enqueueTx at htx
    split at htx
    · rcases bind_error htx with h | ⟨_, -, h⟩
      · cases hrequest.symm.trans h
      · rcases bind_error h with h | ⟨_, -, h⟩
        · exact insertJob_error h
        · cases h
    · rw [if_neg (by simp [htrigger])] at htx
      cases htx
  | ok result =>
    obtain ⟨r, db₁⟩ := result
    rw [Proc.run_atomically_of_ok htx]
    have hdb : db₁ = db.place [{
        key := dedupe
        row := fun n =>
          queuedJob (slotArgs s definition slot) plan (env.newId "job" n) dedupe request none
        column_row := fun _ => rfl }] := by
      unfold enqueueTx at htx
      split at htx
      · obtain ⟨request', hrequest', -, -, hnew, -, rfl⟩ := acceptJob_ok htx
        obtain rfl : request = request' := Except.ok.inj (hrequest.symm.trans hrequest')
        rw [Db.place, insertAll_cons, insertAll_nil, insertNew_of_new hnew]
        rfl
      · next existing hfind =>
        rw [if_neg (by simp [htrigger])] at htx
        cases htx
        have hkey : HasKey JobRow.dedupeKey db.jobs dedupe :=
          ⟨existing, List.mem_of_find?_eq_some hfind, by simpa using List.find?_some hfind⟩
        rw [Db.place, insertAll_cons, insertAll_nil, insertNew_of_hasKey hkey]
    exact hdb ▸ .placed hinsertion

theorem enqueue_submitted (hsync : db.Synced env) (s : ScheduleRow)
    (definition : DatasourceDefinition) (slot : Time) (clock : Nat → Time) :
    Submitted env s definition slot db ((enqueue env (slotArgs s definition slot) clock).run db).1
      ((enqueue env (slotArgs s definition slot) clock).run db).2 := by
  unfold enqueue
  rw [Proc.run_bind_of_ok (Proc.run_atomically_of_ok (hsync.sync (clock 0)))]
  -- the wall clock plays no part: the slot is the time of the submission
  have hplan : enqueuePlan env (slotArgs s definition slot) (clock 1) =
      enqueuePlan env (slotArgs s definition slot) slot := rfl
  have hquery : ∀ {α : Type} {x y : Except StoreError α}, x = y →
      (Proc.query fun _ : Db => x).run db = (y, db) := fun h => h ▸ rfl
  cases h : enqueuePlan env (slotArgs s definition slot) slot with
  | error e =>
    rw [Proc.run_bind_of_error (hquery (hplan.trans h))]
    exact .refused (bind_of_error h)
  | ok plan =>
    rw [Proc.run_bind_of_ok (hquery (hplan.trans h))]
    cases hkey : dedupeKey env (slotArgs s definition slot) plan
        (slotArgs s definition slot).requestInstanceId with
    | error e =>
      simp only [Proc.run_bind, Proc.run_query]
      refine .refused ?_
      rw [slotInsertion, h]
      show (dedupeKey env (slotArgs s definition slot) plan none >>= _) = _
      exact bind_of_error hkey
    | ok dedupe =>
      simp only [Proc.run_bind, Proc.run_query]
      exact enqueueTx_submitted h hkey

/-! ## The slots of a schedule -/

/-- The insertions of some slots, and what refuses the slot after them. -/
def slotInsertions (env : Env) (s : ScheduleRow) (definition : DatasourceDefinition) :
    List Time → List (Insertion JobRow.dedupeKey) × Option StoreError
  | [] => ([], none)
  | slot :: slots =>
    match slotInsertion env s definition slot with
    | .error e => ([], some e)
    | .ok i =>
      let rest := slotInsertions env s definition slots
      (i :: rest.1, rest.2)

/-- The loop over the slots: it ends after the last one, at a refusal, or before. -/
inductive SlotsRun (limit : Option Nat) (all : List (Insertion JobRow.dedupeKey) × Option StoreError)
    (db : Db) : Except StoreError (Nat × SlotsOutcome) → Db → Prop where
  | done {writes accepted deduplicated : Nat} (admitted : all.2 = none) :
      SlotsRun limit all db (.ok (writes, .done accepted deduplicated)) (db.place all.1)
  | failed {writes : Nat} {name : String} (refused : all.2.isSome) :
      SlotsRun limit all db (.ok (writes, .failed name)) (db.place all.1)
  | stopped {writes : Nat} {is : List (Insertion JobRow.dedupeKey)} (some_ : is <+: all.1)
      (limited : limit ≠ none) : SlotsRun limit all db (.ok (writes, .stopped)) (db.place is)
  | raised {e : StoreError} {is : List (Insertion JobRow.dedupeKey)} (some_ : is <+: all.1) :
      SlotsRun limit all db (.error e) (db.place is)

theorem SlotsRun.cons {limit : Option Nat}
    {all : List (Insertion JobRow.dedupeKey) × Option StoreError} {i : Insertion JobRow.dedupeKey}
    {result : Except StoreError (Nat × SlotsOutcome)}
    (h : SlotsRun limit all (db.place [i]) result db') :
    SlotsRun limit (i :: all.1, all.2) db result db' := by
  have hplace : ∀ is, (db.place [i]).place is = db.place (i :: is) := fun is =>
    (db.place_append [i] is).symm
  cases h with
  | done admitted =>
    rw [hplace]
    exact @SlotsRun.done limit (i :: all.1, all.2) _ _ _ _ admitted
  | failed refused =>
    rw [hplace]
    exact @SlotsRun.failed limit (i :: all.1, all.2) _ _ _ refused
  | stopped some_ limited =>
    rw [hplace]
    exact .stopped ((List.prefix_cons_inj i).mpr some_) limited
  | raised some_ =>
    rw [hplace]
    exact .raised ((List.prefix_cons_inj i).mpr some_)

theorem Db.Synced.place (h : db.Synced env) (is : List (Insertion JobRow.dedupeKey)) :
    (db.place is).Synced env := h.grows (.of_same rfl rfl)

theorem tickSlots_run {s : ScheduleRow} {definition : DatasourceDefinition} {clock : Nat → Time}
    {limit : Option Nat} {slots : List Time} {writes accepted deduplicated : Nat}
    (hsync : db.Synced env) : SlotsRun limit (slotInsertions env s definition slots) db
      ((tickSlots env s definition clock limit slots writes accepted deduplicated).run db).1
      ((tickSlots env s definition clock limit slots writes accepted deduplicated).run db).2 := by
  induction slots generalizing db writes accepted deduplicated with
  | nil => exact @SlotsRun.done limit ([], none) _ _ _ _ rfl
  | cons slot slots ih =>
    unfold tickSlots
    split
    · next hlimit => exact @SlotsRun.stopped limit _ _ _ [] List.nil_prefix (by simp [hlimit])
    have hsubmitted := enqueue_submitted hsync s definition slot fun _ => clock writes
    rcases hrun : (enqueue env (slotArgs s definition slot) fun _ => clock writes).run db with
      ⟨result, db₁⟩
    rw [hrun] at hsubmitted
    rw [slotInsertions, Proc.run_bind, Proc.run_tryCatch, Proc.run_bind, hrun]
    cases hsubmitted with
    | @placed i r insertion =>
      rw [insertion]
      simp only [Proc.run_pure]
      split
      · exact (ih (hsync.place [i])).cons
      · exact (ih (hsync.place [i])).cons
    | @refused e insertion =>
      rw [insertion]
      cases hop : e.isOperational with
      | true =>
        simp only [hop, if_true, Proc.run_pure]
        exact @SlotsRun.failed limit ([], some e) _ _ _ rfl
      | false =>
        simp only [hop, Bool.false_eq_true, if_false, Proc.run_throw]
        exact @SlotsRun.raised limit _ _ _ [] List.nil_prefix
    | @broken e raises =>
      simp only [raises, Bool.false_eq_true, if_false, Proc.run_throw]
      exact @SlotsRun.raised limit _ _ _ [] List.nil_prefix

/-! ## One schedule -/

/-- A complete pass over a schedule: rows inserted, and new columns for the row of the schedule. -/
structure Pass where
  inserts : List (Insertion JobRow.dedupeKey)
  settle : ScheduleRow → ScheduleRow

/-- `_pause_schedule`, on the row. -/
def ScheduleRow.pause (now : Time) (s : ScheduleRow) : ScheduleRow :=
  { s with pausedReason := some "SCHEDULE_INVALID", updatedAt := now }

/-- `_update_schedule_cursor`, on the row. -/
def ScheduleRow.moveTo (cursorAt nextDueAt now : Time) (s : ScheduleRow) : ScheduleRow :=
  { s with
    cursorAt := some cursorAt
    nextDueAt := some nextDueAt
    pausedReason := none
    updatedAt := now }

/-- The pass a tick makes over a schedule whose row it has read. -/
def schedulePass (env : Env) (now : Time) (s : ScheduleRow) : Pass :=
  match env.registry.lookup env.platform s.datasourceId (some s.definitionVersion) with
  | .error _ => ⟨[], id⟩
  | .ok definition =>
    if !runtimeReady env definition then ⟨[], id⟩
    else match planSchedule env s now with
      | .error e => ⟨[], if e.isValueError then ScheduleRow.pause now else id⟩
      | .ok (recurrence, due) =>
        let all := slotInsertions env s definition due.slots
        let nextCursor := due.nextCursorAt.getD s.cursor
        match all.2, recurrence.nextAfter nextCursor with
        | none, .ok nextDue => ⟨all.1, ScheduleRow.moveTo nextCursor nextDue now⟩
        | _, _ => ⟨all.1, id⟩

/-- The database after a complete pass over a schedule. -/
def Db.finish (env : Env) (now : Time) (db : Db) (s : ScheduleRow) : Db :=
  { db.place (schedulePass env now s).inserts with
    schedules := updateWhere (fun r => r.scheduleId = s.scheduleId) (schedulePass env now s).settle
      db.schedules }

theorem Db.finish_of_pass {s : ScheduleRow} {p : Pass} (h : schedulePass env now s = p) :
    db.finish env now s = { db.place p.inserts with
      schedules := updateWhere (fun r => r.scheduleId = s.scheduleId) p.settle db.schedules } := by
  subst h
  rfl

/-- A pass that leaves the row of the schedule alone. -/
theorem Db.finish_of_id {s : ScheduleRow} {is : List (Insertion JobRow.dedupeKey)}
    (h : schedulePass env now s = ⟨is, id⟩) : db.finish env now s = db.place is := by
  have hrows : updateWhere (fun r => r.scheduleId = s.scheduleId) id db.schedules = db.schedules := by
    simp [updateWhere]
  rw [Db.finish_of_pass h, hrows]
  rfl

/-- What a tick does for one schedule: the complete pass, or a part of its insertions. -/
inductive ScheduleRun (env : Env) (now : Time) (limit : Option Nat) (s : ScheduleRow) (db : Db) :
    Except StoreError Tick → Db → Prop where
  | done {t : Tick} (goes_on : t.stopped = false) :
      ScheduleRun env now limit s db (.ok t) (db.finish env now s)
  | stopped {t : Tick} {is : List (Insertion JobRow.dedupeKey)} (stops : t.stopped = true)
      (limited : limit ≠ none) (some_ : is <+: (schedulePass env now s).inserts) :
      ScheduleRun env now limit s db (.ok t) (db.place is)
  | raised {e : StoreError} {is : List (Insertion JobRow.dedupeKey)}
      (some_ : is <+: (schedulePass env now s).inserts) :
      ScheduleRun env now limit s db (.error e) (db.place is)

theorem ScheduleRun.of_finish {limit : Option Nat} {s : ScheduleRow} {t : Tick}
    (ht : t.stopped = false) (h : db' = db.finish env now s) :
    ScheduleRun env now limit s db (.ok t) db' := by
  subst h
  exact .done ht

/-- The cursor, written after the slots of a schedule. -/
theorem tickCursor_run {s : ScheduleRow} {definition : DatasourceDefinition}
    {recurrence : Recurrence} {due : ScheduleMaterialization} {limit : Option Nat} {t : Tick}
    {accepted deduplicated : Nat} {is : List (Insertion JobRow.dedupeKey)}
    (ht : t.stopped = false) (hinserts : (schedulePass env now s).inserts = is)
    (hsettle : ∀ nextDue, recurrence.nextAfter (due.nextCursorAt.getD s.cursor) = .ok nextDue →
      (schedulePass env now s).settle =
        ScheduleRow.moveTo (due.nextCursorAt.getD s.cursor) nextDue now) :
    ScheduleRun env now limit s db
      ((tickCursor s definition recurrence due now limit t accepted deduplicated).run
        (db.place is)).1
      ((tickCursor s definition recurrence due now limit t accepted deduplicated).run
        (db.place is)).2 := by
  subst hinserts
  unfold tickCursor
  simp only [Proc.run_bind, Proc.run_query]
  cases hnext : recurrence.nextAfter (due.nextCursorAt.getD s.cursor) with
  | error e => exact .raised List.prefix_rfl
  | ok nextDue =>
    simp only
    split
    · next hlimit => exact .stopped rfl (by simp [hlimit]) List.prefix_rfl
    · refine .of_finish ht ?_
      rw [Db.finish, hsettle nextDue hnext]
      rfl

theorem tickSchedule_run (hsync : db.Synced env) (clock : Nat → Time) (limit : Option Nat)
    (s : ScheduleRow) {t : Tick} (ht : t.stopped = false) :
    ScheduleRun env now limit s db ((tickSchedule env now clock limit t s).run db).1
      ((tickSchedule env now clock limit t s).run db).2 := by
  have hkept : schedulePass env now s = ⟨[], id⟩ → db = db.finish env now s := fun hpass =>
    (Db.finish_of_id hpass).symm
  unfold tickSchedule
  rw [ht, if_neg Bool.false_ne_true]
  simp only [Proc.run_bind, Proc.run_query]
  cases hlookup : env.registry.lookup env.platform s.datasourceId (some s.definitionVersion) with
  | error e => exact @ScheduleRun.raised env now limit s db e [] List.nil_prefix
  | ok definition =>
    simp only
    cases hready : runtimeReady env definition with
    | false => exact .of_finish rfl (hkept (by simp [schedulePass, hlookup, hready]))
    | true =>
      simp only [Bool.not_true, Bool.false_eq_true, if_false]
      cases hplan : planSchedule env s now with
      | error e =>
        simp only
        cases hvalue : e.isValueError with
        | false => exact @ScheduleRun.raised env now limit s db e [] List.nil_prefix
        | true =>
          rw [if_pos rfl]
          split
          · next hlimit =>
            exact @ScheduleRun.stopped env now limit s db _ [] rfl (by simp [hlimit]) List.nil_prefix
          · have hpass : schedulePass env now s = ⟨[], ScheduleRow.pause now⟩ := by
              simp [schedulePass, hlookup, hready, hplan, hvalue]
            refine .of_finish rfl ?_
            rw [Db.finish_of_pass hpass]
            rfl
      | ok plan =>
        obtain ⟨recurrence, due⟩ := plan
        simp only [Proc.run_bind]
        have hslots := @tickSlots_run env db s definition clock limit due.slots t.writes 0 0 hsync
        rcases hrun : (tickSlots env s definition clock limit due.slots t.writes 0 0).run db with
          ⟨result, db₁⟩
        rw [hrun] at hslots
        have hinserts : (schedulePass env now s).inserts =
            (slotInsertions env s definition due.slots).1 := by
          simp only [schedulePass, hlookup, hready, hplan, Bool.not_true, Bool.false_eq_true,
            if_false]
          split <;> rfl
        cases hslots with
        | raised some_ => exact .raised (hinserts ▸ some_)
        | stopped some_ limited => exact .stopped rfl limited (hinserts ▸ some_)
        | failed refused =>
          refine .of_finish rfl (Db.finish_of_id ?_).symm
          obtain ⟨e, he⟩ := Option.isSome_iff_exists.mp refused
          simp [schedulePass, hlookup, hready, hplan, he]
        | done admitted =>
          refine tickCursor_run rfl hinserts fun nextDue hnext => ?_
          simp [schedulePass, hlookup, hready, hplan, admitted, hnext]

/-! ## Passes -/

theorem planSchedule_ok {s : ScheduleRow} {recurrence : Recurrence} {due : ScheduleMaterialization}
    (h : planSchedule env s now = .ok (recurrence, due)) :
    recurrenceFromRule env.platform env.zoneInfo s.rule s.timezone s.createdAt = .ok recurrence ∧
      materializeDueSlots recurrence s.cursor now s.catchupPolicy s.maxCatchupJobs
        (if s.maxCatchupHorizonSeconds = 0 then none
          else some (s.maxCatchupHorizonSeconds * Time.second)) = .ok due := by
  simp only [planSchedule, bind_ok, Except.ok.injEq, Prod.mk.injEq] at h
  obtain ⟨r, hr, d, hd, rfl, rfl⟩ := h
  exact ⟨hr, hd⟩

/-- A pass leaves the row alone, pauses the schedule, or moves its cursor. -/
inductive Settled (env : Env) (now : Time) (s : ScheduleRow) : Pass → Prop where
  | kept {is : List (Insertion JobRow.dedupeKey)} : Settled env now s ⟨is, id⟩
  | paused : Settled env now s ⟨[], ScheduleRow.pause now⟩
  | moved {recurrence : Recurrence} {due : ScheduleMaterialization} {nextDue : Time}
      {is : List (Insertion JobRow.dedupeKey)}
      (plan : planSchedule env s now = .ok (recurrence, due)) :
      Settled env now s ⟨is, ScheduleRow.moveTo (due.nextCursorAt.getD s.cursor) nextDue now⟩

theorem schedulePass_settled (env : Env) (now : Time) (s : ScheduleRow) :
    Settled env now s (schedulePass env now s) := by
  unfold schedulePass
  split
  · exact .kept
  split
  · exact .kept
  split
  · split
    · exact .paused
    · exact .kept
  · next plan =>
    simp only
    split
    · exact .moved plan
    · exact .kept

/-- An insertion of a pass is that of a slot that is due. -/
theorem mem_schedulePass {s : ScheduleRow} {i : Insertion JobRow.dedupeKey}
    (h : i ∈ (schedulePass env now s).inserts) : ∃ definition recurrence due slot,
      env.registry.lookup env.platform s.datasourceId (some s.definitionVersion) = .ok definition ∧
      planSchedule env s now = .ok (recurrence, due) ∧ slot ∈ due.slots ∧
      slotInsertion env s definition slot = .ok i := by
  have hslots : ∀ (definition : DatasourceDefinition) (slots : List Time),
      i ∈ (slotInsertions env s definition slots).1 →
        ∃ slot ∈ slots, slotInsertion env s definition slot = .ok i := by
    intro definition slots
    induction slots with
    | nil => exact fun h => nomatch h
    | cons slot slots ih =>
      intro h
      unfold slotInsertions at h
      split at h
      · exact nomatch h
      · next j hj =>
        rcases List.mem_cons.mp h with rfl | h
        · exact ⟨slot, by simp, hj⟩
        · obtain ⟨u, hu, hi⟩ := ih h
          exact ⟨u, by simp [hu], hi⟩
  unfold schedulePass at h
  split at h
  · exact nomatch h
  next definition hlookup =>
  split at h
  · exact nomatch h
  split at h
  · exact nomatch h
  next recurrence due hplan =>
  simp only at h
  split at h
  · obtain ⟨slot, hslot, hi⟩ := hslots _ _ h
    exact ⟨definition, recurrence, due, slot, hlookup, hplan, hslot, hi⟩
  · obtain ⟨slot, hslot, hi⟩ := hslots _ _ h
    exact ⟨definition, recurrence, due, slot, hlookup, hplan, hslot, hi⟩

theorem schedulePass_id (env : Env) (now : Time) (s r : ScheduleRow) :
    ((schedulePass env now s).settle r).scheduleId = r.scheduleId := by
  have h := schedulePass_settled env now s
  generalize schedulePass env now s = p at h ⊢
  cases h <;> rfl

theorem schedulePass_advances (env : Env) (now : Time) (s : ScheduleRow) :
    s.Advances ((schedulePass env now s).settle s) := by
  have h := schedulePass_settled env now s
  generalize schedulePass env now s = p at h ⊢
  cases h with
  | kept => exact .refl s
  | paused => exact ⟨_, _, _, _, rfl, fun t ht => ⟨t, ht, le_rfl⟩⟩
  | @moved recurrence due nextDue is plan =>
    refine ⟨_, _, _, _, rfl, fun t ht => ⟨_, rfl, ?_⟩⟩
    have hcursor : s.cursor = t := by
      rw [ScheduleRow.cursor, Option.mem_def.mp ht, Option.getD_some]
    exact hcursor ▸ (materializeDueSlots_due (planSchedule_ok plan).2).le_cursor

/-! ## All schedules -/

/-- Schedules as a tick has read them: their rows have not changed since. -/
structure Db.Unread (db : Db) (rows : List ScheduleRow) : Prop where
  keyed : Keyed ScheduleRow.scheduleId db.schedules
  rows_mem : ∀ s ∈ rows, s ∈ db.schedules
  distinct : rows.Pairwise fun s r => s.scheduleId ≠ r.scheduleId

theorem Db.Unread.grows {s : ScheduleRow} {rows : List ScheduleRow} (h : db.Unread (s :: rows))
    (now : Time) : db.Grows (db.finish env now s) := by
  refine ⟨List.prefix_rfl, fun r hr => ⟨_, mem_updateWhere_of_mem hr, ?_⟩⟩
  split
  · next heq =>
    obtain rfl := h.keyed.eq_of_mem hr (h.rows_mem s (by simp)) (by simpa using heq)
    exact schedulePass_advances env now r
  · exact .refl r

theorem Db.Unread.finish {s : ScheduleRow} {rows : List ScheduleRow} (h : db.Unread (s :: rows))
    (now : Time) : (db.finish env now s).Unread rows := by
  obtain ⟨hne, hdistinct⟩ := List.pairwise_cons.mp h.distinct
  refine ⟨h.keyed.updateWhere (schedulePass_id env now s), fun r hr => ?_, hdistinct⟩
  exact mem_updateWhere.mpr (Or.inr ⟨h.rows_mem r (by simp [hr]), by simpa using (hne r hr).symm⟩)

/-- How far the loop over some schedules got. -/
inductive Progress (env : Env) (now : Time) : List ScheduleRow → Db → Db → Prop where
  | done (db : Db) : Progress env now [] db db
  | part {s : ScheduleRow} {rows : List ScheduleRow} {db : Db}
      {is : List (Insertion JobRow.dedupeKey)}
      (some_ : is <+: (schedulePass env now s).inserts) : Progress env now (s :: rows) db (db.place is)
  | next {s : ScheduleRow} {rows : List ScheduleRow} {db db' : Db}
      (rest : Progress env now rows (db.finish env now s) db') :
      Progress env now (s :: rows) db db'

/-- The database after a complete pass over every schedule. -/
def Db.finishAll (env : Env) (now : Time) (db : Db) (rows : List ScheduleRow) : Db :=
  rows.foldl (Db.finish env now) db

/-- A loop that has stopped does nothing more. -/
theorem tickSchedules_stopped {clock : Nat → Time} {limit : Option Nat} {rows : List ScheduleRow}
    {t : Tick} (ht : t.stopped = true) :
    (rows.foldlM (tickSchedule env now clock limit) t).run db = (.ok t, db) := by
  induction rows with
  | nil => rfl
  | cons s rows ih =>
    rw [List.foldlM_cons]
    have hstep : (tickSchedule env now clock limit t s).run db = (.ok t, db) := by
      unfold tickSchedule
      rw [if_pos ht]
      rfl
    rw [Proc.run_bind_of_ok hstep]
    exact ih

theorem tickSchedules_run {clock : Nat → Time} {limit : Option Nat} {rows : List ScheduleRow}
    {t : Tick} (ht : t.stopped = false) (hsync : db.Synced env) (hrows : db.Unread rows) :
    Progress env now rows db ((rows.foldlM (tickSchedule env now clock limit) t).run db).2 ∧
      (limit = none → ((rows.foldlM (tickSchedule env now clock limit) t).run db).1.isOk →
        ((rows.foldlM (tickSchedule env now clock limit) t).run db).2 =
          db.finishAll env now rows) := by
  induction rows generalizing db t with
  | nil => exact ⟨.done db, fun _ _ => rfl⟩
  | cons s rows ih =>
    have hstep := @tickSchedule_run _ _ now hsync clock limit s _ ht
    rcases hrun : (tickSchedule env now clock limit t s).run db with ⟨result, db₁⟩
    rw [hrun] at hstep
    rw [List.foldlM_cons]
    cases hstep with
    | raised some_ =>
      rw [Proc.run_bind_of_error hrun]
      exact ⟨.part some_, fun _ hok => nomatch hok⟩
    | stopped stops limited some_ =>
      rw [Proc.run_bind_of_ok hrun, tickSchedules_stopped stops]
      exact ⟨.part some_, fun hnone => absurd hnone limited⟩
    | done goes_on =>
      rw [Proc.run_bind_of_ok hrun]
      obtain ⟨hprogress, hcomplete⟩ := ih goes_on (hsync.grows (hrows.grows now)) (hrows.finish now)
      exact ⟨.next hprogress, hcomplete⟩

/-! ## A tick -/

theorem recoverExpired_frame {ids : List String} (h : recoverExpired env now db = .ok (ids, db')) :
    db'.definitions = db.definitions ∧ db'.schedules = db.schedules := by
  let R : Db → Db → Prop := fun s s' => s'.definitions = s.definitions ∧ s'.schedules = s.schedules
  have hrefl : Std.Refl R := ⟨fun _ => ⟨rfl, rfl⟩⟩
  have htrans : IsTrans Db R := ⟨fun _ _ _ h h' => ⟨h'.1.trans h.1, h'.2.trans h.2⟩⟩
  simp only [recoverExpired, bind_ok, Except.ok.injEq, Prod.mk.injEq] at h
  obtain ⟨db₁, h, -, rfl⟩ := h
  refine (foldlM_ok_rel (R := R) (I := fun _ => True) (fun row _ s s' _ hs => ⟨?_, trivial⟩) trivial h).1
  simp only [recoverRow, bind_ok, Except.ok.injEq] at hs
  obtain ⟨error, -, next, -, rfl⟩ := hs
  split
  · exact ⟨rfl, rfl⟩
  · unfold failRunningAttempt
    split
    · exact ⟨rfl, rfl⟩
    · exact ⟨rfl, rfl⟩

theorem Db.unread_enabledSchedules (h : Keyed ScheduleRow.scheduleId db.schedules) :
    db.Unread db.enabledSchedules := by
  have hsub : db.enabledSchedules.Perm
      (db.schedules.filter fun s => s.enabled ∧ s.pausedReason = none) :=
    List.perm_insertionSort _ _
  refine ⟨h, fun s hs => List.mem_of_mem_filter (hsub.mem_iff.mp hs), ?_⟩
  have hpairwise : (db.schedules.filter fun s => s.enabled ∧ s.pausedReason = none).Pairwise
      fun s r => s.scheduleId ≠ r.scheduleId := (List.pairwise_map.mp h).filter _
  exact hsub.symm.pairwise hpairwise fun h => h.symm

/-- What a tick does: it ends before its loop, or makes some progress in it. -/
inductive TickRun (env : Env) (now : Time) (limit : Option Nat) (db : Db) :
    Except StoreError Tick → Db → Prop where
  | unsynced {e : StoreError} : TickRun env now limit db (.error e) db
  | unrecovered {e : StoreError} {db₁ : Db} (synced : syncRegistry env now db = .ok ((), db₁)) :
      TickRun env now limit db (.error e) db₁
  | ran {result : Except StoreError Tick} {db₁ db₂ db' : Db} {ids : List String}
      (synced : syncRegistry env now db = .ok ((), db₁))
      (recovered : recoverExpired env now db₁ = .ok (ids, db₂))
      (progress : Progress env now db₂.enabledSchedules db₂ db')
      (complete : limit = none → result.isOk → db' = db₂.finishAll env now db₂.enabledSchedules) :
      TickRun env now limit db result db'

theorem syncRegistry_keyed {u : Unit} (h : syncRegistry env now db = .ok (u, db'))
    (hkeyed : Keyed ScheduleRow.scheduleId db.schedules) :
    Keyed ScheduleRow.scheduleId db'.schedules := by
  let R : Db → Db → Prop := fun s s' => Keyed ScheduleRow.scheduleId s.schedules →
    Keyed ScheduleRow.scheduleId s'.schedules
  have hrefl : Std.Refl R := ⟨fun _ h => h⟩
  have htrans : IsTrans Db R := ⟨fun _ _ _ h h' hk => h' (h hk)⟩
  simp only [syncRegistry, bind_ok, Except.ok.injEq, Prod.mk.injEq, true_and] at h
  obtain ⟨db₁, h, rfl⟩ := h
  refine (foldlM_ok_rel (R := R) (I := fun _ => True) (fun d _ s s' _ hs => ⟨?_, trivial⟩) trivial h).1
    hkeyed
  simp only [syncDefinition, bind_ok] at hs
  obtain ⟨s₁, hdefinition, hs⟩ := hs
  have hsame : s₁.schedules = s.schedules := by
    unfold insertDefinition at hdefinition
    split at hdefinition
    · simp only [bind_ok, require_ok, Except.ok.injEq] at hdefinition
      obtain ⟨-, -, rfl⟩ := hdefinition
      rfl
    · simp only [bind_ok, require_ok, Except.ok.injEq] at hdefinition
      obtain ⟨-, -, rfl⟩ := hdefinition
      rfl
  intro hk
  refine (foldlM_ok_rel (R := R) (I := fun _ => True) (fun u _ v v' _ hv => ⟨?_, trivial⟩) trivial hs).1
    (hsame ▸ hk)
  simp only [insertSchedule, bind_ok] at hv
  obtain ⟨id, -, rule, -, hash, -, hv⟩ := hv
  split at hv
  · cases hv
    exact fun hk => hk
  · next hnew =>
    cases hv
    exact fun hk => hk.append fun r hr hid => hnew ⟨r, hr, Or.inl hid⟩

theorem schedulerTick_run (hkeyed : Keyed ScheduleRow.scheduleId db.schedules)
    (clock : Nat → Time) (limit : Option Nat) :
    TickRun env now limit db ((schedulerTick env now clock limit).run db).1
      ((schedulerTick env now clock limit).run db).2 := by
  unfold schedulerTick
  cases hsync : syncRegistry env now db with
  | error e =>
    rw [Proc.run_bind_of_error (Proc.run_atomically_of_error hsync)]
    exact .unsynced
  | ok synced =>
    obtain ⟨_, db₁⟩ := synced
    rw [Proc.run_bind_of_ok (Proc.run_atomically_of_ok hsync)]
    cases hrecover : recoverExpired env now db₁ with
    | error e =>
      rw [Proc.run_bind_of_error (Proc.run_atomically_of_error hrecover)]
      exact .unrecovered hsync
    | ok recovered =>
      obtain ⟨ids, db₂⟩ := recovered
      rw [Proc.run_bind_of_ok (Proc.run_atomically_of_ok hrecover)]
      simp only [Proc.run_bind, Proc.run_query]
      obtain ⟨hdefinitions, hschedules⟩ := recoverExpired_frame hrecover
      have hunread : db₂.Unread db₂.enabledSchedules :=
        Db.unread_enabledSchedules (hschedules ▸ syncRegistry_keyed hsync hkeyed)
      have hsynced : db₂.Synced env :=
        (syncRegistry_synced hsync).2.grows (.of_same hdefinitions hschedules)
      obtain ⟨hprogress, hcomplete⟩ := @tickSchedules_run env db₂ now clock limit
        db₂.enabledSchedules {} rfl hsynced hunread
      exact .ran hsync hrecover hprogress hcomplete

end NanFung
