import NanFung.RefreshRuns
import NanFung.Sample

/-!
# The daily budget of ONSPD refreshes

At most `_ONSPD_REFRESH_DAILY_LIMIT` jobs of a London day are created without a confirmation token,
and every other one with the token of a confirmation that some earlier call issued for the same
request. The count is taken over the window between two local midnights.
-/

namespace NanFung

/-- Local midnight of every date exists and separates the instants of the days around it. -/
def Zone.Midnights (zone : Zone) : Prop :=
  ∀ day midnight t wall, zone.toUtc (day * dayMicros) = some midnight → zone.toLocal t = some wall →
    (t < midnight ↔ wall < day * dayMicros)

section

variable {env : Env}

/-- The London calendar day of an instant. -/
def Env.londonDay (env : Env) (t : Time) : Option Nat :=
  (env.london.toLocal t).map (· / dayMicros)

/-- An ONSPD agent job created on a London day. -/
def Env.onspdJob (env : Env) (day : Nat) (j : JobRow) : Bool :=
  j.datasourceId = some onspdRefreshDatasourceId ∧ j.trigger = .agentRequest ∧
    env.londonDay j.createdAt = some day

/-- The window of an instant holds every instant of its day. -/
theorem londonDayWindow_spec (h : env.london.Midnights) {t dayStart dayEnd : Time} {day : Nat}
    (ht : env.londonDay t = some day) (hwindow : env.londonDayWindow t = .ok (dayStart, dayEnd))
    {u : Time} (hu : env.londonDay u = some day) : dayStart ≤ u ∧ u < dayEnd := by
  obtain ⟨wall, hwall, hday⟩ := Option.map_eq_some_iff.mp ht
  obtain ⟨wall', hwall', hday'⟩ := Option.map_eq_some_iff.mp hu
  simp only [Env.londonDayWindow, bind_ok, orThrow_ok, Except.ok.injEq, Prod.mk.injEq] at hwindow
  obtain ⟨w, hw, start, hstart, stop, hstop, rfl, rfl⟩ := hwindow
  rw [hwall] at hw
  obtain rfl := Option.some.inj hw
  rw [hday] at hstart hstop
  have hpos : 0 < dayMicros := by decide
  constructor
  · refine not_lt.mp fun hlt => ?_
    have hbefore := (h day start u wall' hstart hwall').mp hlt
    rw [← hday'] at hbefore
    exact absurd (Nat.div_mul_le_self wall' dayMicros) (not_le.mpr hbefore)
  · refine (h (day + 1) stop u wall' hstop hwall').mpr ?_
    rw [← hday']
    exact Nat.lt_mul_of_div_lt (Nat.lt_succ_self _) hpos

/-- The move creates an ONSPD agent job on a London day. -/
def RefreshMove.createsOn (env : Env) (day : Nat) (m : RefreshMove) : Bool :=
  m.created.any (env.onspdJob day)

/-- The move's call presents no confirmation token. -/
def RefreshMove.tokenless (m : RefreshMove) : Bool := m.call.args.confirmationToken = none

/-- What a move that creates a job found. -/
theorem RefreshRun.created_confirmed {moves : List RefreshMove} {db : Db}
    (run : RefreshRun env moves db) {m : RefreshMove} (hm : m ∈ moves) {j : JobRow}
    (hj : m.created = some j) :
    NewJob env m.call.args j ∧ Unbound m.call.args m.before ∧
      ∃ db₁, m.before.SameRefresh db₁ ∧
        Confirmed env m.call.args (m.before.confirmation? m.call.args.requestId) db₁ := by
  have hstep := run.step hm
  obtain ⟨call, before, result, after⟩ := m
  change call.Step env before result after at hstep
  have hnone : ∀ {after : Db}, after.jobs = before.jobs →
      (⟨call, before, result, after⟩ : RefreshMove).created = none := by
    intro after h
    simp [RefreshMove.created, h]
  cases hstep with
  | refused same _ _ => cases (hnone same.jobs).symm.trans hj
  | rejected synced _ => cases (hnone synced.same.jobs).symm.trans hj
  | replayed synced _ => cases (hnone synced.same.jobs).symm.trans hj
  | bound _ _ jobs _ _ => cases (hnone jobs).symm.trans hj
  | unrecorded synced _ _ => cases (hnone synced.same.jobs).symm.trans hj
  | unconfirmed synced _ _ => cases (hnone synced.same.jobs).symm.trans hj
  | unqueued _ _ _ same _ => cases (hnone same.jobs).symm.trans hj
  | answered synced _ answer =>
    have hjobs := (onspdRefreshConfirmation_jobs answer).1.trans synced.same.jobs
    cases (hnone hjobs).symm.trans hj
  | @created pending db₁ _ i synced resolve answer job _ jobs _ _ =>
    obtain ⟨hunbound, rfl⟩ := resolveRefresh_none resolve
    have hi : (⟨call, before, .ok (call.reply (acceptedRow call.args i).result), after⟩ :
        RefreshMove).created = some i := by
      simp [RefreshMove.created, jobs]
    obtain rfl := Option.some.inj (hi.symm.trans hj)
    exact ⟨job, hunbound, db₁, synced.same, (onspdRefreshConfirmation_none answer).2⟩

/-- The London day's jobs are among those the window counts. -/
theorem countP_le_refreshJobsInLondonDay (h : env.london.Midnights) {t : Time} {day used : Nat}
    {db : Db} (ht : env.londonDay t = some day)
    (hused : refreshJobsInLondonDay env t db = .ok used) :
    db.jobs.countP (env.onspdJob day) ≤ used := by
  simp only [refreshJobsInLondonDay, bind_ok, Except.ok.injEq] at hused
  obtain ⟨⟨dayStart, dayEnd⟩, hwindow, rfl⟩ := hused
  rw [rowcount, ← List.countP_eq_length_filter]
  refine List.countP_mono_left fun j _ hj => ?_
  obtain ⟨hdatasource, htrigger, hday⟩ := of_decide_eq_true hj
  obtain ⟨hstart, hend⟩ := londonDayWindow_spec h ht hwindow hday
  exact decide_eq_true ⟨hdatasource, htrigger, hstart, hend⟩

/-- The jobs a day's moves create are jobs of the day. -/
theorem countP_createsOn {moves : List RefreshMove} {day : Nat} :
    moves.countP (fun m => m.createsOn env day) =
      (moves.filterMap RefreshMove.created).countP (env.onspdJob day) := by
  rw [List.countP_filterMap]
  refine List.countP_congr fun m _ => ?_
  unfold RefreshMove.createsOn
  cases m.created <;> simp

/-- Without a token the day's quota is not exceeded. -/
theorem RefreshRun.tokenless_le {moves : List RefreshMove} {db : Db}
    (run : RefreshRun env moves db) (h : env.london.Midnights) (day : Nat) :
    moves.countP (fun m => m.createsOn env day && m.tokenless) ≤ onspdRefreshDailyLimit := by
  induction run with
  | empty => exact Nat.zero_le _
  | @call moves db run c ih =>
    rw [List.countP_append]
    by_cases hnew : ((c.move env db).createsOn env day && (c.move env db).tokenless) = true
    · -- the quota was left when the last one was created
      obtain ⟨hon, htokenless⟩ := Bool.and_eq_true_iff.mp hnew
      obtain ⟨j, hj, hday⟩ := (Option.any_eq_true _ _).mp hon
      obtain ⟨hjob, -, db₁, same, hconfirmed⟩ := (run.call c).created_confirmed
        (List.mem_append_right _ (List.mem_singleton_self _)) hj
      obtain ⟨hdatasource, -, hlondon⟩ := of_decide_eq_true hday
      rw [hjob.createdAt] at hlondon
      have hleft : moves.countP (fun m => m.createsOn env day) < onspdRefreshDailyLimit := by
        cases hconfirmed with
        | free other =>
          rw [hjob.datasourceId] at hdatasource
          exact absurd (Option.some.inj hdatasource) other
        | token _ _ _ token _ =>
          have hnone : c.args.confirmationToken = none := of_decide_eq_true htokenless
          exact nomatch hnone.symm.trans token
        | quota count left _ =>
          refine lt_of_le_of_lt ?_ left
          rw [countP_createsOn, ← run.jobs]
          have hcount := countP_le_refreshJobsInLondonDay h hlondon count
          rwa [same.jobs] at hcount
      have hle : moves.countP (fun m => m.createsOn env day && m.tokenless) ≤
          moves.countP (fun m => m.createsOn env day) :=
        List.countP_mono_left fun m _ hm => (Bool.and_eq_true_iff.mp hm).1
      have hone : [c.move env db].countP (fun m => m.createsOn env day && m.tokenless) ≤ 1 :=
        List.countP_le_length
      omega
    · have hzero : [c.move env db].countP (fun m => m.createsOn env day && m.tokenless) = 0 := by
        simpa using hnew
      omega

theorem validateRefreshConfirmationIdentity_ok {row : RefreshConfirmationRow} {args : RefreshArgs}
    (h : validateRefreshConfirmationIdentity row args = .ok ()) :
    row.principal = args.principal ∧ row.requestFingerprint = args.requestFingerprint ∧
      row.datasourceId = args.datasourceId ∧ row.definitionVersion = args.definitionVersion := by
  simp only [validateRefreshConfirmationIdentity, bind_ok, require_ok] at h
  obtain ⟨-, hprincipal, -, hfingerprint, hdefinition⟩ := h
  exact ⟨hprincipal, hfingerprint, hdefinition.1, hdefinition.2⟩

/-- The confirmation a call presents was issued earlier for the same request. -/
theorem RefreshRun.token_issued {moves earlier later : List RefreshMove} {m : RefreshMove} {db : Db}
    (run : RefreshRun env moves db) (h : moves = earlier ++ m :: later) {day : Nat}
    (hon : m.createsOn env day = true) {token : String}
    (htoken : m.call.args.confirmationToken = some token) :
    ∃ i ∈ earlier, ∃ row, i.Issues row ∧ row.confirmationToken = token ∧
      m.call.args.submittedAt < row.expiresAt ∧
      i.call.args.requestId = m.call.args.requestId ∧
      i.call.args.principal = m.call.args.principal ∧
      i.call.args.requestFingerprint = m.call.args.requestFingerprint ∧
      i.call.args.datasourceId = m.call.args.datasourceId ∧
      i.call.args.definitionVersion = m.call.args.definitionVersion := by
  obtain ⟨j, hj, hday⟩ := (Option.any_eq_true _ _).mp hon
  obtain ⟨hjob, hunbound, db₁, same, hconfirmed⟩ := run.created_confirmed (by simp [h]) hj
  obtain ⟨hdatasource, -, -⟩ := of_decide_eq_true hday
  cases hconfirmed with
  | free other =>
    rw [hjob.datasourceId] at hdatasource
    exact absurd (Option.some.inj hdatasource) other
  | quota _ _ token => exact nomatch token.symm.trans htoken
  | @token _ row _ _ is token unexpired =>
    have hrow : row ∈ m.before.refreshConfirmations := List.mem_of_find?_eq_some is
    have hid : row.requestId = m.call.args.requestId := by
      have := List.find?_some is
      simpa using this
    have hidentity := hunbound.identity
    rw [is] at hidentity
    obtain ⟨h₁, h₂, h₃, h₄⟩ := validateRefreshConfirmationIdentity_ok hidentity
    obtain ⟨i, hi, hissues⟩ := (run.split h).1.issued hrow
    exact ⟨i, hi, row, hissues, Option.some.inj (token.symm.trans htoken), unexpired,
      hissues.requestId.symm.trans hid, hissues.principal.symm.trans h₁,
      hissues.requestFingerprint.symm.trans h₂, hissues.datasourceId.symm.trans h₃,
      hissues.definitionVersion.symm.trans h₄⟩

/-- The daily budget of ONSPD refreshes: of the jobs of a London day, which are those some call
created, at most the limit were created without a token, and each of the others by a call that
presented the unexpired token an earlier call was given for the same request. -/
theorem daily_budget {moves : List RefreshMove} {db : Db} (run : RefreshRun env moves db)
    (midnights : env.london.Midnights) (day : Nat) :
    db.jobs = moves.filterMap RefreshMove.created ∧
      moves.countP (fun m => m.createsOn env day && m.tokenless) ≤ onspdRefreshDailyLimit ∧
      ∀ earlier m later, moves = earlier ++ m :: later → m.createsOn env day = true →
        ∀ token, m.call.args.confirmationToken = some token →
          ∃ i ∈ earlier, ∃ row, i.Issues row ∧ row.confirmationToken = token ∧
            m.call.args.submittedAt < row.expiresAt ∧
            i.call.args.requestId = m.call.args.requestId ∧
            i.call.args.principal = m.call.args.principal ∧
            i.call.args.requestFingerprint = m.call.args.requestFingerprint ∧
            i.call.args.datasourceId = m.call.args.datasourceId ∧
            i.call.args.definitionVersion = m.call.args.definitionVersion :=
  ⟨run.jobs, run.tokenless_le midnights day,
    fun _ _ _ h hon _ htoken => run.token_issued h hon htoken⟩

end

theorem Sample.utc_midnights : Sample.utc.Midnights := by
  intro day midnight t wall hmidnight hwall
  obtain rfl := Option.some.inj hwall
  simp only [Sample.utc] at hmidnight
  split at hmidnight
  · cases hmidnight
    rfl
  · exact nomatch hmidnight

/-- The first job of a day. -/
theorem daily_budget_first :
    let m := (RefreshCall.mk (Sample.refreshArgs "request" "agent") (fun _ => Sample.tick 1)
      false).move Sample.refreshEnv {}
    m.createsOn Sample.refreshEnv 0 = true ∧ m.tokenless = true ∧
      [m].countP (fun m => m.createsOn Sample.refreshEnv 0 && m.tokenless) ≤
        onspdRefreshDailyLimit :=
  ⟨by decide +kernel, by decide, (daily_budget (.call .empty _) Sample.utc_midnights 0).2.1⟩

end NanFung
