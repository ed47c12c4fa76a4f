import NanFung.Spec.RefreshCalls

/-!
# Who raises `RefreshConfirmationError`

Of the parts of a refresh call only the checks of a confirmation token raise it. Every other part is
`Quiet`: the registry and its synchronisation, canonical JSON, the lookups, the count of the day's
jobs, the submission and the ledger insert.
-/

namespace NanFung

open Table

/-- No confirmation error is raised. -/
def Quiet {α : Type} (x : Except StoreError α) : Prop := ∀ m, x ≠ .error (.refreshConfirmation m)

namespace Quiet

variable {α β σ : Type}

@[simp] theorem ok (a : α) : Quiet (.ok a : Except StoreError α) := fun _ h => nomatch h

@[simp] theorem error {e : StoreError} :
    Quiet (.error e : Except StoreError α) ↔ ∀ m, e ≠ .refreshConfirmation m :=
  ⟨fun h m he => h m (congrArg _ he), fun h m he => h m (Except.error.inj he)⟩

theorem bind {x : Except StoreError α} {f : α → Except StoreError β} (hx : Quiet x)
    (hf : ∀ a, Quiet (f a)) : Quiet (x >>= f) :=
  fun m => bind_ne (hx m) fun a _ => hf a m

theorem require {c : Prop} [Decidable c] {e : StoreError} (h : ∀ m, e ≠ .refreshConfirmation m) :
    Quiet (require c e) :=
  fun m => require_ne (.inr (h m))

theorem orThrow {o : Option α} {e : StoreError} (h : ∀ m, e ≠ .refreshConfirmation m) :
    Quiet (orThrow o e) :=
  fun m => orThrow_ne (h m)

theorem foldlM {f : σ → α → Except StoreError σ} (hf : ∀ s a, Quiet (f s a)) (l : List α) (s : σ) :
    Quiet (l.foldlM f s) := by
  induction l generalizing s with
  | nil => exact ok s
  | cons a l ih =>
    rw [List.foldlM_cons]
    exact bind (hf s a) ih

end Quiet

/-! ## Canonical JSON -/

section

variable (P : Platform)

mutual

theorem quiet_normalizeJson : ∀ v : Json, Quiet (P.normalizeJson v)
  | .null => by simp [Platform.normalizeJson]
  | .bool _ => by simp [Platform.normalizeJson]
  | .int _ => by simp [Platform.normalizeJson]
  | .float _ => by simp [Platform.normalizeJson]
  | .str _ => by simp [Platform.normalizeJson]
  | .arr items => by
    rw [Platform.normalizeJson]
    exact (quiet_normalizeItems items).bind fun _ => .ok _
  | .obj members => by
    rw [Platform.normalizeJson]
    exact (quiet_normalizeMembers [] members).bind fun _ => .ok _

theorem quiet_normalizeItems : ∀ vs : List Json, Quiet (P.normalizeItems vs)
  | [] => by simp [Platform.normalizeItems]
  | v :: vs => by
    rw [Platform.normalizeItems]
    exact (quiet_normalizeJson v).bind fun _ => (quiet_normalizeItems vs).bind fun _ => .ok _

theorem quiet_normalizeMembers (seen : List String) :
    ∀ ms : List (String × Json), Quiet (P.normalizeMembers seen ms)
  | [] => by simp [Platform.normalizeMembers]
  | (k, v) :: ms => by
    rw [Platform.normalizeMembers]
    refine (Quiet.require (by simp)).bind fun _ => ?_
    exact (quiet_normalizeJson v).bind fun _ =>
      (quiet_normalizeMembers (P.nfc k :: seen) ms).bind fun _ => .ok _

end

theorem quiet_requestHash (v : Json) : Quiet (P.requestHash v) :=
  .bind (.bind (quiet_normalizeJson P v) fun _ => .ok _) fun _ => .ok _

end

/-! ## Registry -/

section

variable {env : Env} {db : Db}

theorem quiet_lookup (datasourceId : String) (version : Option Nat) :
    Quiet (env.registry.lookup env.platform datasourceId version) := by
  unfold DatasourceRegistry.lookup
  refine .bind ?_ fun _ => .orThrow (by simp)
  cases version with
  | none => exact .orThrow (by simp)
  | some v => exact .ok v

theorem quiet_registryAsOperational {α : Type} {x : Except StoreError α} (h : Quiet x) :
    Quiet (registryAsOperational x) := by
  unfold registryAsOperational
  split
  · simp
  · exact h

theorem quiet_syncRegistry (now : Time) : Quiet (syncRegistry env now db) := by
  have hinsert : ∀ (db : Db) (d : DatasourceDefinition), Quiet (insertDefinition d now db) := by
    intro db d
    unfold insertDefinition
    split
    · exact .bind (.require (by simp)) fun _ => .ok _
    · exact .bind (.require (by simp)) fun _ => .ok _
  have hschedule : ∀ (d : DatasourceDefinition) (db : Db) (s : ScheduleDescriptor),
      Quiet (insertSchedule env d s now db) := by
    intro d db s
    refine .bind (.bind (quiet_requestHash _ _) fun _ => .ok _) fun _ => ?_
    refine .bind (quiet_normalizeJson _ _) fun _ => .bind (quiet_requestHash _ _) fun _ => ?_
    split
    · exact .ok _
    · exact .ok _
  refine .bind (.foldlM (fun db d => ?_) _ _) fun _ => .ok _
  exact .bind (hinsert db d) fun _ => .foldlM (hschedule d) _ _

/-! ## Submission -/

theorem quiet_enqueuePlan (args : EnqueueArgs) (now : Time) : Quiet (enqueuePlan env args now) := by
  refine .bind (quiet_registryAsOperational (quiet_lookup _ _)) fun definition => ?_
  refine .bind (.orThrow (by simp)) fun lane => .bind (.require (by simp)) fun _ => ?_
  refine .bind (.orThrow (by simp)) fun trigger => .bind (.orThrow (by simp)) fun jobKind => ?_
  refine .bind (.require (by simp)) fun _ => .bind (.require (by simp)) fun _ => ?_
  refine .bind (.require (by simp)) fun _ => .bind (.require (by simp)) fun _ => ?_
  exact .bind (.require (by simp)) fun _ => .bind (quiet_requestHash _ _) fun _ => .ok _

theorem quiet_dedupeKey (args : EnqueueArgs) (plan : EnqueuePlan) (instanceId : Option String) :
    Quiet (dedupeKey env args plan instanceId) :=
  quiet_requestHash _ _

theorem quiet_acceptJob (args : EnqueueArgs) (plan : EnqueuePlan) (dedupe : String)
    (instanceId : Option String) : Quiet (acceptJob env args plan dedupe instanceId db) := by
  have hinsert : ∀ (j : JobRow) (db : Db), Quiet (insertJob j db) := by
    intro j db
    refine .bind (.require (by simp)) fun _ => .bind (.require (by simp)) fun _ => ?_
    refine .bind (.require (by simp)) fun _ => .bind (.require (by simp)) fun _ => ?_
    exact .bind (.require (by simp)) fun _ => .bind (.require (by simp)) fun _ => .ok _
  exact .bind (quiet_normalizeJson _ _) fun _ => .bind (hinsert _ _) fun _ => .ok _

theorem quiet_enqueueTx (args : EnqueueArgs) (plan : EnqueuePlan) (dedupe : String) :
    Quiet (enqueueTx env args plan dedupe db) := by
  unfold enqueueTx
  split
  · exact quiet_acceptJob args plan dedupe _
  · split
    · exact .bind (quiet_dedupeKey args plan _) fun _ => quiet_acceptJob args plan _ _
    · exact .ok _

/-! ## The budget, the lookups and the ledger -/

theorem quiet_refreshJobsInLondonDay (t : Time) : Quiet (refreshJobsInLondonDay env t db) := by
  refine .bind ?_ fun _ => .ok _
  refine .bind (.orThrow (by simp)) fun _ => .bind (.orThrow (by simp)) fun _ => ?_
  exact .bind (.orThrow (by simp)) fun _ => .ok _

theorem quiet_refreshControl (request : Json) : Quiet (refreshControl request) := by
  have htext : ∀ control key, Quiet (controlText control key) := fun _ _ => .orThrow (by simp)
  have htime : ∀ s, Quiet (parseTimestamp s) := fun _ => .orThrow (by simp)
  have hparse : ∀ control : Json, Quiet (do
      let principal ← controlText control "principal"
      let requestFingerprint ← controlText control "request_fingerprint"
      let dedupeKey ← controlText control "dedupe_key"
      let submittedText ← controlText control "submitted_at"
      let cooldownText ← controlText control "cooldown_until"
      let initialState ← controlText control "initial_state"
      requireRefreshIdentifier "principal" principal
      requireRefreshDigest "request_fingerprint" requestFingerprint
      requireRefreshDigest "dedupe_key" dedupeKey
      require (initialState = "queued")
        (.operational "durable refresh request initial state is invalid")
      let submittedAt ← parseTimestamp submittedText
      let cooldownUntil ← parseTimestamp cooldownText
      require (submittedAt ≤ cooldownUntil)
        (.operational "durable refresh request cooldown is invalid")
      .ok (RefreshControl.mk principal requestFingerprint dedupeKey submittedAt cooldownUntil
        initialState)) := by
    intro control
    refine .bind (htext _ _) fun _ => .bind (htext _ _) fun _ => .bind (htext _ _) fun _ => ?_
    refine .bind (htext _ _) fun _ => .bind (htext _ _) fun _ => .bind (htext _ _) fun _ => ?_
    refine .bind (.require (by simp)) fun _ => .bind (.require (by simp)) fun _ => ?_
    refine .bind (.require (by simp)) fun _ => .bind (.require (by simp)) fun _ => ?_
    exact .bind (htime _) fun _ => .bind (htime _) fun _ => .bind (.require (by simp)) fun _ => .ok _
  unfold refreshControl
  dsimp only
  split
  · refine .bind (.ok _) fun members => ?_
    split
    · exact .bind (.ok _) fun control => hparse control
    · exact Quiet.error.mpr (by simp)
  · exact Quiet.error.mpr (by simp)

theorem quiet_activeRefreshDedupe (key : String) (now : Time) :
    Quiet (activeRefreshDedupe key now db) := by
  have horphans : ∀ jobs, Quiet (orphanMembers key now jobs) := by
    intro jobs
    induction jobs with
    | nil => exact .ok _
    | cons j jobs ih =>
      unfold orphanMembers
      split
      · exact ih
      · refine .bind (quiet_refreshControl _) fun _ => .bind ih fun _ => ?_
        split
        · exact .ok _
        · exact .ok _
  exact .bind (horphans _) fun _ => .ok _

theorem quiet_recordRefreshRequest (row : RefreshRequestRow) : Quiet (recordRefreshRequest row db) := by
  refine .bind (.require (by simp)) fun _ => .bind (.require (by simp)) fun _ => ?_
  exact .bind (.require (by simp)) fun _ => .ok _

end

end NanFung
