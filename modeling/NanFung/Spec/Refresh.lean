import NanFung.Spec.Review

/-!
# Refresh and scheduling as chains of effects
-/

namespace NanFung

open Table

variable {env : Env} {G : Guard} {db db' : Db} {now : Time} {clock : Nat → Time}

/-! ## Agent refresh -/

theorem issueRefreshConfirmation_effects {t : Time} (hG : G.clock t) {args : RefreshArgs}
    {pending : Option RefreshConfirmationRow} {r : DurableRefreshResult}
    (h : issueRefreshConfirmation env args pending db = .ok (r, db')) : Effects env G db db' := by
  unfold issueRefreshConfirmation at h
  split at h
  · simp only [bind_ok, require_ok, Except.ok.injEq, Prod.mk.injEq] at h
    obtain ⟨-, -, -, rfl⟩ := h
    exact Relation.ReflTransGen.refl
  · simp only [bind_ok, require_ok, orThrow_ok, Except.ok.injEq, Prod.mk.injEq] at h
    obtain ⟨expiresAt, -, ⟨dayStart, dayEnd⟩, -, -, -, -, rfl⟩ := h
    exact (Effects.one hG (.draw db)).then hG
      (.ledger _ db.refreshRequests _ List.prefix_rfl (List.prefix_append _ _))

theorem onspdRefreshConfirmation_effects {t : Time} (hG : G.clock t) {args : RefreshArgs}
    {pending : Option RefreshConfirmationRow} {r : Option DurableRefreshResult}
    (h : onspdRefreshConfirmation env args pending db = .ok (r, db')) : Effects env G db db' := by
  unfold onspdRefreshConfirmation at h
  split at h
  · cases h
    exact Relation.ReflTransGen.refl
  simp only [bind_ok] at h
  obtain ⟨used, -, h⟩ := h
  split at h
  · simp only [bind_ok, require_ok, Except.ok.injEq, Prod.mk.injEq] at h
    obtain ⟨-, -, -, rfl⟩ := h
    exact Relation.ReflTransGen.refl
  split at h
  · simp only [bind_ok, Except.ok.injEq, Prod.mk.injEq] at h
    obtain ⟨⟨r₁, db₁⟩, hissue, -, rfl⟩ := h
    exact issueRefreshConfirmation_effects hG hissue
  · simp only [bind_ok, require_ok, Except.ok.injEq, Prod.mk.injEq] at h
    obtain ⟨row, -, -, -, -, -, -, rfl⟩ := h
    exact Relation.ReflTransGen.refl

/-- A transaction on a sound store. -/
theorem sound_spec {α : Type} {t : Db → Except StoreError (α × Db)}
    (h : ∀ s a s', StoreInv env s → t s = .ok (a, s') → Effects env G s s') :
    Proc.Spec (Effects env G) (StoreInv env) (Proc.atomically t) fun _ => StoreInv env :=
  Proc.Spec.atomically fun s a s' hs ht => ⟨h s a s' hs ht, (h s a s' hs ht).storeInv hs⟩

theorem query_spec {α : Type} {f : Db → Except StoreError α} :
    Proc.Spec (Effects env G) (StoreInv env) (Proc.query f) fun _ => StoreInv env :=
  Proc.Spec.query fun _ _ hs _ => hs

theorem prepareRefresh_effects (hG : ∀ n, G.clock (clock n)) {args : RefreshArgs}
    (hsubmitted : G.clock args.submittedAt) :
    Proc.Spec (Effects env G) (StoreInv env) (prepareRefresh env args clock) fun _ => StoreInv env := by
  refine Proc.Spec.bind query_spec fun _ => ?_
  refine Proc.Spec.bind (sound_spec fun _ _ _ _ h => syncRegistry_effects hsubmitted h) fun _ => ?_
  refine Proc.Spec.bind query_spec fun definition => ?_
  refine Proc.Spec.bind query_spec fun resolved => ?_
  match resolved with
  | (some step, _) => exact Proc.Spec.pure _ fun _ hs => hs
  | (none, pending) =>
    refine Proc.Spec.bind (sound_spec fun _ _ _ _ h =>
      onspdRefreshConfirmation_effects hsubmitted h) fun answer => ?_
    match answer with
    | some result => exact Proc.Spec.pure _ fun _ hs => hs
    | none =>
      refine Proc.Spec.bind (enqueue_effects hG) fun queued => ?_
      exact Proc.Spec.bind query_spec fun _ => Proc.Spec.pure _ fun _ hs => hs

theorem recordRefreshRequest_effects {t : Time} (hG : G.clock t) {row : RefreshRequestRow}
    {r : DurableRefreshResult} (h : recordRefreshRequest row db = .ok (r, db')) :
    Effects env G db db' := by
  simp only [recordRefreshRequest, bind_ok, require_ok, Except.ok.injEq, Prod.mk.injEq] at h
  obtain ⟨-, -, -, -, -, -, -, rfl⟩ := h
  exact Effects.one hG
    (.ledger db _ db.refreshConfirmations (List.prefix_append _ _) List.prefix_rfl)

theorem submitAgentRefresh_effects (hG : ∀ n, G.clock (clock n)) {args : RefreshArgs}
    (hsubmitted : G.clock args.submittedAt) :
    Proc.Spec (Effects env G) (StoreInv env) (submitAgentRefresh env args clock)
      fun _ => StoreInv env := by
  refine Proc.Spec.bind (prepareRefresh_effects hG hsubmitted) fun step => ?_
  split
  · exact Proc.Spec.pure _ fun _ hs => hs
  · exact sound_spec fun _ _ _ _ h => recordRefreshRequest_effects hsubmitted h

/-! ## Scheduling -/

theorem tickSlots_effects (hG : ∀ n, G.clock (clock n)) {s : ScheduleRow}
    {definition : DatasourceDefinition} {limit : Option Nat} {slots : List Time}
    {writes accepted deduplicated : Nat} :
    Proc.Spec (Effects env G) (StoreInv env)
      (tickSlots env s definition clock limit slots writes accepted deduplicated)
      fun _ => StoreInv env := by
  induction slots generalizing writes accepted deduplicated with
  | nil => exact Proc.Spec.pure _ fun _ hs => hs
  | cons slot slots ih =>
    unfold tickSlots
    split
    · exact Proc.Spec.pure _ fun _ hs => hs
    refine Proc.Spec.bind (Q := fun _ => StoreInv env) ?_ fun result => ?_
    · refine Proc.Spec.tryCatch (Proc.Spec.bind (enqueue_effects fun _ => hG writes) fun r =>
        Proc.Spec.pure _ fun _ hs => hs) (fun _ _ hs he => he.storeInv hs) fun e => ?_
      split
      · exact Proc.Spec.pure _ fun _ hs => hs
      · exact Proc.Spec.throw _
    split
    · exact Proc.Spec.pure _ fun _ hs => hs
    · split
      · exact ih
      · exact ih

theorem tickSchedule_effects (hG : ∀ n, G.clock (clock n)) (hnow : G.clock now) {limit : Option Nat}
    {t : Tick} {s : ScheduleRow} :
    Proc.Spec (Effects env G) (StoreInv env) (tickSchedule env now clock limit t s)
      fun _ => StoreInv env := by
  unfold tickSchedule
  split
  · exact Proc.Spec.pure _ fun _ hs => hs
  refine Proc.Spec.bind query_spec fun definition => ?_
  split
  · exact Proc.Spec.pure _ fun _ hs => hs
  split
  · split
    · split
      · exact Proc.Spec.pure _ fun _ hs => hs
      · refine Proc.Spec.bind (sound_spec fun db _ db' _ h => ?_) fun _ =>
          Proc.Spec.pure _ fun _ hs => hs
        cases h
        exact Effects.one hnow (.reschedule db _)
    · exact Proc.Spec.throw _
  · refine Proc.Spec.bind (tickSlots_effects hG) fun result => ?_
    obtain ⟨writes, outcome⟩ := result
    cases outcome with
    | stopped | failed => exact Proc.Spec.pure _ fun _ hs => hs
    | done accepted deduplicated =>
      refine Proc.Spec.bind query_spec fun nextDue => ?_
      split
      · exact Proc.Spec.pure _ fun _ hs => hs
      · refine Proc.Spec.bind (sound_spec fun db _ db' _ h => ?_) fun _ =>
          Proc.Spec.pure _ fun _ hs => hs
        cases h
        exact Effects.one hnow (.reschedule db _)

theorem schedulerTick_effects (hG : ∀ n, G.clock (clock n)) (hnow : G.clock now)
    {limit : Option Nat} :
    Proc.Spec (Effects env G) (StoreInv env) (schedulerTick env now clock limit)
      fun _ => StoreInv env := by
  refine Proc.Spec.bind (sound_spec fun _ _ _ _ h => syncRegistry_effects hnow h) fun _ => ?_
  refine Proc.Spec.bind (recoverExpired_spec hnow) fun _ => ?_
  refine Proc.Spec.bind query_spec fun schedules => ?_
  exact Proc.Spec.foldlM (fun t s _ => tickSchedule_effects hG hnow) _

end NanFung
