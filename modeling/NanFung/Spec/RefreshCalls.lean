import NanFung.Spec.RefreshControl

/-!
# What a refresh call does

The outcome of `submit_agent_refresh` up to the ledger insert, case by case: what the lookups found,
and which of the three tables of requests, confirmations and jobs has a new row. Registry
synchronisation touches none of them.
-/

namespace NanFung

open Table

variable {env : Env} {db db' : Db} {args : RefreshArgs} {clock : Nat → Time}

/-! ## Lookups -/

/-- A request without control metadata has none to parse. -/
theorem refreshControl_missing {request : Json} (h : request.get? "_refresh_control" = none)
    (c : RefreshControl) : refreshControl request ≠ .ok c := by
  cases request with
  | obj members =>
    have hlookup : Json.lookup "_refresh_control" members = none := h
    simp [refreshControl, hlookup]
  | _ => simp [refreshControl]

/-- The cohort member a ledger row or an orphan job stands for. -/
theorem activeRefreshDedupe_some {key : String} {now : Time} {prior : CohortMember}
    (h : activeRefreshDedupe key now db = .ok (some prior)) :
    (∃ r ∈ db.refreshRequests, r.dedupeKey = key ∧ now < r.cooldownUntil ∧ prior.jobId = r.jobId ∧
      prior.cooldownUntil = r.cooldownUntil) ∨
    ∃ j ∈ db.orphanJobs, ∃ c, refreshControl j.request = .ok c ∧ c.dedupeKey = key ∧
      now < c.cooldownUntil ∧ prior.jobId = j.jobId ∧ prior.cooldownUntil = c.cooldownUntil := by
  have horphans : ∀ {jobs : List JobRow} {members : List CohortMember},
      orphanMembers key now jobs = .ok members → ∀ m ∈ members, ∃ j ∈ jobs, ∃ c,
        refreshControl j.request = .ok c ∧ c.dedupeKey = key ∧ now < c.cooldownUntil ∧
        m.jobId = j.jobId ∧ m.cooldownUntil = c.cooldownUntil := by
    intro jobs
    induction jobs with
    | nil =>
      intro members h m hm
      cases h
      cases hm
    | cons j jobs ih =>
      intro members h m hm
      have hlater : ∀ {rest}, orphanMembers key now jobs = .ok rest → m ∈ rest → ∃ i ∈ j :: jobs,
          ∃ c, refreshControl i.request = .ok c ∧ c.dedupeKey = key ∧ now < c.cooldownUntil ∧
          m.jobId = i.jobId ∧ m.cooldownUntil = c.cooldownUntil := fun hrest hm => by
        obtain ⟨i, hi, hrow⟩ := ih hrest m hm
        exact ⟨i, List.mem_cons_of_mem _ hi, hrow⟩
      unfold orphanMembers at h
      split at h
      · exact hlater h hm
      · simp only [bind_ok] at h
        obtain ⟨c, hc, rest, hrest, h⟩ := h
        split at h
        · next hactive =>
          cases h
          rcases List.mem_cons.mp hm with rfl | hm
          · exact ⟨j, List.mem_cons_self, c, hc, hactive.1, hactive.2, rfl, rfl⟩
          · exact hlater hrest hm
        · cases h
          exact hlater hrest hm
  have hlatest : ∀ {members : List CohortMember}, latestMember members = some prior →
      prior ∈ members := by
    intro members h
    cases members with
    | nil => cases h
    | cons c cs =>
      have hfold : ∀ (cs : List CohortMember) (c : CohortMember), cs.foldl (fun best d =>
          if toLex (best.submittedAt, best.jobId) < toLex (d.submittedAt, d.jobId) then d else best)
          c ∈ c :: cs := by
        intro cs
        induction cs with
        | nil => exact fun c => by simp
        | cons d cs ih =>
          intro c
          rw [List.foldl_cons]
          split
          · exact List.mem_cons_of_mem _ (ih d)
          · rcases List.mem_cons.mp (ih c) with heq | hmem
            · rw [heq]
              exact List.mem_cons_self
            · exact List.mem_cons_of_mem _ (List.mem_cons_of_mem _ hmem)
      exact Option.some.inj h ▸ hfold cs c
  simp only [activeRefreshDedupe, bind_ok, Except.ok.injEq] at h
  obtain ⟨orphans, horphan, h⟩ := h
  rcases List.mem_append.mp (hlatest h) with hledger | hmem
  · obtain ⟨r, hr, rfl⟩ := Option.map_eq_some_iff.mp (Option.mem_toList.mp hledger)
    have hmem := List.mem_of_head? hr
    rw [List.mem_insertionSort, List.mem_filter, decide_eq_true_eq] at hmem
    exact Or.inl ⟨r, hmem.1, hmem.2.1, hmem.2.2, rfl, rfl⟩
  · obtain ⟨j, hj, hrow⟩ := horphans horphan prior hmem
    exact Or.inr ⟨j, hj, hrow⟩

/-- Without an active cohort, no ledger row and no orphan of the key is cooling down. -/
theorem activeRefreshDedupe_none {key : String} {now : Time}
    (h : activeRefreshDedupe key now db = .ok none) :
    (∀ r ∈ db.refreshRequests, r.dedupeKey = key → r.cooldownUntil ≤ now) ∧
    ∀ j ∈ db.orphanJobs, ∀ c, refreshControl j.request = .ok c → c.dedupeKey = key →
      c.cooldownUntil ≤ now := by
  have horphans : ∀ {jobs : List JobRow}, orphanMembers key now jobs = .ok [] → ∀ j ∈ jobs, ∀ c,
      refreshControl j.request = .ok c → c.dedupeKey = key → c.cooldownUntil ≤ now := by
    intro jobs
    induction jobs with
    | nil => exact fun _ _ hj => by cases hj
    | cons i jobs ih =>
      intro h j hj c hc hkey
      unfold orphanMembers at h
      split at h
      · next hmissing =>
        rcases List.mem_cons.mp hj with rfl | hj
        · exact absurd hc (refreshControl_missing hmissing c)
        · exact ih h j hj c hc hkey
      · simp only [bind_ok] at h
        obtain ⟨c', hc', rest, hrest, h⟩ := h
        split at h
        · cases h
        · next hinactive =>
          cases h
          rcases List.mem_cons.mp hj with rfl | hj
          · rw [hc] at hc'
            cases hc'
            exact not_lt.mp fun hlt => hinactive ⟨hkey, hlt⟩
          · exact ih hrest j hj c hc hkey
  simp only [activeRefreshDedupe, bind_ok, Except.ok.injEq] at h
  obtain ⟨orphans, horphan, h⟩ := h
  have hempty : ((activeLedgerRow key now db).map fun r =>
      CohortMember.mk r.jobId r.initialState r.submittedAt r.cooldownUntil).toList ++ orphans = [] := by
    cases hmembers : ((activeLedgerRow key now db).map fun r =>
        CohortMember.mk r.jobId r.initialState r.submittedAt r.cooldownUntil).toList ++ orphans with
    | nil => rfl
    | cons c cs =>
      rw [hmembers] at h
      cases h
  obtain ⟨hledger, rfl⟩ := List.append_eq_nil_iff.mp hempty
  refine ⟨fun r hr hkey => not_lt.mp fun hlt => ?_, horphans horphan⟩
  have hnone : activeLedgerRow key now db = none := by simpa using hledger
  have hrow : r ∈ ((db.refreshRequests.filter fun r => r.dedupeKey = key ∧
      now < r.cooldownUntil).insertionSort fun a b =>
        toLex (b.submittedAt, b.requestId) ≤ toLex (a.submittedAt, a.requestId)) := by
    rw [List.mem_insertionSort, List.mem_filter]
    exact ⟨hr, by simp [hkey, hlt]⟩
  rw [List.head?_eq_none_iff.mp hnone] at hrow
  cases hrow

end NanFung
