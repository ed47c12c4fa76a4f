import NanFung.Lib.Proc

/-!
# Searching places in order

A search looks at consecutive places, each of which may hold a value, for the first value after a given
one. When the places hold their values in order and nothing later was left behind the first place, what
is found is the least later value.
-/

namespace NanFung.Search

variable {ε α : Type} [LinearOrder α]

/-- The first value after `now` that one of the next `fuel` places holds. -/
def firstAfter (valueAt : Nat → Except ε (Option α)) (giveUp : ε) (now : α) : Nat → Nat → Except ε α
  | 0, _ => .error giveUp
  | fuel + 1, i => do
    match ← valueAt i with
    | some t => if now < t then .ok t else firstAfter valueAt giveUp now fuel (i + 1)
    | none => firstAfter valueAt giveUp now fuel (i + 1)

/-- The places from `i` up to `j` were looked at in vain. -/
def Passed (valueAt : Nat → Except ε (Option α)) (now : α) (i j : Nat) : Prop :=
  ∀ k, i ≤ k → k < j → ∃ o, valueAt k = .ok o ∧ ∀ t ∈ o, t ≤ now

variable {valueAt : Nat → Except ε (Option α)} {giveUp e : ε} {now t : α} {fuel i j : Nat}

theorem passed_self : Passed valueAt now i i := by
  intro k hk hlt
  omega

theorem Passed.cons {o : Option α} (hi : valueAt i = .ok o) (ho : ∀ t ∈ o, t ≤ now)
    (h : Passed valueAt now (i + 1) j) : Passed valueAt now i j := by
  intro k hk hlt
  rcases Nat.eq_or_lt_of_le hk with rfl | hk
  · exact ⟨o, hi, ho⟩
  · exact h k hk hlt

/-- Looking in vain at one place, the search goes on at the next one. -/
theorem firstAfter_succ {o : Option α} (hi : valueAt i = .ok o) (ho : ∀ t ∈ o, t ≤ now) :
    firstAfter valueAt giveUp now (fuel + 1) i = firstAfter valueAt giveUp now fuel (i + 1) := by
  rw [firstAfter, hi]
  cases o with
  | none => rfl
  | some t =>
    show (if now < t then _ else _) = _
    rw [if_neg (not_lt.mpr (ho t rfl))]

/-- A loop that takes these steps is the search. -/
theorem eq_firstAfter {loop : Nat → Nat → Except ε α} (hend : ∀ i, loop 0 i = .error giveUp)
    (herror : ∀ fuel i e, valueAt i = .error e → loop (fuel + 1) i = .error e)
    (hfound : ∀ fuel i t, valueAt i = .ok (some t) → now < t → loop (fuel + 1) i = .ok t)
    (hpassed : ∀ fuel i o, valueAt i = .ok o → (∀ t ∈ o, t ≤ now) →
      loop (fuel + 1) i = loop fuel (i + 1)) :
    loop fuel i = firstAfter valueAt giveUp now fuel i := by
  induction fuel generalizing i with
  | zero => exact hend i
  | succ fuel ih =>
    cases ho : valueAt i with
    | error e =>
      rw [herror fuel i e ho, firstAfter, ho]
      rfl
    | ok o =>
      by_cases hle : ∀ t ∈ o, t ≤ now
      · rw [hpassed fuel i o ho hle, firstAfter_succ ho hle, ih]
      · cases o with
        | none => exact absurd (fun t ht => nomatch ht) hle
        | some t =>
          have hlt : now < t := by simpa using hle
          rw [hfound fuel i t ho hlt, firstAfter, ho]
          exact (if_pos hlt).symm

theorem firstAfter_ok (h : firstAfter valueAt giveUp now fuel i = .ok t) :
    now < t ∧ ∃ j, Passed valueAt now i j ∧ valueAt j = .ok (some t) := by
  induction fuel generalizing i with
  | zero => cases h
  | succ fuel ih =>
    have hbind := h
    simp only [firstAfter, bind_ok] at hbind
    obtain ⟨o, ho, hrest⟩ := hbind
    by_cases hpassed : ∀ t ∈ o, t ≤ now
    · rw [firstAfter_succ ho hpassed] at h
      obtain ⟨hlt, j, hj, hfound⟩ := ih h
      exact ⟨hlt, j, hj.cons ho hpassed, hfound⟩
    · cases o with
      | none => exact absurd (fun t ht => by cases ht) hpassed
      | some u =>
        have hlt : now < u := by simpa using hpassed
        simp only [if_pos hlt, Except.ok.injEq] at hrest
        subst hrest
        exact ⟨hlt, i, passed_self, ho⟩

theorem firstAfter_error (h : firstAfter valueAt giveUp now fuel i = .error e) :
    e = giveUp ∧ Passed valueAt now i (i + fuel) ∨
      ∃ j, i ≤ j ∧ Passed valueAt now i j ∧ valueAt j = .error e := by
  induction fuel generalizing i with
  | zero => exact Or.inl ⟨(Except.error.inj h).symm, passed_self⟩
  | succ fuel ih =>
    cases ho : valueAt i with
    | error e' =>
      rw [firstAfter, ho] at h
      obtain rfl : e' = e := Except.error.inj h
      exact Or.inr ⟨i, le_rfl, passed_self, ho⟩
    | ok o =>
      have hpassed : ∀ t ∈ o, t ≤ now := by
        intro t ht
        by_contra hlt
        rw [firstAfter, ho, Option.mem_def.mp ht] at h
        have hok : (if now < t then Except.ok t else firstAfter valueAt giveUp now fuel (i + 1)) =
          .error e := h
        rw [if_pos (not_le.mp hlt)] at hok
        exact nomatch hok
      rw [firstAfter_succ ho hpassed] at h
      rcases ih h with ⟨he, hall⟩ | ⟨j, hj, hall, herr⟩
      · refine Or.inl ⟨he, ?_⟩
        have hend : i + 1 + fuel = i + (fuel + 1) := by omega
        exact (hend ▸ hall).cons ho hpassed
      · exact Or.inr ⟨j, by omega, hall.cons ho hpassed, herr⟩

/-! ## Values in order -/

/-- The values that the places hold, and no later one left behind the place `i`. -/
structure Enumerates (valueAt : Nat → Except ε (Option α)) (holds : Nat → α → Prop) (now : α)
    (i : Nat) : Prop where
  ordered : ∀ {k l u w}, holds k u → holds l w → k < l → u < w
  single : ∀ {k u w}, holds k u → holds k w → u = w
  found : ∀ {k o u}, valueAt k = .ok o → (u ∈ o ↔ holds k u)
  behind : ∀ {k u}, holds k u → now < u → i ≤ k

variable {holds : Nat → α → Prop}

/-- What comes later was not passed. -/
theorem Passed.later (h : Passed valueAt now i j) (hs : Enumerates valueAt holds now i) {k : Nat}
    {u : α} (hu : holds k u) (hlt : now < u) : j ≤ k := by
  by_contra hkj
  obtain ⟨o, ho, hle⟩ := h k (hs.behind hu hlt) (not_le.mp hkj)
  exact absurd (hle u ((hs.found ho).mpr hu)) (not_le.mpr hlt)

/-- The search finds the least later value. -/
theorem firstAfter_isLeast (hs : Enumerates valueAt holds now i)
    (h : firstAfter valueAt giveUp now fuel i = .ok t) :
    IsLeast {u | (∃ k, holds k u) ∧ now < u} t := by
  obtain ⟨hlt, j, hj, hfound⟩ := firstAfter_ok h
  have ht : holds j t := (hs.found hfound).mp rfl
  refine ⟨⟨⟨j, ht⟩, hlt⟩, ?_⟩
  rintro u ⟨⟨k, hu⟩, hnow⟩
  rcases Nat.eq_or_lt_of_le (hj.later hs hu hnow) with rfl | hjk
  · exact (hs.single ht hu).le
  · exact (hs.ordered ht hu hjk).le

end NanFung.Search
