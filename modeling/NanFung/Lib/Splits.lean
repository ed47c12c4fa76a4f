import Mathlib.Tactic

/-!
# Two parts around a separator

When `a ++ x :: b` tells `a` and `b`: if the separator is missing from the second part, or if every
other place where it stands would leave one of the parts empty.
-/

namespace NanFung.Splits

variable {α : Type} {x : α} {a a' b b' : List α}

/-- The last separator splits a list in one way. -/
theorem append_cons_inj_of_last (hb : x ∉ b) (hb' : x ∉ b') (h : a ++ x :: b = a' ++ x :: b') :
    a = a' ∧ b = b' := by
  obtain ⟨c, hc, hrest⟩ | ⟨c, hc, hrest⟩ := List.append_eq_append_iff.mp h
  · cases c with
    | nil => exact ⟨by rw [hc, List.append_nil], (List.cons.inj hrest).2⟩
    | cons d c =>
      obtain ⟨-, rfl⟩ := List.cons.inj hrest
      exact absurd (List.mem_append_right c List.mem_cons_self) hb
  · cases c with
    | nil => exact ⟨by rw [hc, List.append_nil], (List.cons.inj hrest).2.symm⟩
    | cons d c =>
      obtain ⟨-, rfl⟩ := List.cons.inj hrest
      exact absurd (List.mem_append_right c List.mem_cons_self) hb'

/-- A separator inside the first part starts a shorter first part. -/
theorem exists_shorter (h : x ∈ a.tail) :
    ∃ s t, s ≠ [] ∧ a = s ++ x :: t := by
  cases a with
  | nil => exact nomatch h
  | cons c a =>
    obtain ⟨s, t, hst⟩ := List.append_of_mem h
    exact ⟨c :: s, t, List.cons_ne_nil _ _, congrArg (c :: ·) hst⟩

/-- A separator inside the second part ends a longer first part. -/
theorem exists_longer (h : x ∈ b.dropLast) :
    ∃ s t, t ≠ [] ∧ b = s ++ x :: t := by
  obtain ⟨s, t, hst⟩ := List.append_of_mem h
  have hne : b ≠ [] := fun hnil => by
    rw [hnil] at h
    exact nomatch h
  refine ⟨s, t ++ [b.getLast hne], by simp, ?_⟩
  rw [← List.cons_append, ← List.append_assoc, ← hst, List.dropLast_concat_getLast hne]

/-- Two non-empty parts can be told from their join, exactly when no other separator has something on
both sides. -/
theorem unique_iff (ha : a ≠ []) (hb : b ≠ []) :
    (∀ a' b', a' ≠ [] → b' ≠ [] → a' ++ x :: b' = a ++ x :: b → a' = a ∧ b' = b) ↔
      x ∉ a.tail ∧ x ∉ b.dropLast := by
  constructor
  · intro h
    constructor
    · intro hx
      obtain ⟨s, t, hs, rfl⟩ := exists_shorter hx
      have heq := (h s (t ++ x :: b) hs (by simp) (by simp)).1
      simp at heq
    · intro hx
      obtain ⟨s, t, ht, rfl⟩ := exists_longer hx
      have heq := (h (a ++ x :: s) t (by simp) ht (by simp)).2
      have hlength := congrArg List.length heq
      simp at hlength
      omega
  · rintro ⟨htail, hlast⟩ a' b' ha' hb' h
    obtain ⟨c, hc, hrest⟩ | ⟨c, hc, hrest⟩ := List.append_eq_append_iff.mp h
    · cases c with
      | nil =>
        refine ⟨by rw [hc, List.append_nil], ?_⟩
        exact (List.cons.inj hrest).2
      | cons d c =>
        -- the separator of the other parts stands inside the first one
        obtain ⟨rfl, -⟩ := List.cons.inj hrest
        refine absurd ?_ htail
        rw [hc, List.tail_append_of_ne_nil ha']
        exact List.mem_append_right _ List.mem_cons_self
    · cases c with
      | nil =>
        refine ⟨by rw [hc, List.append_nil], ?_⟩
        exact (List.cons.inj hrest).2.symm
      | cons d c =>
        obtain ⟨rfl, hb⟩ := List.cons.inj hrest
        refine absurd ?_ hlast
        have hb : b = c ++ x :: b' := hb
        rw [hb, List.dropLast_append_of_ne_nil (List.cons_ne_nil _ _),
          List.dropLast_cons_of_ne_nil hb']
        exact List.mem_append_right _ List.mem_cons_self

end NanFung.Splits
